import WidgetView.Proofs.Fixing
import WidgetView.Source

/-!
# What diagnostics are about

Every diagnostic that validation raises is about a widget, about an event of one, or about a child
property. Those that may have a fix are about an identifier of the token trees: a target before its
`@`, or a child property before its colon.
-/
namespace WidgetView

/-- The name that a diagnostic is about. The diagnostic has the place of a target, but of a child
property it has the place of the value. -/
def Diagnostic.IsAbout (ts : List Token) (d : Diagnostic) (l : Lexeme) : Prop :=
  match d.finding with
  | .unknownTarget _ _ target _ =>
    l.text = target ∧ (∃ rest, Marked ts l "@" rest) ∧ d.line = l.span.line ∧
      d.column = l.span.column
  | .unknownChildProperty property _ _ =>
    l.text = property ∧ ∃ first rest, Marked ts l ":" (first :: rest) ∧ d.line = first.span.line ∧
      d.column = first.span.column
  | _ => False

theorem Diagnostic.IsAbout.marked {ts : List Token} {d : Diagnostic} {l : Lexeme}
    (h : d.IsAbout ts l) : ∃ mark rest, Marked ts l mark rest := by
  unfold IsAbout at h
  split at h
  · obtain ⟨-, ⟨rest, hm⟩, -⟩ := h
    exact ⟨_, rest, hm⟩
  · obtain ⟨-, first, rest, hm, -⟩ := h
    exact ⟨_, first :: rest, hm⟩
  · exact absurd h id

theorem Marked.mem_lexemes {ts rest : List Token} {l : Lexeme} {mark : String}
    (h : Marked ts l mark rest) : l ∈ lexemes ts := by
  obtain ⟨-, span, hw⟩ := h
  obtain ⟨front, back, he⟩ := hw.lexemes_eq
  rw [he]
  simp [lexemes, Token.lexemes]

namespace Report

/-- All diagnostics of a report have a property. -/
def Every (P : Diagnostic → Prop) (r : Report) : Prop := ∀ d ∈ r.errors ++ r.warnings, P d

variable {P : Diagnostic → Prop}

theorem every_empty : empty.Every P := by simp [Every, empty]

theorem every_error {finding : Finding} {line column : Int} {fix : Option Fix}
    (h : P ⟨.error, finding, line, column, fix⟩) : (error finding line column fix).Every P := by
  simpa [Every, error] using h

theorem every_warning {finding : Finding} {line column : Int} {fix : Option Fix}
    (h : P ⟨.warning, finding, line, column, fix⟩) : (warning finding line column fix).Every P := by
  simpa [Every, warning] using h

theorem every_append {r s : Report} (hr : r.Every P) (hs : s.Every P) : (r ++ s).Every P := by
  intro d hd
  simp only [errors_append, warnings_append, List.mem_append] at hd
  rcases hd with (hd | hd) | hd | hd
  · exact hr d (List.mem_append_left _ hd)
  · exact hs d (List.mem_append_left _ hd)
  · exact hr d (List.mem_append_right _ hd)
  · exact hs d (List.mem_append_right _ hd)

theorem every_join {rs : List Report} (h : ∀ r ∈ rs, r.Every P) : (join rs).Every P := by
  induction rs with
  | nil => exact every_empty
  | cons r rs ih =>
    obtain ⟨hr, hrs⟩ := List.forall_mem_cons.mp h
    exact every_append hr (ih hrs)

end Report

/-- The diagnostics that validation can raise about a view, by what they are about. -/
inductive Diagnostic.Raised (v : View) : Diagnostic → Prop where
  | widget {w : Widget} (hw : w ∈ v.widgets) (severity : Severity) (finding : Finding) :
      Raised v ⟨severity, finding, w.line, w.column, none⟩
  | target {w : Widget} {signal : String} {e : Event} {t : Target} (hw : w ∈ v.widgets)
      (he : (signal, e) ∈ w.events) (ht : e.target = some t) (known : List String) :
      Raised v ⟨.error, .unknownTarget signal w.name t.name (Fix.obvious? t.name known t.line),
        t.line, t.column, Fix.obvious? t.name known t.line⟩
  | deaf {w : Widget} {signal : String} {e : Event} (hw : w ∈ v.widgets)
      (he : (signal, e) ∈ w.events) (name : String) :
      Raised v ⟨.warning, .deafTarget signal w.name name, e.line, e.column, none⟩
  | childProperty {w : Widget} {name : String} {e : Expr} (hw : w ∈ v.widgets)
      (he : (name, e) ∈ w.childProperties.entries) :
      Raised v
        ⟨.warning, .unknownChildProperty name w.name (Fix.obvious? name boxChildProperties e.line),
        e.line, e.column, Fix.obvious? name boxChildProperties e.line⟩

namespace Validate

variable {v : View} {w : Widget}

theorem declareAll_raised (known : Table String Widget) (ws : List Widget) (hws : ws ⊆ v.widgets) :
    (declareAll known ws).2.Every (Diagnostic.Raised v) := by
  induction ws generalizing known with
  | nil => exact Report.every_empty
  | cons w ws ih =>
    obtain ⟨hw, hws⟩ := List.cons_subset.mp hws
    rw [declareAll]
    split
    · exact Report.every_append (Report.every_error (.widget hw _ _)) (ih known hws)
    · exact ih _ hws

theorem root_raised (hw : w ∈ v.widgets) (known : Table String Widget) :
    (root w known).Every (Diagnostic.Raised v) := by
  unfold root
  split
  · exact Report.every_empty
  · split
    · exact Report.every_error (.widget hw _ _)
    · exact Report.every_empty

theorem parent_raised (hw : w ∈ v.widgets) (known : Table String Widget) :
    (parent w known).Every (Diagnostic.Raised v) := by
  unfold parent
  split
  · exact Report.every_empty
  · split
    · exact Report.every_error (.widget hw _ _)
    · split
      · exact Report.every_empty
      · exact Report.every_error (.widget hw _ _)

theorem container_raised (hw : w ∈ v.widgets) : (container w).Every (Diagnostic.Raised v) := by
  unfold container
  split
  · exact Report.every_warning (.widget hw _ _)
  · exact Report.every_empty

theorem events_raised (hw : w ∈ v.widgets) (known : Table String Widget) :
    (events w known).Every (Diagnostic.Raised v) := by
  refine Report.every_join ?_
  intro r hr
  obtain ⟨⟨signal, e⟩, he, rfl⟩ := List.mem_map.mp hr
  simp only [event]
  split
  · exact Report.every_empty
  · next t ht =>
    split
    · exact Report.every_error (.target hw he ht known.keys)
    · split
      · exact Report.every_warning (.deaf hw he t.name)
      · exact Report.every_empty

theorem childProperties_raised (hw : w ∈ v.widgets) :
    (childProperties w).Every (Diagnostic.Raised v) := by
  refine Report.every_join ?_
  intro r hr
  obtain ⟨⟨name, e⟩, he, rfl⟩ := List.mem_map.mp hr
  dsimp only
  split
  · exact Report.every_empty
  · exact Report.every_warning (.childProperty hw he)

theorem widget_raised (hw : w ∈ v.widgets) (known : Table String Widget) :
    (widget known w).Every (Diagnostic.Raised v) :=
  Report.every_append (Report.every_append (Report.every_append (parent_raised hw known)
    (events_raised hw known)) (childProperties_raised hw)) (container_raised hw)

end Validate

theorem validate_raised (v : View) : (validate v).Every (Diagnostic.Raised v) := by
  refine Report.every_append (Report.every_append (Validate.declareAll_raised {} v.widgets
    (List.Subset.refl _)) (Validate.root_raised (Tree.value_mem_toList v) _)) (Report.every_join ?_)
  intro r hr
  obtain ⟨w, hw, rfl⟩ := List.mem_map.mp hr
  exact Validate.widget_raised hw _

/-! ### Fixes -/

theorem Fix.obvious?_eq_some {name : String} {candidates : List String} {line : Int} {f : Fix}
    (h : Fix.obvious? name candidates line = some f) : f.oldText = name ∧ f.line = line := by
  unfold Fix.obvious? at h
  split at h
  · obtain rfl := Option.some.inj h
    exact ⟨rfl, rfl⟩
  · cases h

/-- The fix of a diagnostic, if there is one, is for the name that the diagnostic is about. -/
theorem validate_sourced {ts : List Token} {v : View} (hv : ∀ w ∈ v.widgets, w.ReadFrom ts) :
    (validate v).Every fun d =>
      ∀ f, d.fix = some f → ∃ l, d.IsAbout ts l ∧ f.oldText = l.text ∧ f.line = d.line := by
  intro d hd f hf
  cases validate_raised v d hd with
  | widget _ _ _ => cases hf
  | deaf _ _ _ => cases hf
  | @target w signal e t hw he ht known =>
    obtain ⟨hold, hline⟩ := Fix.obvious?_eq_some hf
    rw [Widget.events_eq] at he
    obtain ⟨l, rest, hm, htext, hl, hc⟩ := (hv w hw).events _ he t ht
    exact ⟨l, ⟨htext, ⟨rest, hm⟩, by rw [hl], by rw [hc]⟩, by rw [hold, htext], hline⟩
  | @childProperty w name e hw he =>
    obtain ⟨hold, hline⟩ := Fix.obvious?_eq_some hf
    obtain ⟨l, rest, hm, htext⟩ := (hv w hw).properties _ he
    exact ⟨l, ⟨htext, e.first, rest, hm, rfl, rfl⟩, by rw [hold, htext], hline⟩

/-- A text that names no file is read as the view that it holds. -/
theorem Source.root_of_viewOfText {fs : FileSystem} {base : Pathname} {source : List Char}
    {st st' : Session} {v : View} {ts : List Token} (ht : tokenize source = .ok ts)
    (hn : fileName? ts = none) (hv : viewOfText fs base source st = (.ok v, st')) :
    Parse.root ts st = .ok v st' := by
  simp only [viewOfText, ht, view, follow, hn] at hv
  cases hr : Parse.root ts st with
  | error e st₁ => simp [hr] at hv
  | ok v₁ st₁ =>
    rw [hr] at hv
    obtain ⟨hview, rfl⟩ := Prod.mk.inj hv
    rw [Except.ok.inj hview]

end WidgetView
