import Mathlib
import WidgetView.Validate

/-!
# Every violation once

What validation reports as an error: every violation once, and nothing else. The violations are a
name that an earlier widget has, a parent asked for that is no other widget, a root that asks to be
moved, and a message for a widget that is not there. So a view has no errors exactly if it has none
of these.
-/
namespace WidgetView

/-- A widget asks for a parent that cannot be its own: itself, or no widget at all. -/
def Widget.asksInVain (names : List String) (w : Widget) : Bool :=
  w.parent.any fun p => p = w.name ∨ p ∉ names

/-- A widget asks for another widget as its parent. -/
def Widget.asksToMove (names : List String) (w : Widget) : Bool :=
  w.parent.any fun p => p ∈ names ∧ p ≠ w.name

/-- A message goes to another widget, and there is none of this name. -/
def Event.isLost (names : List String) (e : Event) : Bool :=
  e.target.any fun t => t.name ∉ names

namespace Report

theorem errors_join (rs : List Report) : (join rs).errors = rs.flatMap Report.errors := by
  induction rs with
  | nil => rfl
  | cons r rs ih => rw [join_cons, errors_append, ih, List.flatMap_cons]

/-- A report for each element, with one error where the element is bad, has as many errors as there
are bad elements. -/
theorem length_errors_join_map {α : Type} {f : α → Report} {bad : α → Bool} {as : List α}
    (h : ∀ a ∈ as, (f a).errors.length = if bad a then 1 else 0) :
    (join (as.map f)).errors.length = as.countP bad := by
  induction as with
  | nil => rfl
  | cons a as ih =>
    obtain ⟨ha, has⟩ := List.forall_mem_cons.mp h
    rw [List.map_cons, join_cons, errors_append, List.length_append, ih has, ha, List.countP_cons,
      Nat.add_comm]

end Report

namespace Validate

variable {known : Table String Widget} {names : List String} {w : Widget}

theorem contains_insert {name key : String} :
    (known.insert key w).contains name = true ↔ name = key ∨ known.contains name = true := by
  by_cases h : name = key
  · subst h
    simp [Table.contains]
  · simp [Table.contains, Table.get?_insert_other _ _ _ _ h, h]

/-- The names known in the end are those known before and those of the widgets. -/
theorem contains_declareAll {name : String} {ws : List Widget} :
    (declareAll known ws).1.contains name = true ↔
      known.contains name = true ∨ name ∈ ws.map Widget.name := by
  induction ws generalizing known with
  | nil => simp [declareAll]
  | cons w ws ih =>
    rw [declareAll, List.map_cons, List.mem_cons]
    cases hw : known.contains w.name with
    | true =>
      have hknown : name = w.name → known.contains name = true := fun h => h ▸ hw
      simp only [if_true, ih]
      tauto
    | false =>
      simp only [Bool.false_eq_true, if_false, ih, contains_insert]
      tauto

/-- One widget of each new name goes without an error. -/
theorem length_errors_declareAll (known : Table String Widget) (ws : List Widget) :
    (declareAll known ws).2.errors.length +
      ((ws.map Widget.name).toFinset.filter fun name => known.contains name = false).card =
        ws.length := by
  induction ws generalizing known with
  | nil => rfl
  | cons w ws ih =>
    rw [declareAll, List.map_cons, List.toFinset_cons, List.length_cons]
    cases hw : known.contains w.name with
    | true =>
      have hstep := ih known
      have hold : ¬ known.contains w.name = false := by simp [hw]
      rw [Finset.filter_insert, if_neg hold]
      simp only [if_true, Report.errors_append, Report.error, List.length_append,
        List.length_singleton]
      omega
    | false =>
      have hstep := ih (known.insert w.name w)
      have hnew : (insert w.name (ws.map Widget.name).toFinset).filter
            (fun name => known.contains name = false) =
          insert w.name ((ws.map Widget.name).toFinset.filter fun name =>
            (known.insert w.name w).contains name = false) := by
        ext name
        by_cases hname : name = w.name
        · simp [hname, hw]
        · simp [hname, ← Bool.not_eq_true, contains_insert]
      have hout : w.name ∉ (ws.map Widget.name).toFinset.filter fun name =>
          (known.insert w.name w).contains name = false := by
        simp [← Bool.not_eq_true, contains_insert]
      rw [hnew, Finset.card_insert_of_notMem hout]
      simp only [Bool.false_eq_true, if_false]
      omega

/-! ### One widget -/

theorem length_errors_parent (hk : ∀ name, known.contains name = true ↔ name ∈ names) (w : Widget) :
    (parent w known).errors.length = if w.asksInVain names then 1 else 0 := by
  unfold parent Widget.asksInVain
  cases hp : w.parent with
  | none => rfl
  | some p =>
    by_cases hself : p = w.name
    · simp [hself, Report.error]
    · by_cases hin : p ∈ names
      · simp [hself, hin, (hk p).mpr hin, Report.empty]
      · have hout : known.contains p = false := by simpa [hin] using hk p
        simp [hself, hin, hout, Report.error]

theorem length_errors_root (hk : ∀ name, known.contains name = true ↔ name ∈ names) (w : Widget) :
    (root w known).errors.length = if w.asksToMove names then 1 else 0 := by
  unfold root Widget.asksToMove
  cases hp : w.parent with
  | none => rfl
  | some p =>
    by_cases h : p ∈ names ∧ p ≠ w.name
    · simp [hk, h, Report.error]
    · simp [hk, h, Report.empty]

theorem length_errors_event (hk : ∀ name, known.contains name = true ↔ name ∈ names) (w : Widget)
    (signal : String) (e : Event) :
    (event w known signal e).errors.length = if e.isLost names then 1 else 0 := by
  unfold event Event.isLost
  cases ht : e.target with
  | none => rfl
  | some t =>
    have hin := hk t.name
    rw [Table.contains] at hin
    cases hget : known.get? t.name with
    | none =>
      have hout : t.name ∉ names := by simpa [hget] using hin
      simp [hget, hout, Report.error]
    | some target =>
      have hfound : t.name ∈ names := by simpa [hget] using hin
      by_cases hkind : target.isToolkit <;> simp [hget, hfound, hkind, Report.warning, Report.empty]

theorem errors_childProperties (w : Widget) : (childProperties w).errors = [] := by
  rw [childProperties, Report.errors_join, List.flatMap_eq_nil_iff]
  intro r hr
  obtain ⟨⟨name, e⟩, -, rfl⟩ := List.mem_map.mp hr
  dsimp only
  split <;> rfl

theorem errors_container (w : Widget) : (container w).errors = [] := by
  unfold container
  split <;> rfl

theorem length_errors_widget (hk : ∀ name, known.contains name = true ↔ name ∈ names) (w : Widget) :
    (widget known w).errors.length =
      (if w.asksInVain names then 1 else 0) + w.events.countP fun h => h.2.isLost names := by
  have hevents : (events w known).errors.length = w.events.countP fun h => h.2.isLost names :=
    Report.length_errors_join_map fun h _ => length_errors_event hk w h.1 h.2
  simp only [widget, Report.errors_append, List.length_append, length_errors_parent hk, hevents,
    errors_childProperties, errors_container, List.length_nil, Nat.add_zero]

theorem length_errors_widgets (hk : ∀ name, known.contains name = true ↔ name ∈ names)
    (ws : List Widget) :
    (Report.join (ws.map (widget known))).errors.length =
      ws.countP (Widget.asksInVain names) +
        (ws.map fun w => w.events.countP fun h => h.2.isLost names).sum := by
  induction ws with
  | nil => rfl
  | cons w ws ih =>
    rw [List.map_cons, Report.join_cons, Report.errors_append, List.length_append, ih,
      length_errors_widget hk, List.countP_cons, List.map_cons, List.sum_cons]
    omega

end Validate

/-! ### The whole view -/

/-- The names of the widgets of a view. -/
def View.names (v : View) : List String := v.widgets.map Widget.name

theorem contains_known (v : View) (name : String) :
    (Validate.declareAll {} v.widgets).1.contains name = true ↔ name ∈ v.names := by
  rw [Validate.contains_declareAll]
  exact or_iff_right Bool.false_ne_true

theorem length_errors_validate (v : View) :
    (validate v).errors.length =
      (v.widgets.length - v.names.toFinset.card) + v.widgets.countP (Widget.asksInVain v.names) +
        (if v.value.asksToMove v.names then 1 else 0) +
        (v.widgets.map fun w => w.events.countP fun h => h.2.isLost v.names).sum := by
  have hduplicates := Validate.length_errors_declareAll {} v.widgets
  have hnew : ((v.widgets.map Widget.name).toFinset.filter
      fun name => (({} : Table String Widget)).contains name = false) = v.names.toFinset :=
    Finset.filter_true_of_mem fun _ _ => rfl
  rw [hnew] at hduplicates
  simp only [validate, Report.errors_append, List.length_append,
    Validate.length_errors_root (contains_known v),
    Validate.length_errors_widgets (contains_known v)]
  omega

/-- No widget is left over exactly if no two have the same name. -/
theorem names_nodup_iff (v : View) :
    v.widgets.length - v.names.toFinset.card = 0 ↔ v.names.Nodup := by
  have hlength : v.widgets.length = v.names.length := (List.length_map ..).symm
  have hle : v.names.toFinset.card ≤ v.names.length := List.toFinset_card_le v.names
  have hnodup : v.names.toFinset.card = v.names.length ↔ v.names.Nodup :=
    Multiset.toFinset_card_eq_card_iff_nodup
  rw [hlength, ← hnodup]
  omega

theorem asksInVain_eq_false_iff {names : List String} {w : Widget} :
    w.asksInVain names = false ↔ ∀ p ∈ w.parent, p ∈ names ∧ p ≠ w.name := by
  cases hp : w.parent with
  | none => simp [Widget.asksInVain, hp]
  | some p => simp [Widget.asksInVain, hp, and_comm]

/-- Whoever asks for no parent in vain does not ask to be moved exactly if there is nothing it asks
for. -/
theorem asksToMove_eq_false_iff {names : List String} {w : Widget}
    (h : w.asksInVain names = false) : w.asksToMove names = false ↔ w.parent = none := by
  have hparent := asksInVain_eq_false_iff.mp h
  cases hp : w.parent with
  | none => simp [Widget.asksToMove, hp]
  | some p => simpa [Widget.asksToMove, hp] using hparent p hp

/-- A view has no errors exactly if nothing is wrong with it. -/
theorem errors_eq_nil_iff (v : View) :
    (validate v).errors = [] ↔
      v.names.Nodup ∧ v.value.parent = none ∧
        (∀ w ∈ v.widgets, ∀ p ∈ w.parent, p ∈ v.names ∧ p ≠ w.name) ∧
        ∀ w ∈ v.widgets, ∀ h ∈ w.events, ∀ t ∈ h.2.target, t.name ∈ v.names := by
  have hparents : v.widgets.countP (Widget.asksInVain v.names) = 0 ↔
      ∀ w ∈ v.widgets, ∀ p ∈ w.parent, p ∈ v.names ∧ p ≠ w.name := by
    simp only [List.countP_eq_zero, Bool.not_eq_true, asksInVain_eq_false_iff]
  have hroot : v.widgets.countP (Widget.asksInVain v.names) = 0 →
      (v.value.asksToMove v.names = false ↔ v.value.parent = none) := by
    intro h
    exact asksToMove_eq_false_iff
      (by simpa using List.countP_eq_zero.mp h _ (Tree.value_mem_toList v))
  have htargets : (v.widgets.map fun w => w.events.countP fun h => h.2.isLost v.names).sum = 0 ↔
      ∀ w ∈ v.widgets, ∀ h ∈ w.events, ∀ t ∈ h.2.target, t.name ∈ v.names := by
    simp [List.sum_eq_zero_iff, List.countP_eq_zero, Event.isLost, Option.any_eq_false]
  rw [← List.length_eq_zero_iff, length_errors_validate, ← names_nodup_iff, ← hparents, ← htargets]
  constructor
  · intro h
    obtain ⟨⟨⟨hnames, hasks⟩, hmoves⟩, hlost⟩ : ((v.widgets.length - v.names.toFinset.card = 0 ∧
        v.widgets.countP (Widget.asksInVain v.names) = 0) ∧
        (if v.value.asksToMove v.names then 1 else 0) = 0) ∧
        (v.widgets.map fun w => w.events.countP fun h => h.2.isLost v.names).sum = 0 := by
      simpa only [Nat.add_eq_zero_iff] using h
    exact ⟨hnames, (hroot hasks).mp (by simpa using hmoves), hasks, hlost⟩
  · rintro ⟨hnames, hparent, hasks, hlost⟩
    rw [hnames, hasks, hlost, (hroot hasks).mpr hparent]
    rfl

/-- Validation reports every violation once, and nothing else. A name counts as often as it repeats
an earlier one, and every handler of a signal counts for itself. -/
theorem violations_reported_once (v : View) :
    (validate v).errors.length =
        (v.widgets.length - v.names.toFinset.card) + v.widgets.countP (Widget.asksInVain v.names) +
          (if v.value.asksToMove v.names then 1 else 0) +
          (v.widgets.map fun w => w.events.countP fun h => h.2.isLost v.names).sum ∧
      ((validate v).hasErrors = false ↔
        v.names.Nodup ∧ v.value.parent = none ∧
          (∀ w ∈ v.widgets, ∀ p ∈ w.parent, ∃ u ∈ v.widgets, u.name = p ∧ u.name ≠ w.name) ∧
          ∀ w ∈ v.widgets, ∀ h ∈ w.events, ∀ t ∈ h.2.target, ∃ u ∈ v.widgets, u.name = t.name) := by
  refine ⟨length_errors_validate v, ?_⟩
  have hother : ∀ (w : Widget) (p : String),
      (∃ u ∈ v.widgets, u.name = p ∧ u.name ≠ w.name) ↔ p ∈ v.names ∧ p ≠ w.name := by
    intro w p
    rw [View.names, List.mem_map]
    constructor
    · rintro ⟨u, hu, rfl, hne⟩
      exact ⟨⟨u, hu, rfl⟩, hne⟩
    · rintro ⟨⟨u, hu, rfl⟩, hne⟩
      exact ⟨u, hu, rfl, hne⟩
  have hclean : (validate v).hasErrors = false ↔ (validate v).errors = [] := by
    rw [Report.hasErrors, Bool.not_eq_false', List.isEmpty_iff]
  simp only [hclean, errors_eq_nil_iff, hother, View.names, List.mem_map]

end WidgetView
