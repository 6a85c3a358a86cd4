import WidgetView.Lint
import WidgetView.Proofs.ErrorPlaces
import WidgetView.Proofs.Origins
import WidgetView.Proofs.Diagnoses

/-!
# Which file is blamed

Which file the linter blames, and for which line. What validation finds is printed under the file
that the view comes from. A parse error is printed under the file that was linted, also if it was
found in the contents of another file, and then the line that is told is a line of the other file.
-/
namespace WidgetView

/-! ### Lines -/

namespace Text

theorem length_splitLines (cs : List Char) : (splitLines cs).length = 1 + cs.count '\n' := by
  induction cs with
  | nil => rfl
  | cons c cs ih =>
    rw [splitLines]
    split
    · next hc =>
      rw [List.length_cons, ih, hc, List.count_cons_self]
      omega
    · next hc =>
      obtain ⟨line, lines, hs⟩ := List.exists_cons_of_ne_nil (splitLines_ne_nil cs)
      rw [hs] at ih ⊢
      rw [List.count_cons_of_ne hc]
      exact ih

/-- A text has a line with this number, counted from one. -/
def HasLine (text : List Char) (n : Nat) : Prop := 1 ≤ n ∧ n ≤ (splitLines text).length

instance (text : List Char) (n : Nat) : Decidable (HasLine text n) :=
  inferInstanceAs (Decidable (1 ≤ n ∧ n ≤ (splitLines text).length))

theorem hasLine_one (text : List Char) : HasLine text 1 := by
  rw [HasLine, length_splitLines]
  omega

end Text

theorem hasLine_of_mem_positions {text : List Char} {ts : List Token} (h : tokenize text = .ok ts)
    {place : Nat × Nat} (hp : place ∈ positions ts) : Text.HasLine text place.1 := by
  obtain ⟨t, ht, rfl⟩ := List.mem_map.mp hp
  have hline := (placed_of_tokenize h t ht).line
  have hcount := (List.take_sublist t.span.start text).count_le '\n'
  rw [Text.HasLine, Text.length_splitLines, Span.position, hline]
  omega

/-- An error about tokens of a text is on a line of the text. -/
theorem ParseError.Placed.hasLine {text : List Char} {ts us : List Token} {e : ParseError}
    (h : tokenize text = .ok ts) (hw : Within ts us) (he : e.Placed us (endOf us)) :
    Text.HasLine text e.line := by
  have hmem : ∀ t ∈ descendants us, Text.HasLine text t.span.position.1 := fun t ht =>
    hasLine_of_mem_positions h (hw.positions_subset (List.mem_map_of_mem ht))
  cases he with
  | token ht => exact hmem _ ht
  | group hs => exact hmem _ hs
  | stop =>
    change Text.HasLine text (endOf us).1
    unfold endOf
    split
    · exact Text.hasLine_one text
    · next t ht =>
      exact hmem t (mem_descendants.mpr ⟨t, List.mem_of_getLast? ht, mem_descendants_self t⟩)

/-! ### Diagnostics -/

/-- A diagnostic has one of some positions. -/
def Diagnostic.At (places : List (Nat × Nat)) (d : Diagnostic) : Prop :=
  ∃ p ∈ places, d.line = p.1 ∧ d.column = p.2

/-- What is found about a view is found at a position in the view. -/
theorem validate_at (v : View) : (validate v).Every (Diagnostic.At (View.places v)) := by
  have hplaces : ∀ w ∈ v.widgets, w.places ⊆ View.places v :=
    fun w hw place hplace => List.mem_flatMap.mpr ⟨w, hw, hplace⟩
  have hevent : ∀ {w : Widget} {signal : String} {e : Event}, (signal, e) ∈ w.events →
      e.places ⊆ w.places := by
    intro w signal e he place hplace
    simp only [Widget.places, List.cons_append, List.mem_cons, List.mem_append, List.mem_flatMap]
    exact .inr (.inr (.inl ⟨(signal, e), he, hplace⟩))
  intro d hd
  cases validate_raised v d hd with
  | @widget w hw severity finding =>
    exact ⟨(w.line, w.column), hplaces w hw List.mem_cons_self, rfl, rfl⟩
  | @target w signal e t hw he ht known =>
    have htarget : (t.line, t.column) ∈ e.places := by simp [Event.places, ht]
    exact ⟨(t.line, t.column), hplaces w hw (hevent he htarget), rfl, rfl⟩
  | @deaf w signal e hw he name =>
    exact ⟨(e.line, e.column), hplaces w hw (hevent he List.mem_cons_self), rfl, rfl⟩
  | @childProperty w name e hw he =>
    refine ⟨(e.line, e.column), hplaces w hw ?_, rfl, rfl⟩
    have hexpr : e ∈ w.exprs := by
      have hvalue : e ∈ w.childProperties.values := Table.mem_values_iff.mpr ⟨name, he⟩
      simp [Widget.exprs, hvalue]
    have hfirst : (e.line, e.column) ∈ positions e.tokens := Within.whole.position_mem
    simp only [Widget.places, List.cons_append, List.mem_cons, List.mem_append, List.mem_flatMap]
    exact .inr (.inr (.inr ⟨e, hexpr, hfirst⟩))

/-! ### What is printed -/

namespace Command

/-- A console on which lines have been printed. -/
def Console.printed (c : Console) (lines : List String) : Console :=
  { c with out := lines.foldl (fun out line => out ++ line ++ "\n") c.out }

theorem printAll_eq (lines : List String) (c : Console) :
    printAll lines c = .ok () (c.printed lines) := by
  induction lines generalizing c with
  | nil => rfl
  | cons line lines ih => exact ih { c with out := c.out ++ line ++ "\n" }

end Command

namespace Lint

open Command

variable {c : Console} {path p : Pathname} {source text : List Char} {v : View}

def counts (r : Report) : Counts := ⟨r.errors.length, r.warnings.length, r.fixes.length⟩

theorem check_of_view (hsource : c.files.readText path = .ok source)
    (hview : (Source.viewOfFile c.files path {}).1 = .ok v)
    (horigin : Source.origin c.files path = .ok p) (htext : c.files.readText p = .ok text) :
    check path c = .ok (.ok ⟨p, text, validate v⟩) c := by
  have hread : readFile p c = .ok text c := by
    change orInterrupt (c.files.readText p) c = _
    rw [htext]
    rfl
  simp only [check, bind, EStateM.bind, getFiles, get, getThe, MonadStateOf.get, EStateM.get, pure,
    EStateM.pure, hsource, hview, horigin]
  by_cases heq : p = path
  · obtain rfl : source = text := Except.ok.inj (hsource.symm.trans (heq ▸ htext))
    rw [if_pos heq]
    rfl
  · rw [if_neg heq]
    change EStateM.bind (readFile p) _ c = _
    simp only [EStateM.bind, hread]
    rfl

/-- A view that was read: what validation finds is printed under the origin. -/
theorem checkOnly_of_view (hsource : c.files.readText path = .ok source)
    (hview : (Source.viewOfFile c.files path {}).1 = .ok v)
    (horigin : Source.origin c.files path = .ok p) (htext : c.files.readText p = .ok text) :
    checkOnly path c = .ok (counts (validate v))
      (c.printed (((validate v).errors ++ (validate v).warnings).map (diagnosticLine p))) := by
  have hcheck := check_of_view hsource hview horigin htext
  simp only [checkOnly, bind, EStateM.bind, hcheck, report, printAll_eq]
  rfl

/-- A view that does not parse: the error is printed under the file itself. -/
theorem checkOnly_of_parseError {e : ParseError} (hsource : c.files.readText path = .ok source)
    (hview : (Source.viewOfFile c.files path {}).1 = .error (.parse e)) :
    checkOnly path c = .ok ⟨1, 0, 0⟩ (c.printed [s!"{path}: parse error: {e.message}"]) := by
  simp only [checkOnly, check, bind, EStateM.bind, getFiles, get, getThe, MonadStateOf.get,
    EStateM.get, pure, EStateM.pure, hsource, hview]
  rfl

/-! ### Views in other files -/

variable {t : Token} {s : String} {us : List Token}

/-- The view of a lone string is read from the macro call in the file that it names. -/
theorem viewOfFile_of_string {fs : FileSystem} (hfile : Source.fileTokens fs path = .ok [t])
    (hs : t.string? = some s)
    (hcall : Source.macroTokens fs (path.parent.join (Pathname.ofString s)) = .ok us)
    (st : Session) :
    (Source.viewOfFile fs path st).1 =
      match Parse.root us st with
      | .ok v _ => .ok v
      | .error e _ => .error (.parse e) := by
  have hfollow : Source.follow fs path.parent [t] = .ok us := by
    simp [Source.follow, Source.fileName?, hs, hcall]
  simp only [Source.viewOfFile, hfile, Source.view, hfollow]
  cases Parse.root us st <;> rfl

/-- A file that holds nothing but the name of another one with a macro call. If the other file has a
view, all that validation finds is printed under the other file. If it has none, the parse error is
printed under the file that was linted. What is told is on a line of the other file in both
cases. -/
theorem file_of_string (hfile : Source.fileTokens c.files path = .ok [t]) (hs : t.string? = some s)
    (hcall : Source.macroTokens c.files (path.parent.join (Pathname.ofString s)) = .ok us) :
    ∃ text, c.files.readText (path.parent.join (Pathname.ofString s)) = .ok text ∧
      (∀ v st, Parse.root us {} = .ok v st →
        file path false c = .ok (counts (validate v)) (c.printed (((validate v).errors ++
          (validate v).warnings).map (diagnosticLine (path.parent.join (Pathname.ofString s))))) ∧
        (validate v).Every fun d => ∃ n : Nat, d.line = n ∧ Text.HasLine text n) ∧
      ∀ e st, Parse.root us {} = .error e st →
        file path false c = .ok ⟨1, 0, 0⟩ (c.printed [s!"{path}: parse error: {e.message}"]) ∧
        Text.HasLine text e.line := by
  obtain ⟨text, ts, htext, htokens, hbody⟩ := Source.macroTokens_eq_ok hcall
  obtain ⟨source, _, hsource, -, -⟩ := Source.fileTokens_eq_ok hfile
  have hw := MacroCall.body?_within hbody
  have hview := viewOfFile_of_string hfile hs hcall {}
  refine ⟨text, htext, fun v st hroot => ?_, fun e st hroot => ?_⟩
  · rw [hroot] at hview
    refine ⟨checkOnly_of_view hsource hview (Source.origin_of_string hfile hs) htext,
      fun d hd => ?_⟩
    obtain ⟨place, hplace, hline, -⟩ := validate_at v d hd
    have hmem := hw.positions_subset (Parse.root_places hroot hplace)
    exact ⟨place.1, hline, hasLine_of_mem_positions htokens hmem⟩
  · rw [hroot] at hview
    exact ⟨checkOnly_of_parseError hsource hview, (Parse.root_placed hroot).hasLine htokens hw⟩

/-- The event in the other file, which has an absolute name, has a target that no widget has. -/
theorem file_of_string_sample :
    let outer := Text.Utf8.encode "view! \x7b \"/b/inner\" \x7d".toList
    let inner := Text.Utf8.encode "view! \x7b\n\ngtk::Window { m => w@A }\n\x7d".toList
    let files : FileSystem := {
      nodes := ⟨[(["outer"], .file outer), (["b"], .directory), (["b", "inner"], .file inner)]⟩
      cwd := ["a"] }
    let c : Console := { files := files }
    file (Pathname.ofString "../outer") false c =
      .ok ⟨1, 0, 0⟩
        (c.printed ["/b/inner:3: error: Event 'm' of 'window1' targets unknown widget 'w'"]) := by
  intro outer inner files c
  let path := Pathname.ofString "../outer"
  let origin := path.parent.join (Pathname.ofString "/b/inner")
  obtain ⟨ts, hfile, hts⟩ : ∃ ts, Source.fileTokens c.files path = .ok ts ∧
      decide (ts.map Token.string? = [some "/b/inner"]) = true :=
        exists_ok_of_any (by decide +kernel)
  obtain ⟨t, rfl, hs⟩ := List.map_eq_singleton_iff.mp (of_decide_eq_true hts)
  obtain ⟨us, hcall, hus⟩ : ∃ us, Source.macroTokens c.files origin = .ok us ∧
      (match Parse.root us {} with
        | .ok v _ => decide (counts (validate v) = ⟨1, 0, 0⟩ ∧
            ((validate v).errors ++ (validate v).warnings).map (diagnosticLine origin) =
              ["/b/inner:3: error: Event 'm' of 'window1' targets unknown widget 'w'"])
        | .error _ _ => false) = true := exists_ok_of_any (by decide +kernel)
  obtain ⟨text, -, hview, -⟩ := file_of_string (c := c) hfile hs hcall
  split at hus
  · next v st hroot =>
    obtain ⟨hcounts, hlines⟩ := of_decide_eq_true hus
    obtain ⟨hrun, -⟩ := hview v st hroot
    rw [hrun, hcounts, hlines]
  · cases hus

/-- A parse error in the other file, on a line that the file under which it is printed does not
have. -/
theorem parseError_blames_outer :
    let outer := "view! \x7b \"inner\" \x7d".toList
    let inner := "view! \x7b\n\ngtk::Window { foo }\n\x7d".toList
    let c : Console := { files := { nodes := ⟨[(["outer"], .file (Text.Utf8.encode outer)),
      (["inner"], .file (Text.Utf8.encode inner))]⟩ } }
    file (Pathname.ofString "outer") false c = .ok ⟨1, 0, 0⟩ (c.printed ["outer: parse error: " ++
        "Line 3, column 13: Expected `:`, `(` or `=>` after `foo` but found end of input"]) ∧
      ¬Text.HasLine outer 3 ∧ Text.HasLine inner 3 := by
  intro outer inner c
  let path := Pathname.ofString "outer"
  have hsource : c.files.readText path = .ok outer := by decide +kernel
  have hview : (match (Source.viewOfFile c.files path {}).1 with
      | .error (.parse e) =>
        decide (s!"{path}: parse error: {e.message}" = "outer: parse error: " ++
          "Line 3, column 13: Expected `:`, `(` or `=>` after `foo` but found end of input")
      | .ok _ | .error (.lexical _) | .error (.file _) => false) = true := by decide +kernel
  refine ⟨?_, by decide +kernel, by decide +kernel⟩
  split at hview
  · next e he =>
    rw [← of_decide_eq_true hview]
    exact checkOnly_of_parseError hsource he
  all_goals cases hview

end Lint

end WidgetView
