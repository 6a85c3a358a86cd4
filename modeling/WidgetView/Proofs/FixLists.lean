import WidgetView.Proofs.Bodies
import WidgetView.Proofs.LineEnds

/-!
# Lists of fixes

Lists of fixes. The fixes for a line are applied to it one after another, and those for other lines
have no part in it. So a list of fixes is applied linewise, whatever the order in which it names the
lines, and two lists are applied one after the other as one list.
-/
namespace WidgetView

namespace Text

theorem not_mem_of_mem_splitLines {cs line : List Char} (h : line ∈ splitLines cs) :
    '\n' ∉ line := by
  induction cs generalizing line with
  | nil =>
    obtain rfl := List.mem_singleton.mp h
    exact List.not_mem_nil
  | cons c cs ih =>
    by_cases hc : c = '\n'
    · rw [splitLines, if_pos hc] at h
      rcases List.mem_cons.mp h with rfl | h
      · exact List.not_mem_nil
      · exact ih h
    · obtain ⟨first, lines, hs⟩ := List.exists_cons_of_ne_nil (splitLines_ne_nil cs)
      rw [splitLines_cons_of_ne hc hs] at h
      rw [hs] at ih
      rcases List.mem_cons.mp h with rfl | h
      · rw [List.mem_cons, not_or]
        exact ⟨Ne.symm hc, ih List.mem_cons_self⟩
      · exact ih (List.mem_cons_of_mem _ h)

theorem not_mem_getD_splitLines (cs : List Char) (i : Nat) : '\n' ∉ (splitLines cs).getD i [] := by
  rw [List.getD_eq_getElem?_getD]
  cases h : (splitLines cs)[i]? with
  | none => exact List.not_mem_nil
  | some line => exact not_mem_of_mem_splitLines (List.mem_of_getElem? h)

/-- Lines that are put together are the lines of the text. -/
theorem splitLines_joinLines {lines : List (List Char)} (hne : lines ≠ [])
    (h : ∀ line ∈ lines, '\n' ∉ line) : splitLines (joinLines lines) = lines := by
  induction lines with
  | nil => exact absurd rfl hne
  | cons line lines ih =>
    obtain ⟨hline, hlines⟩ := List.forall_mem_cons.mp h
    have hfirst : splitLines line = [] ++ [line] := splitLines_of_not_mem hline
    by_cases hlast : lines = []
    · rw [hlast]
      exact hfirst
    · have hrest : splitLines ('\n' :: joinLines lines) = [] :: lines := by
        rw [splitLines, if_pos rfl, ih hlast hlines]
      rw [joinLines_cons line lines hlast, splitLines_append hfirst hrest, List.append_nil]
      rfl

/-- What is in front of a word, the word and what is behind it are the text. -/
theorem eq_of_splitAtWord? {word cs front back : List Char} {before : Option Char}
    (h : splitAtWord? word before cs = some (front, back)) : cs = front ++ (word ++ back) := by
  induction cs generalizing before front back with
  | nil =>
    rw [splitAtWord?] at h
    split at h
    · next hw =>
      obtain ⟨rfl, rfl⟩ := Prod.mk.inj (Option.some.inj h)
      rw [hw.1]
      rfl
    · cases h
  | cons c cs ih =>
    rw [splitAtWord?] at h
    split at h
    · next hw =>
      obtain ⟨rfl, rfl⟩ := Prod.mk.inj (Option.some.inj h)
      exact List.prefix_append_drop hw.2.1
    · obtain ⟨r, hr, he⟩ := Option.map_eq_some_iff.mp h
      obtain ⟨rfl, rfl⟩ := Prod.mk.inj he
      rw [ih hr]
      rfl

end Text

namespace Fix

/-- The fixes for a line, in their order. -/
def forLine (n : Nat) (fixes : List Fix) : List Fix := fixes.filter fun f => f.line = n

theorem forLine_append (n : Nat) (fs gs : List Fix) :
    forLine n (fs ++ gs) = forLine n fs ++ forLine n gs :=
  List.filter_append _ _

/-! ### Fixes for one line -/

theorem applyAllToLine_append {line out : List Char} {fs gs : List Fix} :
    applyAllToLine line (fs ++ gs) = .ok out ↔
      ∃ mid, applyAllToLine line fs = .ok mid ∧ applyAllToLine mid gs = .ok out := by
  induction fs generalizing line with
  | nil => simp [applyAllToLine]
  | cons f fs ih =>
    rw [List.cons_append, applyAllToLine, applyAllToLine]
    cases applyToLine line f with
    | error e => simp
    | ok next => exact ih

/-- A template that puts in no line feed of its own leaves a line one line. -/
theorem not_mem_applyToLine {f : Fix} {line out : List Char}
    (hf : ∀ ps ∈ (Template.parse f.newText).toOption, '\n' ∉ Template.expand [] ps)
    (hline : '\n' ∉ line) (h : applyToLine line f = .ok out) : '\n' ∉ out := by
  unfold applyToLine at h
  split at h
  · cases h
  · next ps hps =>
    split at h
    · obtain rfl := Except.ok.inj h
      exact hline
    · next front back hsplit =>
      obtain rfl := Except.ok.inj h
      rw [Text.eq_of_splitAtWord? hsplit, List.mem_append, List.mem_append, not_or, not_or] at hline
      obtain ⟨hfront, hword, hback⟩ := hline
      rw [List.mem_append, List.mem_append, not_or, not_or]
      refine ⟨⟨hfront, fun hin => ?_⟩, hback⟩
      obtain ⟨p, hp, hin⟩ := List.mem_flatMap.mp hin
      cases p with
      | text cs => exact hf ps (by rw [hps]; rfl) (List.mem_flatMap.mpr ⟨_, hp, hin⟩)
      | whole => exact hword hin

theorem not_mem_applyAllToLine {fs : List Fix} {line out : List Char}
    (hf : ∀ f ∈ fs, ∀ ps ∈ (Template.parse f.newText).toOption, '\n' ∉ Template.expand [] ps)
    (hline : '\n' ∉ line) (h : applyAllToLine line fs = .ok out) : '\n' ∉ out := by
  induction fs generalizing line with
  | nil =>
    obtain rfl := Except.ok.inj h
    exact hline
  | cons f fs ih =>
    obtain ⟨hf, hfs⟩ := List.forall_mem_cons.mp hf
    rw [applyAllToLine] at h
    split at h
    · cases h
    · next next hnext => exact ih hfs (not_mem_applyToLine hf hline hnext) h

/-! ### Linewise -/

/-- Lines to which fixes were applied, to each one those that are given for its number. -/
structure Linewise (fixes : Nat → List Fix) (lines lines' : List (List Char)) : Prop where
  length : lines'.length = lines.length
  line : ∀ i < lines.length, applyAllToLine (lines.getD i []) (fixes (i + 1)) =
    .ok (lines'.getD i [])

namespace Linewise

variable {fs gs : Nat → List Fix} {lines lines' : List (List Char)}

/-- Lines that each have a result have one together. -/
theorem exists_of_forall
    (h : ∀ i < lines.length, ∃ line, applyAllToLine (lines.getD i []) (fs (i + 1)) = .ok line) :
    ∃ lines', Linewise fs lines lines' := by
  choose line hline using h
  refine ⟨List.ofFn fun i : Fin lines.length => line i i.isLt, List.length_ofFn, fun i hi => ?_⟩
  rw [hline i hi, List.getD_eq_getElem?_getD, List.getElem?_ofFn, dif_pos hi]
  rfl

/-- More fixes for each line are applied to what the first ones have made of it. -/
theorem append_iff : Linewise (fun n => fs n ++ gs n) lines lines' ↔
    ∃ mid, Linewise fs lines mid ∧ Linewise gs mid lines' := by
  constructor
  · intro h
    have hstep : ∀ i < lines.length, ∃ mid, applyAllToLine (lines.getD i []) (fs (i + 1)) =
        .ok mid ∧
        applyAllToLine mid (gs (i + 1)) = .ok (lines'.getD i []) := fun i hi =>
      applyAllToLine_append.mp (h.line i hi)
    obtain ⟨mid, hmid⟩ := exists_of_forall fun i hi => (hstep i hi).imp fun _ hm => hm.1
    refine ⟨mid, hmid, h.length.trans hmid.length.symm, fun i hi => ?_⟩
    rw [hmid.length] at hi
    obtain ⟨line, hline, hgs⟩ := hstep i hi
    obtain rfl := Except.ok.inj ((hmid.line i hi).symm.trans hline)
    exact hgs
  · rintro ⟨mid, hmid, h⟩
    refine ⟨h.length.trans hmid.length, fun i hi => ?_⟩
    exact applyAllToLine_append.mpr ⟨_, hmid.line i hi, h.line i (hmid.length.symm ▸ hi)⟩

/-- A line without fixes stays as it is. -/
theorem getElem?_eq (h : Linewise fs lines lines') {i : Nat} (hi : fs (i + 1) = []) :
    lines'[i]? = lines[i]? := by
  by_cases hlt : i < lines.length
  · have hline := h.line i hlt
    have hlt' : i < lines'.length := h.length.symm ▸ hlt
    rw [hi, applyAllToLine, List.getD_eq_getElem _ _ hlt, List.getD_eq_getElem _ _ hlt'] at hline
    rw [List.getElem?_eq_getElem hlt, List.getElem?_eq_getElem hlt', Except.ok.inj hline]
  · have hlength := h.length
    rw [List.getElem?_eq_none (by omega), List.getElem?_eq_none (by omega)]

theorem nil_iff : Linewise (fun _ => []) lines lines' ↔ lines' = lines := by
  constructor
  · intro h
    exact List.ext_getElem? fun i => h.getElem?_eq rfl
  · rintro rfl
    exact ⟨rfl, fun _ _ => rfl⟩

end Linewise

/-- Groups of fixes with different keys are applied linewise. -/
theorem applyGroups_eq_ok_iff {lines lines' : List (List Char)} {groups : List (Int × List Fix)}
    (hn : (groups.map Prod.fst).Nodup) (hin : ∀ g ∈ groups, 0 < g.1 ∧ g.1 ≤ (lines.length : Int)) :
    applyGroups lines groups = .ok lines' ↔
      Linewise (fun n => (Table.lookup (n : Int) groups).getD []) lines lines' := by
  induction groups generalizing lines with
  | nil => simp [applyGroups, Linewise.nil_iff, eq_comm]
  | cons g groups ih =>
    obtain ⟨k, fs⟩ := g
    obtain ⟨hnew, hrestn⟩ := List.nodup_cons.mp hn
    obtain ⟨⟨hpos, hle⟩, hrestin⟩ := List.forall_mem_cons.mp hin
    obtain ⟨i, rfl⟩ : ∃ i : Nat, k = (i + 1 : Nat) := ⟨k.toNat - 1, by simp only at hpos; omega⟩
    have hi : i < lines.length := by simp only at hle; omega
    have hhere : (Table.lookup ((i + 1 : Nat) : Int) (((i + 1 : Nat), fs) :: groups)).getD [] =
        fs := by
      rw [Table.lookup, if_pos rfl]
      rfl
    have hrest : Table.lookup ((i + 1 : Nat) : Int) groups = none := Table.lookup_eq_none hnew
    have hother : ∀ j, j ≠ i → Table.lookup ((j + 1 : Nat) : Int) (((i + 1 : Nat), fs) :: groups) =
        Table.lookup ((j + 1 : Nat) : Int) groups := by
      intro j hj
      rw [Table.lookup, if_neg (by omega)]
    rw [applyGroups]
    simp only [Int.toNat_natCast, Nat.add_sub_cancel]
    cases hline : applyAllToLine (lines.getD i []) fs with
    | error e =>
      refine iff_of_false (by simp) fun h => ?_
      have hi' := h.line i hi
      rw [hhere, hline] at hi'
      cases hi'
    | ok line =>
      have hset : (lines.set i line).getD i [] = line := by simp [hi]
      have hkept : ∀ j, j ≠ i → (lines.set i line).getD j [] = lines.getD j [] := by
        intro j hj
        rw [List.getD_eq_getElem?_getD, List.getElem?_set_ne (Ne.symm hj),
          List.getD_eq_getElem?_getD]
      dsimp only
      rw [ih hrestn (by simpa using hrestin)]
      -- only this line has fixes of the group, and none of the groups behind it has any for this
      -- line
      constructor
      · intro h
        refine ⟨by rw [h.length, List.length_set], fun j hj => ?_⟩
        have hj' := h.line j (by rwa [List.length_set])
        by_cases hji : j = i
        · subst hji
          rw [hset, hrest] at hj'
          rw [hhere, hline]
          exact hj'
        · rw [hkept j hji] at hj'
          rw [hother j hji]
          exact hj'
      · intro h
        refine ⟨by rw [h.length, List.length_set], fun j hj => ?_⟩
        have hj' := h.line j (by rwa [List.length_set] at hj)
        by_cases hji : j = i
        · subst hji
          rw [hhere, hline] at hj'
          rw [hset, hrest]
          exact hj'
        · rw [hother j hji] at hj'
          rw [hkept j hji]
          exact hj'

theorem collects_byLine (count : Nat) (fixes : List Fix) :
    (byLine count fixes).Collects
      ((fixes.filter fun f => 0 < f.line ∧ f.line ≤ (count : Int)).map fun f => (f.line, f)) := by
  have hcollects := Table.collects_updates
    ((fixes.filter fun f => 0 < f.line ∧ f.line ≤ (count : Int)).map fun f => (f.line, f))
  rwa [List.foldl_map] at hcollects

/-- Under the number of a line are the fixes for it. -/
theorem getD_get?_byLine {count n : Nat} (fixes : List Fix) (hpos : 1 ≤ n) (hle : n ≤ count) :
    ((byLine count fixes).get? (n : Int)).getD [] = forLine n fixes := by
  rw [(collects_byLine count fixes).value, Table.getD_allOf, Table.boundTo,
    List.filter_map, List.map_map, List.filter_filter]
  have hall : ∀ f : Fix,
      (((fun b : Int × Fix => decide (b.1 = (n : Int))) ∘ fun f => (f.line, f)) f &&
      decide (0 < f.line ∧ f.line ≤ (count : Int))) = decide (f.line = (n : Int)) := by
    intro f
    rw [Bool.eq_iff_iff, Bool.and_eq_true, decide_eq_true_eq, decide_eq_true_eq,
      Function.comp_apply, decide_eq_true_eq]
    constructor
    · exact fun h => h.1
    · intro h
      dsimp only
      omega
  rw [List.filter_congr fun f _ => hall f]
  exact List.map_id _

end Fix

/-- Fixes are applied to each line in their order. -/
theorem applyFixes_eq_ok_iff {source out : List Char} {fixes : List Fix} :
    applyFixes source fixes = .ok out ↔
      ∃ lines, Fix.Linewise (Fix.forLine · fixes) (Text.splitLines source) lines ∧
        out = Text.joinLines lines := by
  have hcollects := Fix.collects_byLine (Text.splitLines source).length fixes
  have hin : ∀ g ∈ (Fix.byLine (Text.splitLines source).length fixes).entries,
      0 < g.1 ∧ g.1 ≤ ((Text.splitLines source).length : Int) := by
    intro g hg
    have hkey : g.1 ∈ (Fix.byLine (Text.splitLines source).length fixes).keys :=
      List.mem_map_of_mem hg
    rw [hcollects.keys, Table.keysOf, List.mem_eraseDups, List.map_map] at hkey
    obtain ⟨f, hf, hline⟩ := List.mem_map.mp hkey
    have hnames := of_decide_eq_true (List.mem_filter.mp hf).2
    rw [← hline]
    exact hnames
  have hgroups : ∀ lines, Fix.applyGroups (Text.splitLines source)
      (Fix.byLine (Text.splitLines source).length fixes).entries = .ok lines ↔
        Fix.Linewise (Fix.forLine · fixes) (Text.splitLines source) lines := by
    intro lines
    rw [Fix.applyGroups_eq_ok_iff hcollects.once hin]
    have hsame : ∀ i < (Text.splitLines source).length,
        (Table.lookup ((i + 1 : Nat) : Int)
          (Fix.byLine (Text.splitLines source).length fixes).entries).getD [] =
          Fix.forLine (i + 1) fixes := fun i hi => Fix.getD_get?_byLine fixes (by omega) hi
    constructor
    · exact fun h => ⟨h.length, fun i hi => hsame i hi ▸ h.line i hi⟩
    · exact fun h => ⟨h.length, fun i hi => (hsame i hi).symm ▸ h.line i hi⟩
  unfold applyFixes
  simp only [← hgroups]
  cases Fix.applyGroups (Text.splitLines source)
    (Fix.byLine (Text.splitLines source).length fixes).entries with
  | error e => simp
  | ok lines => simp [eq_comm]

/-- The replacements of some fixes insert no line feed into a source: what they make of a line is
one line. -/
def Fix.InsertNoLineFeed (source : List Char) (fixes : List Fix) : Prop :=
  ∀ n line, 1 ≤ n → n ≤ (Text.splitLines source).length →
    applyAllToLine (Text.lineAt source n) (forLine n fixes) = .ok line → '\n' ∉ line

/-- Fixes insert no line feed if none is in the text that their templates put in. -/
theorem Fix.insertNoLineFeed_of_text {fixes : List Fix}
    (h : ∀ f ∈ fixes, ∀ ps ∈ (Template.parse f.newText).toOption, '\n' ∉ Template.expand [] ps)
    (source : List Char) : InsertNoLineFeed source fixes := by
  intro n line _ _ hline
  refine not_mem_applyAllToLine (fun f hf => h f (List.mem_filter.mp hf).1) ?_ hline
  exact Text.not_mem_getD_splitLines source (n - 1)

/-- The lines of a text to which fixes were applied that insert no line feed. -/
theorem Fix.Linewise.splitLines_joinLines {source : List Char} {fixes : List Fix}
    {lines : List (List Char)} (h : Linewise (forLine · fixes) (Text.splitLines source) lines)
    (hf : InsertNoLineFeed source fixes) :
    Text.splitLines (Text.joinLines lines) = lines := by
  have hlength := h.length
  refine Text.splitLines_joinLines ?_ ?_
  · rintro rfl
    exact Text.splitLines_ne_nil source (List.eq_nil_of_length_eq_zero hlength.symm)
  · intro line hline
    obtain ⟨i, hi, rfl⟩ := List.mem_iff_getElem.mp hline
    have hfixed := h.line i (hlength ▸ hi)
    rw [List.getD_eq_getElem lines _ hi] at hfixed
    exact hf (i + 1) _ (by omega) (by omega) hfixed

/-- Fixes that insert no line feed are applied linewise. Two lists of them are applied one after the
other as one list; only the order of the fixes for each line matters; no line is added or lost, and
one that no fix names stays as it is; and fixes for lines that do not exist do nothing. -/
theorem fixes_apply_linewise {source : List Char} {fixes : List Fix}
    (hf : Fix.InsertNoLineFeed source fixes) :
    (∀ more out, applyFixes source (fixes ++ more) = .ok out ↔
      ∃ mid, applyFixes source fixes = .ok mid ∧ applyFixes mid more = .ok out) ∧
    (∀ others,
      (∀ n, 1 ≤ n → n ≤ (Text.splitLines source).length →
        Fix.forLine n others = Fix.forLine n fixes) →
      ∀ out, applyFixes source others = .ok out ↔ applyFixes source fixes = .ok out) ∧
    (∀ out, applyFixes source fixes = .ok out →
      (Text.splitLines out).length = (Text.splitLines source).length ∧
      ∀ i : Nat, (¬∃ f ∈ fixes, f.line = (i + 1 : Nat)) →
        (Text.splitLines out)[i]? = (Text.splitLines source)[i]?) ∧
    applyFixes source
      (fixes.filter fun f => 0 < f.line ∧ f.line ≤ ((Text.splitLines source).length : Int)) =
      applyFixes source fixes := by
  refine ⟨fun more out => ?_, fun others hsame out => ?_, fun out hout => ?_, ?_⟩
  · simp only [applyFixes_eq_ok_iff, Fix.forLine_append, Fix.Linewise.append_iff]
    constructor
    · rintro ⟨lines, ⟨mid, hmid, h⟩, rfl⟩
      refine ⟨_, ⟨mid, hmid, rfl⟩, lines, ?_, rfl⟩
      rw [hmid.splitLines_joinLines hf]
      exact h
    · rintro ⟨_, ⟨mid, hmid, rfl⟩, lines, h, rfl⟩
      rw [hmid.splitLines_joinLines hf] at h
      exact ⟨lines, ⟨mid, hmid, h⟩, rfl⟩
  · have hiff : ∀ lines, Fix.Linewise (Fix.forLine · others) (Text.splitLines source) lines ↔
        Fix.Linewise (Fix.forLine · fixes) (Text.splitLines source) lines := by
      intro lines
      constructor
      · exact fun h => ⟨h.length, fun i hi => hsame (i + 1) (by omega) hi ▸ h.line i hi⟩
      · exact fun h => ⟨h.length, fun i hi => (hsame (i + 1) (by omega) hi).symm ▸ h.line i hi⟩
    simp only [applyFixes_eq_ok_iff, hiff]
  · obtain ⟨lines, h, rfl⟩ := applyFixes_eq_ok_iff.mp hout
    rw [h.splitLines_joinLines hf]
    refine ⟨h.length, fun i hi => h.getElem?_eq ?_⟩
    refine List.filter_eq_nil_iff.mpr fun f hmem hline => hi ⟨f, hmem, of_decide_eq_true hline⟩
  · simp only [applyFixes, Fix.byLine, List.filter_filter, Bool.and_self]

/-- Fixes for two lines and for one that does not exist, and two more, the second one for what the
first one puts there. -/
theorem fixes_apply_linewise_sample :
    let source := "a b\nc".toList
    let fixes : List Fix := [⟨"a", "d", 1⟩, ⟨"c", "e f", 2⟩, ⟨"a", "x", 3⟩]
    let more : List Fix := [⟨"d", "b", 1⟩, ⟨"b", "g", 1⟩]
    Fix.InsertNoLineFeed source fixes ∧ ∃ mid, applyFixes source fixes = .ok mid ∧
      applyFixes mid more = .ok "g b\ne f".toList ∧ (Text.splitLines mid).length = 2 := by
  intro source fixes more
  have hf : Fix.InsertNoLineFeed source fixes :=
    Fix.insertNoLineFeed_of_text (by decide +kernel) source
  obtain ⟨happend, -, hlines, -⟩ := fixes_apply_linewise hf
  have hboth : applyFixes source (fixes ++ more) = .ok "g b\ne f".toList := by decide +kernel
  obtain ⟨mid, hmid, hmore⟩ := (happend more _).mp hboth
  exact ⟨hf, mid, hmid, hmore, (hlines mid hmid).1⟩

end WidgetView
