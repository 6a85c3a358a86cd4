import WidgetView.Proofs.Fixing

/-!
# Lines and what ends them

Lines and what ends them. Texts are read with their line ends unified, so a text that is taken apart
into lines and put together again has a line feed behind every line, whatever ended it before. A fix
works on one line and leaves the others as they are.
-/
namespace WidgetView

namespace Text

/-- The lines of a text, each with what ends it: a line feed, a carriage return, or a carriage
return before a line feed. Nothing ends the last line. -/
def endedLines : List Char → List (List Char × List Char)
  | [] => [([], [])]
  | '\r' :: '\n' :: cs => ([], ['\r', '\n']) :: endedLines cs
  | c :: cs =>
    if c = '\n' ∨ c = '\r' then ([], [c]) :: endedLines cs
    else
      match endedLines cs with
      | [] => [([c], [])]
      | (line, stop) :: lines => (c :: line, stop) :: lines

/-- Lines with a line end behind each but the last one. -/
inductive Ended : List (List Char × List Char) → Prop where
  | last {line : List Char} : Ended [(line, [])]
  | more {line stop : List Char} {lines : List (List Char × List Char)}
      (h : unifyLineEnds stop = ['\n'])
      (hm : Ended lines) : Ended ((line, stop) :: lines)

theorem ended_cons {line stop : List Char} {lines : List (List Char × List Char)} (c : Char)
    (h : Ended ((line, stop) :: lines)) : Ended ((c :: line, stop) :: lines) := by
  cases h with
  | last => exact .last
  | more h hm => exact .more h hm

theorem ended_endedLines (cs : List Char) : Ended (endedLines cs) := by
  fun_induction endedLines cs with
  | case1 => exact .last
  | case2 cs ih => exact .more rfl ih
  | case3 c cs _ hc ih =>
    refine .more ?_ ih
    rcases hc with rfl | rfl <;> rfl
  | case4 c cs _ _ _ _ => exact .last
  | case5 c cs _ _ line stop lines hs ih =>
    rw [hs] at ih
    exact ended_cons c ih

/-- There is a last line. -/
theorem endedLines_ne_nil (cs : List Char) : endedLines cs ≠ [] := by
  intro h
  have hended := ended_endedLines cs
  rw [h] at hended
  cases hended

/-- A text is its lines with their ends. -/
theorem flatMap_endedLines (cs : List Char) :
    ((endedLines cs).flatMap fun l => l.1 ++ l.2) = cs := by
  fun_induction endedLines cs with
  | case1 => rfl
  | case2 cs ih => rw [List.flatMap_cons, ih]; rfl
  | case3 c cs _ _ ih => rw [List.flatMap_cons, ih]; rfl
  | case4 c cs _ _ hs _ => exact absurd hs (endedLines_ne_nil cs)
  | case5 c cs _ _ line stop lines hs ih =>
    rw [hs, List.flatMap_cons] at ih
    rw [List.flatMap_cons, ← ih]
    rfl

/-- The lines of a text with unified ends are those of the text itself. -/
theorem splitLines_unifyLineEnds (cs : List Char) :
    splitLines (unifyLineEnds cs) = (endedLines cs).map Prod.fst := by
  fun_induction endedLines cs with
  | case1 => rfl
  | case2 cs ih => rw [unifyLineEnds, splitLines, if_pos rfl, ih, List.map_cons]
  | case3 c cs hno hc ih =>
    have hfeed : (if c = '\r' then '\n' else c) = '\n' := by
      rcases hc with rfl | rfl <;> rfl
    rw [unifyLineEnds.eq_3 c cs hno, hfeed, splitLines, if_pos rfl, ih, List.map_cons]
  | case4 c cs _ _ hs _ => exact absurd hs (endedLines_ne_nil cs)
  | case5 c cs hno hc line stop lines hs ih =>
    rw [not_or] at hc
    rw [hs, List.map_cons] at ih
    rw [unifyLineEnds.eq_3 c cs hno, if_neg hc.2, splitLines_cons_of_ne hc.1 ih, List.map_cons]

/-- Lines put together again, with a line feed behind each that had an end. -/
theorem joinLines_eq_flatten {ended : List (List Char × List Char)} (h : Ended ended)
    {lines : List (List Char)} (hl : lines.length = ended.length) :
    joinLines lines =
      (List.zipWith (fun line l => line ++ unifyLineEnds l.2) lines ended).flatten := by
  induction h generalizing lines with
  | last =>
    obtain ⟨line, rfl⟩ := List.length_eq_one_iff.mp hl
    simp [joinLines, unifyLineEnds]
  | @more _ stop ended hstop hm ih =>
    cases lines with
    | nil => cases hl
    | cons line lines =>
      rw [List.length_cons, List.length_cons, Nat.add_right_cancel_iff] at hl
      have hne : lines ≠ [] := by
        rintro rfl
        cases hm <;> cases hl
      rw [joinLines_cons line lines hne, ih hl, List.zipWith_cons_cons, List.flatten_cons, hstop]
      simp

theorem not_mem_unifyLineEnds (cs : List Char) : '\r' ∉ unifyLineEnds cs := by
  fun_induction unifyLineEnds cs with
  | case1 => simp
  | case2 cs ih => simpa using ih
  | case3 c cs _ ih =>
    by_cases hc : c = '\r'
    · simpa [hc] using ih
    · simpa [hc, Ne.symm hc] using ih

theorem unifyLineEnds_of_not_mem {cs : List Char} (h : '\r' ∉ cs) : unifyLineEnds cs = cs := by
  fun_induction unifyLineEnds cs with
  | case1 => rfl
  | case2 cs => exact absurd List.mem_cons_self h
  | case3 c cs _ ih =>
    rw [List.mem_cons, not_or] at h
    rw [if_neg (Ne.symm h.1), ih h.2]

/-- The line ends of a text are unified unless there is a carriage return in it. -/
theorem unifyLineEnds_eq_self_iff {cs : List Char} : unifyLineEnds cs = cs ↔ '\r' ∉ cs := by
  constructor
  · intro h
    rw [← h]
    exact not_mem_unifyLineEnds cs
  · exact unifyLineEnds_of_not_mem

/-- The second text has a piece for every line of the first one. Where a line is not changed, its
piece is the line as it was, and behind it what becomes of its end. -/
def KeepsLines (changed : Nat → Prop) (ends : List Char → List Char) (cs ds : List Char) : Prop :=
  ∃ pieces : List (List Char), ds = pieces.flatten ∧ pieces.length = (endedLines cs).length ∧
    ∀ i line stop, (endedLines cs)[i]? = some (line, stop) → ¬changed (i + 1) →
      pieces[i]? = some (line ++ ends stop)

/-- Where there is no carriage return, all ends stay as they are. -/
theorem KeepsLines.same_ends {changed : Nat → Prop} {cs ds : List Char}
    (h : KeepsLines changed unifyLineEnds cs ds) (hcs : '\r' ∉ cs) :
    KeepsLines changed id cs ds := by
  obtain ⟨pieces, hds, hlength, hkept⟩ := h
  refine ⟨pieces, hds, hlength, fun i line stop hi hsame => ?_⟩
  have hstop : '\r' ∉ stop := by
    intro hmem
    rw [← flatMap_endedLines cs] at hcs
    exact hcs (List.mem_flatMap.mpr ⟨_, List.mem_of_getElem? hi, List.mem_append_right _ hmem⟩)
  rw [hkept i line stop hi hsame, unifyLineEnds_of_not_mem hstop]
  rfl

/-- Lines that were put together again, some of them changed. -/
theorem keepsLines_joinLines {changed : Nat → Prop} {cs : List Char} {lines : List (List Char)}
    (hlength : lines.length = (splitLines (unifyLineEnds cs)).length)
    (hkept : ∀ i, ¬changed (i + 1) → lines[i]? = (splitLines (unifyLineEnds cs))[i]?) :
    KeepsLines changed unifyLineEnds cs (joinLines lines) := by
  rw [splitLines_unifyLineEnds] at hlength hkept
  rw [List.length_map] at hlength
  refine ⟨_, joinLines_eq_flatten (ended_endedLines cs) hlength, ?_, ?_⟩
  · rw [List.length_zipWith, hlength, Nat.min_self]
  · intro i line stop hi hsame
    have hline : lines[i]? = some line := by
      rw [hkept i hsame, List.getElem?_map, hi, Option.map_some]
    rw [List.getElem?_zipWith, hline, hi]

end Text

namespace Fix

/-- Groups of fixes leave the number of lines as it is, and every line that none of them is for. -/
theorem applyGroups_frame {lines lines' : List (List Char)} {groups : List (Int × List Fix)}
    (h : applyGroups lines groups = .ok lines') :
    lines'.length = lines.length ∧
      ∀ i, (∀ g ∈ groups, g.1.toNat - 1 ≠ i) → lines'[i]? = lines[i]? := by
  induction groups generalizing lines with
  | nil =>
    obtain rfl := Except.ok.inj h
    exact ⟨rfl, fun _ _ => rfl⟩
  | cons g groups ih =>
    rw [applyGroups] at h
    split at h
    · cases h
    · next line _ =>
      obtain ⟨hlength, hkept⟩ := ih h
      refine ⟨by rw [hlength, List.length_set], fun i hi => ?_⟩
      rw [List.forall_mem_cons] at hi
      rw [hkept i hi.2, List.getElem?_set_ne hi.1]

/-- Fixes are grouped under the lines that they name. -/
theorem exists_of_mem_byLine {n : Nat} {fixes : List Fix} {g : Int × List Fix}
    (h : g ∈ (byLine n fixes).entries) : 0 < g.1 ∧ ∃ f ∈ fixes, f.line = g.1 := by
  have hfold : ∀ (fs : List Fix) (t : Table Int (List Fix)),
      g ∈ (fs.foldl (fun t f => t.update f.line [] (· ++ [f])) t).entries →
        g.1 ∈ t.entries.map Prod.fst ∨ ∃ f ∈ fs, f.line = g.1 := by
    intro fs
    induction fs with
    | nil => exact fun t hg => Or.inl (List.mem_map_of_mem hg)
    | cons f fs ih =>
      intro t hg
      rcases ih _ hg with hkey | ⟨f', hf', hline⟩
      · obtain ⟨e, he, hkey⟩ := List.mem_map.mp hkey
        rcases Table.mem_of_mem_place he with rfl | he
        · exact Or.inr ⟨f, List.mem_cons_self, hkey⟩
        · exact Or.inl (hkey ▸ List.mem_map_of_mem he)
      · exact Or.inr ⟨f', List.mem_cons_of_mem _ hf', hline⟩
  rcases hfold _ _ h with hkey | ⟨f, hf, hline⟩
  · cases hkey
  · obtain ⟨hmem, hin⟩ := List.mem_filter.mp hf
    have hpos : 0 < f.line := (of_decide_eq_true hin).1
    exact ⟨hline ▸ hpos, f, hmem, hline⟩

end Fix

/-- Fixes leave the number of lines as it is, and every line that none of them names. -/
theorem applyFixes_frame {source fixed : List Char} {fixes : List Fix}
    (h : applyFixes source fixes = .ok fixed) :
    ∃ lines, fixed = Text.joinLines lines ∧ lines.length = (Text.splitLines source).length ∧
      ∀ i : Nat, (¬∃ f ∈ fixes, f.line = (i + 1 : Nat)) →
        lines[i]? = (Text.splitLines source)[i]? := by
  unfold applyFixes at h
  dsimp only at h
  split at h
  · cases h
  · next lines hgroups =>
    obtain ⟨hlength, hkept⟩ := Fix.applyGroups_frame hgroups
    refine ⟨lines, (Except.ok.inj h).symm, hlength, fun i hi => hkept i fun g hg heq => hi ?_⟩
    obtain ⟨hpos, f, hf, hline⟩ := Fix.exists_of_mem_byLine hg
    exact ⟨f, hf, by omega⟩

/-- Fixed texts keep the lines that no fix names, and have line feeds behind them. -/
theorem applyFixes_keepsLines {cs fixed : List Char} {fixes : List Fix}
    (h : applyFixes (Text.unifyLineEnds cs) fixes = .ok fixed) :
    Text.KeepsLines (fun n => ∃ f ∈ fixes, f.line = n) Text.unifyLineEnds cs fixed := by
  obtain ⟨lines, rfl, hlength, hkept⟩ := applyFixes_frame h
  exact Text.keepsLines_joinLines hlength hkept

end WidgetView
