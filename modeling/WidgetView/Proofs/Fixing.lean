import WidgetView.Fix.Apply
import WidgetView.Proofs.Provenance
import WidgetView.Proofs.Templates
import WidgetView.Validate

/-!
# What a fix does

What a fix does to a source. It replaces the first whole word on its line that equals its old text.
Where this word is the name that the diagnostic is about, the token trees change in this name and
nothing else.
-/
namespace WidgetView

namespace Text

/-- A word stands at a position of a line, between two boundaries. -/
def WordAt (word line : List Char) (i : Nat) : Prop :=
  i ≤ line.length ∧ word <+: line.drop i ∧
    isBoundary (line.take i).getLast? (line.drop i).head? = true ∧
    isBoundary (line.take (i + word.length)).getLast? (line.drop (i + word.length)).head? = true

instance (word line : List Char) (i : Nat) : Decidable (WordAt word line i) :=
  inferInstanceAs (Decidable (_ ∧ _ ∧ _ ∧ _))

/-- The first position of a line where a word stands. -/
def FirstWordAt (word line : List Char) (i : Nat) : Prop :=
  WordAt word line i ∧ ∀ j < i, ¬ WordAt word line j

/-- Where a word stands, by what is in front of it and what is behind it. -/
theorem wordAt_iff {word line : List Char} {i : Nat} :
    WordAt word line i ↔ ∃ front back, line = front ++ (word ++ back) ∧ front.length = i ∧
      isBoundary front.getLast? (word ++ back).head? = true ∧
      isBoundary (front ++ word).getLast? back.head? = true := by
  constructor
  · rintro ⟨hi, ⟨back, hback⟩, hb, hb'⟩
    have hline : line.take i ++ (word ++ back) = line := by
      rw [hback, List.take_append_drop]
    have hlen : (line.take i).length = i := List.length_take_of_le hi
    have hall : (line.take i ++ word).length = i + word.length := by rw [List.length_append, hlen]
    refine ⟨line.take i, back, hline.symm, hlen, ?_, ?_⟩
    · rw [hback]
      exact hb
    · rw [← hline, ← List.append_assoc, ← hall, List.take_left, List.drop_left] at hb'
      exact hb'
  · rintro ⟨front, back, rfl, rfl, hb, hb'⟩
    have hall : (front ++ word).length = front.length + word.length := List.length_append
    refine ⟨by simp, ⟨back, by simp⟩, ?_, ?_⟩
    · rw [List.take_left, List.drop_left]
      exact hb
    · rw [← List.append_assoc, ← hall, List.take_left, List.drop_left]
      exact hb'

/-- A word stands right behind what has been passed. -/
theorem wordAt_here {word front rest : List Char} :
    WordAt word (front ++ rest) front.length ↔ isBoundary front.getLast? rest.head? = true ∧
      word <+: rest ∧
      isBoundary (word.getLast?.or front.getLast?) (rest.drop word.length).head? = true := by
  constructor
  · intro h
    obtain ⟨front', back, he, hlen, hb, hb'⟩ := wordAt_iff.mp h
    obtain ⟨rfl, rfl⟩ := List.append_inj he hlen.symm
    rw [List.getLast?_append] at hb'
    rw [List.drop_left]
    exact ⟨hb, List.prefix_append _ _, hb'⟩
  · rintro ⟨hb, ⟨back, rfl⟩, hb'⟩
    rw [List.drop_left] at hb'
    exact wordAt_iff.mpr ⟨front, back, rfl, rfl, hb, by rwa [List.getLast?_append]⟩

/-- The search for a word stops where the word stands, and else goes on behind the next character.
`front` is the part of the line that has been passed. -/
theorem splitAtWord?_here {word front rest : List Char}
    (h : WordAt word (front ++ rest) front.length) :
    splitAtWord? word front.getLast? rest = some ([], rest.drop word.length) := by
  obtain ⟨hb, hpre, hb'⟩ := wordAt_here.mp h
  cases rest with
  | nil =>
    obtain rfl := List.prefix_nil.mp hpre
    exact if_pos ⟨rfl, hb⟩
  | cons c rest => exact if_pos ⟨hb, hpre, hb'⟩

theorem splitAtWord?_cons {word front rest : List Char} {c : Char}
    (h : ¬ WordAt word (front ++ c :: rest) front.length) :
    splitAtWord? word front.getLast? (c :: rest) =
      (splitAtWord? word (front ++ [c]).getLast? rest).map fun r => (c :: r.1, r.2) := by
  rw [wordAt_here] at h
  rw [List.getLast?_concat]
  exact if_neg h

/-- A line is split at the first place where a word stands. -/
theorem splitAtWord?_first {word : List Char} (front rest : List Char) {i : Nat}
    (hle : front.length ≤ i) (hat : WordAt word (front ++ rest) i)
    (hfirst : ∀ j, front.length ≤ j → j < i → ¬ WordAt word (front ++ rest) j) :
    splitAtWord? word front.getLast? rest =
      some (rest.take (i - front.length), rest.drop (i - front.length + word.length)) := by
  induction rest generalizing front with
  | nil =>
    obtain rfl : i = front.length := by
      have hi := hat.1
      simp only [List.append_nil] at hi
      omega
    simpa using splitAtWord?_here hat
  | cons c rest ih =>
    by_cases hi : i = front.length
    · subst hi
      simpa using splitAtWord?_here hat
    · have hlength : (front ++ [c]).length = front.length + 1 := by simp
      have hmore : i - front.length = i - (front ++ [c]).length + 1 := by omega
      have hstep := ih (front ++ [c]) (by omega) (by simpa using hat)
        (fun j hj hlt => by simpa using hfirst j (by omega) hlt)
      rw [splitAtWord?_cons (hfirst _ (Nat.le_refl _) (by omega)), hstep, hmore, Nat.add_right_comm]
      rfl

theorem splitAtWord?_none {word : List Char} (front rest : List Char)
    (h : ∀ j, front.length ≤ j → ¬ WordAt word (front ++ rest) j) :
    splitAtWord? word front.getLast? rest = none := by
  have hhere := h front.length (Nat.le_refl _)
  induction rest generalizing front with
  | nil =>
    rw [wordAt_here] at hhere
    refine if_neg fun ⟨hw, hb⟩ => hhere ?_
    subst hw
    exact ⟨hb, List.prefix_refl _, hb⟩
  | cons c rest ih =>
    have hnext : ∀ j, (front ++ [c]).length ≤ j → ¬ WordAt word (front ++ [c] ++ rest) j := by
      intro j hj
      rw [List.length_append] at hj
      simpa using h j (by omega)
    rw [splitAtWord?_cons hhere, ih (front ++ [c]) hnext (hnext _ (Nat.le_refl _))]
    rfl

theorem splitLines_cons_of_ne {c : Char} {cs line : List Char} {lines : List (List Char)}
    (hc : c ≠ '\n') (h : splitLines cs = line :: lines) :
    splitLines (c :: cs) = (c :: line) :: lines := by
  rw [splitLines, if_neg hc, h]

theorem splitLines_nil_eq {p : List Char} {before : List (List Char)}
    (h : splitLines [] = before ++ [p]) : before = [] ∧ p = [] := by
  cases before with
  | nil => exact ⟨rfl, (List.cons.inj h).1.symm⟩
  | cons l before => simp [splitLines] at h

/-- The lines of a text with one more character in front: a line feed adds a line, any other
character belongs to the first line, which may be the last one too. -/
theorem splitLines_cons_eq {c : Char} {cs p : List Char} {before : List (List Char)}
    (h : splitLines (c :: cs) = before ++ [p]) :
    (c = '\n' ∧ ∃ more, before = [] :: more ∧ splitLines cs = more ++ [p]) ∨
    (c ≠ '\n' ∧ ∃ q, before = [] ∧ p = c :: q ∧ splitLines cs = [] ++ [q]) ∨
    (c ≠ '\n' ∧ ∃ line more, before = (c :: line) :: more ∧
      splitLines cs = (line :: more) ++ [p]) := by
  by_cases hc : c = '\n'
  · rw [splitLines, if_pos hc] at h
    cases before with
    | nil =>
      obtain ⟨-, hnil⟩ := List.cons.inj h
      exact absurd hnil (splitLines_ne_nil cs)
    | cons l before =>
      obtain ⟨rfl, hrest⟩ := List.cons.inj h
      exact Or.inl ⟨hc, before, rfl, hrest⟩
  · obtain ⟨line, lines, hs⟩ := List.exists_cons_of_ne_nil (splitLines_ne_nil cs)
    rw [splitLines_cons_of_ne hc hs] at h
    cases before with
    | nil =>
      obtain ⟨rfl, rfl⟩ := List.cons.inj h
      exact Or.inr (Or.inl ⟨hc, line, rfl, rfl, hs⟩)
    | cons l before =>
      obtain ⟨rfl, rfl⟩ := List.cons.inj h
      exact Or.inr (Or.inr ⟨hc, line, before, rfl, hs⟩)

/-- A text before a text: the last line of the first and the first line of the second are one. -/
theorem splitLines_append {xs ys p q : List Char} {before after : List (List Char)}
    (hx : splitLines xs = before ++ [p]) (hy : splitLines ys = q :: after) :
    splitLines (xs ++ ys) = before ++ (p ++ q) :: after := by
  induction xs generalizing before p with
  | nil =>
    obtain ⟨rfl, rfl⟩ := splitLines_nil_eq hx
    exact hy
  | cons c xs ih =>
    rcases splitLines_cons_eq hx with ⟨rfl, more, rfl, hs⟩ | ⟨hc, r, rfl, rfl, hs⟩ |
      ⟨hc, line, more, rfl, hs⟩
    · rw [List.cons_append, splitLines, if_pos rfl, ih hs]
      rfl
    · exact splitLines_cons_of_ne hc (ih hs)
    · exact splitLines_cons_of_ne hc (ih hs)

theorem splitLines_of_not_mem {cs : List Char} (h : '\n' ∉ cs) : splitLines cs = [cs] := by
  induction cs with
  | nil => rfl
  | cons c cs ih =>
    have hc : c ≠ '\n' := fun he => h (he ▸ List.mem_cons_self)
    have hcs : '\n' ∉ cs := fun hm => h (List.mem_cons_of_mem _ hm)
    rw [splitLines, if_neg hc, ih hcs]

/-- A word without a line feed stands in one line of a text. -/
theorem splitLines_around {xs word ys p q : List Char} {before after : List (List Char)}
    (hx : splitLines xs = before ++ [p]) (hw : '\n' ∉ word) (hy : splitLines ys = q :: after) :
    splitLines (xs ++ (word ++ ys)) = before ++ (p ++ (word ++ q)) :: after := by
  have hline : splitLines word = [] ++ [word] := splitLines_of_not_mem hw
  have hword : splitLines (word ++ ys) = (word ++ q) :: after := splitLines_append hline hy
  exact splitLines_append hx hword

/-- The place after a text is in its last line, just behind it. -/
theorem after_splitLines {xs p : List Char} {before : List (List Char)}
    (hx : splitLines xs = before ++ [p]) (start : Place) :
    (start.after xs).line = start.line + before.length ∧
      (start.after xs).column = if before = [] then start.column + p.length else p.length + 1 := by
  induction xs generalizing before p start with
  | nil =>
    obtain ⟨rfl, rfl⟩ := splitLines_nil_eq hx
    simp
  | cons c xs ih =>
    rw [Place.after_cons]
    rcases splitLines_cons_eq hx with ⟨rfl, more, rfl, hs⟩ | ⟨hc, r, rfl, rfl, hs⟩ |
      ⟨hc, line, more, rfl, hs⟩
    · obtain ⟨hline, hcolumn⟩ := ih hs (start.next '\n')
      simp only [Place.next, if_true] at hline hcolumn ⊢
      refine ⟨by rw [hline, List.length_cons]; omega, ?_⟩
      rw [hcolumn]
      by_cases hb : more = [] <;> simp [hb, Nat.add_comm]
    · obtain ⟨hline, hcolumn⟩ := ih hs (start.next c)
      simp only [Place.next, hc, if_false, if_true] at hline hcolumn ⊢
      refine ⟨hline, ?_⟩
      rw [hcolumn, List.length_cons]
      omega
    · obtain ⟨hline, hcolumn⟩ := ih hs (start.next c)
      simp only [Place.next, hc, if_false] at hline hcolumn ⊢
      exact ⟨hline, hcolumn⟩

/-- No word character ends a text. -/
def OpenEnd (cs : List Char) : Prop := (cs.getLast?.map isWord).getD false = false

/-- No word character begins a text. -/
def OpenStart (cs : List Char) : Prop := (cs.head?.map isWord).getD false = false

theorem openEnd_lastLine {xs p : List Char} {before : List (List Char)}
    (hx : splitLines xs = before ++ [p]) (ho : xs = [] ∨ Scan.EndsOutside xs) : OpenEnd p := by
  have hlast : (splitLines xs).getLast? = some p := by rw [hx, List.getLast?_concat]
  rcases ho with rfl | ⟨front, d, rfl, hd⟩
  · obtain rfl : [] = p := Option.some.inj hlast
    rfl
  · obtain ⟨b, l, hf⟩ : ∃ b l, splitLines front = b ++ [l] :=
      ⟨_, _, (List.dropLast_append_getLast (splitLines_ne_nil front)).symm⟩
    by_cases hn : d = '\n'
    · subst hn
      have hend : splitLines ['\n'] = [] :: [[]] := rfl
      rw [splitLines_append hf hend, List.getLast?_append] at hlast
      obtain rfl : [] = p := Option.some.inj hlast
      rfl
    · have hend : splitLines [d] = [d] :: [] := splitLines_cons_of_ne hn rfl
      rw [splitLines_append hf hend, List.getLast?_concat] at hlast
      obtain rfl : l ++ [d] = p := Option.some.inj hlast
      rw [OpenEnd, List.getLast?_concat]
      exact hd

theorem openStart_firstLine {ys q : List Char} {after : List (List Char)}
    (hy : splitLines ys = q :: after) (ho : ∀ d ∈ ys.head?, isWord d = false) : OpenStart q := by
  cases ys with
  | nil =>
    obtain ⟨rfl, -⟩ := List.cons.inj hy
    rfl
  | cons c ys =>
    rw [splitLines] at hy
    split at hy
    · obtain ⟨rfl, -⟩ := List.cons.inj hy
      rfl
    · cases hs : splitLines ys with
      | nil => exact absurd hs (splitLines_ne_nil ys)
      | cons line lines =>
        rw [hs] at hy
        obtain ⟨rfl, -⟩ := List.cons.inj hy
        exact ho c rfl

/-- A name that touches no word character stands as a word. -/
theorem wordAt_of_isName {word p q : List Char} (h : Scan.IsName word) (hp : OpenEnd p)
    (hq : OpenStart q) : WordAt word (p ++ (word ++ q)) p.length := by
  have hne := h.ne_nil
  refine wordAt_iff.mpr ⟨p, q, rfl, rfl, ?_, ?_⟩
  · rw [isBoundary, hp, List.head?_append_of_ne_nil _ hne, List.head?_eq_some_head hne,
      Option.map_some, h.isWord _ (List.head_mem hne)]
    rfl
  · rw [isBoundary, hq, List.getLast?_append_of_ne_nil _ hne, List.getLast?_eq_some_getLast hne,
      Option.map_some, h.isWord _ (List.getLast_mem hne)]
    rfl

end Text

theorem Text.getD_middle {α : Type} (before after : List α) (a d : α) :
    (before ++ a :: after).getD before.length d = a := by simp

theorem Text.set_middle {α : Type} (before after : List α) (a b : α) :
    (before ++ a :: after).set before.length b = before ++ b :: after := by simp

/-- The line of a text that a number counts. -/
def Text.lineAt (source : List Char) (n : Nat) : List Char := (splitLines source).getD (n - 1) []

/-- What a fix makes of a line with its word on it. -/
theorem Fix.applyToLine_first {f : Fix} {ps : List Template.Piece} {line : List Char} {i : Nat}
    (hps : Template.parse f.newText = .ok ps) (hi : Text.FirstWordAt f.oldText.toList line i) :
    f.applyToLine line = .ok (line.take i ++ Template.expand f.oldText.toList ps ++
      line.drop (i + f.oldText.toList.length)) := by
  have hsplit := Text.splitAtWord?_first [] line (Nat.zero_le i) hi.1 fun j _ hj => hi.2 j hj
  simp only [List.length_nil, Nat.sub_zero, List.getLast?_nil] at hsplit
  simp only [applyToLine, hps, hsplit]

/-- One fix changes its line and no other. -/
theorem applyFixes_one {source : List Char} {f : Fix} {n : Nat} (hl : f.line = n + 1)
    (hn : n < (Text.splitLines source).length) :
    applyFixes source [f] = (f.applyToLine (Text.lineAt source (n + 1))).map fun line =>
      Text.joinLines ((Text.splitLines source).set n line) := by
  have hgroups : (Fix.byLine (Text.splitLines source).length [f]).entries = [(f.line, [f])] := by
    have hin : 0 < f.line ∧ f.line ≤ ((Text.splitLines source).length : Int) := by omega
    simp [Fix.byLine, hin, Table.update, Table.insert, Table.get?, Table.place]
  have hindex : f.line.toNat - 1 = n := by omega
  simp only [applyFixes, hgroups, Fix.applyGroups, hindex, Fix.applyAllToLine, Text.lineAt,
    Nat.add_sub_cancel]
  cases f.applyToLine ((Text.splitLines source).getD n []) <;> rfl

/-- A fix for a name puts its new text in the place of the name, where the name is the first word on
its line that equals the old text. -/
theorem Spot.applyFixes_eq {source before after : List Char} {l : Lexeme} {f : Fix}
    (h : Spot source l before after) (ho : f.oldText = l.text) (hl : f.line = l.span.line)
    (hn : Scan.IsName f.newText.toList)
    (hfirst : ∀ i < l.span.column - 1,
      ¬ Text.WordAt l.text.toList (Text.lineAt source l.span.line) i) :
    applyFixes source [f] = .ok (before ++ (f.newText.toList ++ after)) := by
  obtain ⟨lines, p, hp⟩ : ∃ lines p, Text.splitLines before = lines ++ [p] :=
    ⟨_, _, (List.dropLast_append_getLast (Text.splitLines_ne_nil before)).symm⟩
  obtain ⟨q, more, hq⟩ := List.exists_cons_of_ne_nil (Text.splitLines_ne_nil after)
  obtain ⟨hline, hcolumn⟩ := Text.after_splitLines hp {}
  have hcol : l.span.column = p.length + 1 := by
    rw [h.column, hcolumn]
    by_cases hb : lines = [] <;> simp [hb, Nat.add_comm]
  have hnum : l.span.line = lines.length + 1 := by
    rw [h.line, hline, Nat.add_comm]
  have hsplit : Text.splitLines source = lines ++ (p ++ (l.text.toList ++ q)) :: more := by
    rw [h.split]
    exact Text.splitLines_around hp (h.name.not_mem (by decide)) hq
  have hat : Text.lineAt source l.span.line = p ++ (l.text.toList ++ q) := by
    rw [Text.lineAt, hsplit, hnum, Nat.add_sub_cancel, Text.getD_middle]
  have hword := Text.wordAt_of_isName h.name (Text.openEnd_lastLine hp h.outside)
    (Text.openStart_firstLine hq h.ends)
  have hfound : Text.FirstWordAt f.oldText.toList
      (Text.lineAt source (lines.length + 1)) p.length := by
    rw [ho, ← hnum]
    refine ⟨by rwa [hat], fun j hj => hfirst j ?_⟩
    rwa [hcol, Nat.add_sub_cancel]
  obtain ⟨ps, hparse, hexpand⟩ :=
    Template.parse_inert (Template.isInert_of_not_mem (hn.not_mem (by decide)))
  -- the fixed text has the lines of the source but for one, so joining them gives it back
  rw [applyFixes_one (n := lines.length) (by rw [hl, hnum]; rfl) (by simp [hsplit]),
    Fix.applyToLine_first hparse hfound, hexpand, ho, ← hnum, hat, hsplit]
  have hlines := Text.splitLines_around hp (hn.not_mem (by decide)) hq
  have hback : (p ++ (l.text.toList ++ q)).drop (p.length + l.text.toList.length) = q := by simp
  simp only [Except.map, List.take_left, hback, Text.set_middle, List.append_assoc, ← hlines,
    Text.joinLines_splitLines]

end WidgetView
