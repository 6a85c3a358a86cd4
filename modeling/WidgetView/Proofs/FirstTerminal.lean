import WidgetView.Proofs.Patterns

/-!
# The first terminal that matches

The first terminal that matches, piece by piece. Terminals of a higher rank than the one at hand are
excluded by the first character, or else by what the scanner has already ruled out when it comes to
a class of lexemes.
-/
namespace WidgetView

namespace Scan

/-- A lexeme of a kind begins with a character and takes so many of the characters after it: the
sorts of lexemes, in the order in which the scanner tries them. -/
inductive Lexes (c : Char) (cs : List Char) : Kind → Nat → Prop where
  | delimiter (hd : isDelimiter c = true) : Lexes c cs .punct 0
  | string {m n : Nat} {raw : Bool} (hd : isDelimiter c = false)
      (hm : stringMark? c cs = some (m, raw)) (hn : stringLength raw (cs.drop m) = .ok n) :
      Lexes c cs .string (m + n)
  | quote {k : Kind} {n : Nat} (hm : stringMark? c cs = none) (hc : c = '\x27')
      (hn : quoteLength cs = .ok (k, n)) : Lexes c cs k n
  | number (hd : isDelimiter c = false) (hm : stringMark? c cs = none) (hc : c ≠ '\x27')
      (hg : c.isDigit = true) : Lexes c cs .number (numberLength cs)
  | ident (hd : isDelimiter c = false) (hm : stringMark? c cs = none) (hc : c ≠ '\x27')
      (hg : c.isDigit = false) (hi : isIdentStart c = true) : Lexes c cs .ident (identLength cs)
  | mark {n : Nat} (hd : isDelimiter c = false) (hm : stringMark? c cs = none) (hc : c ≠ '\x27')
      (hg : c.isDigit = false) (hi : isIdentStart c = false) (hn : markLength c cs = .ok n) :
      Lexes c cs .punct n

theorem lexemeLength_eq_ok {c : Char} {cs : List Char} {k : Kind} {n : Nat} :
    lexemeLength c cs = .ok (k, n) ↔ Lexes c cs k n := by
  constructor
  · intro h
    unfold lexemeLength at h
    split at h
    · next hd =>
      obtain ⟨rfl, rfl⟩ := Prod.mk.inj (Except.ok.inj h)
      exact .delimiter hd
    · next hd =>
      rw [Bool.not_eq_true] at hd
      split at h
      · next m raw hm =>
        cases hn : stringLength raw (cs.drop m) with
        | error e => simp [hn, Except.map] at h
        | ok x =>
          rw [hn] at h
          obtain ⟨rfl, rfl⟩ := Prod.mk.inj (Except.ok.inj h)
          exact .string hd hm hn
      · next hm =>
        split at h
        · next hc => exact .quote hm hc h
        · next hc =>
          split at h
          · next hg =>
            obtain ⟨rfl, rfl⟩ := Prod.mk.inj (Except.ok.inj h)
            exact .number hd hm hc hg
          · next hg =>
            rw [Bool.not_eq_true] at hg
            split at h
            · next hi =>
              obtain ⟨rfl, rfl⟩ := Prod.mk.inj (Except.ok.inj h)
              exact .ident hd hm hc hg hi
            · next hi =>
              rw [Bool.not_eq_true] at hi
              cases hn : markLength c cs with
              | error e => simp [hn, Except.map] at h
              | ok x =>
                rw [hn] at h
                obtain ⟨rfl, rfl⟩ := Prod.mk.inj (Except.ok.inj h)
                exact .mark hd hm hc hg hi hn
  · intro h
    cases h with
    | delimiter hd => simp [lexemeLength, hd]
    | string hd hm hn => simp [lexemeLength, hd, hm, hn, Except.map]
    | quote hm hc hn =>
      have hd : isDelimiter c = false := by
        rw [hc]
        decide
      rw [lexemeLength, hd, hm, hc]
      exact hn
    | number hd hm hc hg => simp [lexemeLength, hd, hm, hc, hg]
    | ident hd hm hc hg hi => simp [lexemeLength, hd, hm, hc, hg, hi]
    | mark hd hm hc hg hi hn => simp [lexemeLength, hd, hm, hc, hg, hi, hn, Except.map]

end Scan

namespace Terminal

open Pattern Scan

/-- The characters with which a text that a terminal takes can begin. -/
def starts (t : Terminal) (c : Char) : Bool :=
  match t with
  | lineComment | blockComment => c == '/'
  | string => c == '\x22' || c == 'b' || c == 'r'
  | char | lifetime => c == '\x27'
  | number => c.isDigit
  | ident => isIdentStart c
  | punct => c ∈ singleMarks
  | opening d => c == d.opening
  | closing d => c == d.closing
  | space => isBlank c

theorem fst_mem_singleMarks {c d : Char} (h : (c, d) ∈ doubleMarks) : c ∈ singleMarks := by
  have hall : ∀ m ∈ doubleMarks, m.1 ∈ singleMarks := by decide
  exact hall _ h

theorem markLength_error {c : Char} (h : c ∉ singleMarks) (cs : List Char) :
    markLength c cs = .error (.unexpectedChar c) := by
  cases cs with
  | nil => simp [markLength, h]
  | cons d ds =>
    have hd : (c, d) ∉ doubleMarks := fun hm => h (fst_mem_singleMarks hm)
    simp [markLength, h, hd]

theorem stringMark?_none {c : Char} (hq : c ≠ '\x22') (hb : c ≠ 'b') (hr : c ≠ 'r')
    (cs : List Char) : stringMark? c cs = none := by
  fun_cases stringMark? c cs <;> simp_all

theorem pattern_eq_none {t : Terminal} {c : Char} (h : t.starts c = false) (cs : List Char) :
    t.pattern (c :: cs) = none := by
  cases t with
  | lineComment => simp_all [starts, lineComment_pattern]
  | blockComment => simp_all [starts, blockComment_pattern]
  | string =>
    simp only [starts, Bool.or_eq_false_iff, beq_eq_false_iff_ne] at h
    simp [string_pattern, stringMark?_none h.1.1 h.1.2 h.2]
  | char => simp_all [starts, char_pattern]
  | lifetime => simp_all [starts, lifetime_pattern]
  | number => simp_all [starts, number_pattern]
  | ident => simp_all [starts, pattern, name_cons]
  | punct =>
    have hc : c ∉ singleMarks := by simpa [starts] using h
    simp [punct_pattern, markLength_error hc, Except.toOption]
  | opening d => simp_all [starts, pattern]
  | closing d => simp_all [starts, pattern]
  | space => simp_all [starts, space_pattern]

/-- The first terminal, when those of a higher rank do not match. -/
theorem first?_eq_some {cs : List Char} {t : Terminal} {n : Nat} (i : Nat)
    (hi : ranked = ranked.take i ++ t :: ranked.drop (i + 1))
    (hb : ∀ u ∈ ranked.take i, u.pattern cs = none) (ht : t.pattern cs = some (n + 1)) :
    first? cs = some (t, n) := by
  rw [first?, List.findSome?_eq_some_iff]
  refine ⟨ranked.take i, t, ranked.drop (i + 1), hi, ?_, ?_⟩
  · rw [ht]
  · intro u hu
    rw [hb u hu]

theorem first?_eq_none {cs : List Char} (h : ∀ u ∈ ranked, u.pattern cs = none) :
    first? cs = none := by
  rw [first?, List.findSome?_eq_none_iff]
  intro u hu
  rw [h u hu]

def ofKind : Kind → Terminal
  | .ident => ident
  | .punct => punct
  | .string => string
  | .char => char
  | .number => number
  | .lifetime => lifetime

/-- The terminal that takes a lexeme. Every delimiter has a terminal of its own. -/
def ofLexeme (l : Lexeme) : Terminal :=
  match l.opening?, l.closing? with
  | some d, _ => opening d
  | none, some d => closing d
  | none, none => ofKind l.kind

theorem ofLexeme_of_ne_punct {k : Kind} (hk : k ≠ .punct) (s : String) (sp : Span) :
    ofLexeme ⟨k, s, sp⟩ = ofKind k := by
  cases k <;> simp_all [ofLexeme, Lexeme.opening?, Lexeme.closing?]

theorem ofLexeme_mark {c : Char} (hc : isDelimiter c = false) (cs : List Char) (sp : Span) :
    ofLexeme ⟨.punct, String.ofList (c :: cs), sp⟩ = punct := by
  simp only [isDelimiter, Bool.or_eq_false_iff, Option.isSome_eq_false_iff,
    Option.isNone_iff_eq_none] at hc
  cases cs <;> simp [ofLexeme, Lexeme.opening?, Lexeme.closing?, hc, ofKind]

theorem isDropped_ofLexeme (l : Lexeme) : (ofLexeme l).isDropped = false := by
  unfold ofLexeme
  split
  · rfl
  · rfl
  · cases l.kind <;> rfl

theorem eq_of_isDelimiter {c : Char} (h : isDelimiter c = true) :
    (∃ d : Delimiter, d.opening = c) ∨ ∃ d : Delimiter, d.closing = c := by
  simp only [isDelimiter, Bool.or_eq_true, Option.isSome_iff_exists, Delimiter.ofOpening?,
    Delimiter.ofClosing?] at h
  rcases h with ⟨d, hd⟩ | ⟨d, hd⟩
  · exact .inl ⟨d, by simpa using List.find?_some hd⟩
  · exact .inr ⟨d, by simpa using List.find?_some hd⟩

/-- A delimiter begins one terminal only. -/
theorem first?_delimiter {c : Char} (h : isDelimiter c = true) (cs : List Char) (sp : Span) :
    first? (c :: cs) = some (ofLexeme ⟨.punct, String.ofList [c], sp⟩, 0) := by
  have hn (i : Nat) (hs : ∀ u ∈ ranked.take i, u.starts c = false) :
      ∀ u ∈ ranked.take i, u.pattern (c :: cs) = none := fun u hu => pattern_eq_none (hs u hu) cs
  rcases eq_of_isDelimiter h with ⟨d, rfl⟩ | ⟨d, rfl⟩
  · have ho : ofLexeme ⟨.punct, String.ofList [d.opening], sp⟩ = opening d := by
      simp [ofLexeme, Lexeme.opening?]
    rw [ho]
    cases d with
    | paren => exact first?_eq_some 8 rfl (hn 8 (by decide)) (by simp [pattern])
    | bracket => exact first?_eq_some 9 rfl (hn 9 (by decide)) (by simp [pattern])
    | brace => exact first?_eq_some 10 rfl (hn 10 (by decide)) (by simp [pattern])
  · have hc : Delimiter.ofOpening? d.closing = none := by cases d <;> rfl
    have ho : ofLexeme ⟨.punct, String.ofList [d.closing], sp⟩ = closing d := by
      simp [ofLexeme, Lexeme.opening?, Lexeme.closing?, hc]
    rw [ho]
    cases d with
    | paren => exact first?_eq_some 11 rfl (hn 11 (by decide)) (by simp [pattern])
    | bracket => exact first?_eq_some 12 rfl (hn 12 (by decide)) (by simp [pattern])
    | brace => exact first?_eq_some 13 rfl (hn 13 (by decide)) (by simp [pattern])

/-- What stands after a single quote decides between a character, a lifetime and a fault. -/
theorem name_of_quoteLength (cs : List Char) :
    match quoteLength cs with
    | .ok (.lifetime, n) => name cs = some n
    | .ok (k, _) => k = .char
    | .error _ => name cs = none := by
  have hbs : isIdentStart '\\' = false := by decide
  have hq : isIdentStart '\x27' = false := by decide
  fun_cases quoteLength cs with
  | case1 => rfl
  | case2 => simp [name_cons, hbs]
  | case3 => simp [name_cons, hq]
  | case4 => rfl
  | case5 c cs _ _ _ _ h => simp [name_cons, h, identLength]
  | case6 c cs _ _ _ _ h => simp [name_cons, h]
  | case7 => simp [name]

section

variable {c : Char} {cs : List Char} (hl : lineComment.pattern (c :: cs) = none)
  (hb : blockComment.pattern (c :: cs) = none)

include hl hb

theorem first?_string {m n : Nat} {raw : Bool} (hm : stringMark? c cs = some (m, raw))
    (hn : stringLength raw (cs.drop m) = .ok n) : first? (c :: cs) = some (string, m + n) := by
  refine first?_eq_some 2 rfl ?_ ?_
  · simpa [ranked] using ⟨hl, hb⟩
  · simp [string_pattern, hm, hn, Except.toOption]
    omega

variable (hm : stringMark? c cs = none)

include hm

theorem first?_quote {k : Kind} {n : Nat} (hc : c = '\x27') (hn : quoteLength cs = .ok (k, n)) :
    first? (c :: cs) = some (ofKind k, n) ∧ k ≠ .punct := by
  have hstr : string.pattern (c :: cs) = none := by simp [string_pattern, hm]
  have hq := name_of_quoteLength cs
  rw [hn] at hq
  by_cases hk : k = .lifetime
  · subst hk
    refine ⟨first?_eq_some 4 rfl ?_ ?_, by decide⟩
    · simpa [ranked, char_pattern, hn] using ⟨hl, hb, hstr⟩
    · simp only at hq
      simp [ofKind, lifetime_pattern, hc, hq, Nat.add_comm]
  · have hk : k = .char := by cases k <;> simp_all
    subst hk
    refine ⟨first?_eq_some 3 rfl ?_ ?_, by decide⟩
    · simpa [ranked] using ⟨hl, hb, hstr⟩
    · simp [ofKind, char_pattern, hc, hn, Nat.add_comm]

variable (hc : c ≠ '\x27')

include hc

theorem before_number {u : Terminal} (hu : u ∈ ranked.take 5) : u.pattern (c :: cs) = none := by
  have hstr : string.pattern (c :: cs) = none := by simp [string_pattern, hm]
  have hchar : char.pattern (c :: cs) = none := by simp [char_pattern, hc]
  have hlife : lifetime.pattern (c :: cs) = none := by simp [lifetime_pattern, hc]
  simp only [ranked, List.take_succ_cons, List.take_zero, List.mem_cons, List.not_mem_nil,
    or_false] at hu
  rcases hu with rfl | rfl | rfl | rfl | rfl <;> assumption

theorem first?_number (hd : c.isDigit = true) :
    first? (c :: cs) = some (number, numberLength cs) := by
  refine first?_eq_some 5 rfl (fun u hu => before_number hl hb hm hc hu) ?_
  simp [number_pattern, hd, Nat.add_comm]

variable (hd : c.isDigit = false)

include hd

theorem before_ident {u : Terminal} (hu : u ∈ ranked.take 6) : u.pattern (c :: cs) = none := by
  rw [List.take_add_one, List.mem_append] at hu
  rcases hu with hu | hu
  · exact before_number hl hb hm hc hu
  · have : u = number := by simpa [ranked] using hu
    simp [this, number_pattern, hd]

theorem first?_ident (hi : isIdentStart c = true) :
    first? (c :: cs) = some (ident, identLength cs) := by
  refine first?_eq_some 6 rfl (fun u hu => before_ident hl hb hm hc hd hu) ?_
  simp [pattern, name_cons, hi, Nat.add_comm]

variable (hi : isIdentStart c = false)

include hi

theorem before_mark {u : Terminal} (hu : u ∈ ranked.take 7) : u.pattern (c :: cs) = none := by
  rw [List.take_add_one, List.mem_append] at hu
  rcases hu with hu | hu
  · exact before_ident hl hb hm hc hd hu
  · have : u = ident := by simpa [ranked] using hu
    simp [this, pattern, name_cons, hi]

theorem first?_mark {n : Nat} (hn : markLength c cs = .ok n) :
    first? (c :: cs) = some (punct, n) := by
  refine first?_eq_some 7 rfl (fun u hu => before_mark hl hb hm hc hd hi hu) ?_
  simp [punct_pattern, hn, Except.toOption, Nat.add_comm]

end

/-- The first terminal takes what the scanner takes. -/
theorem first?_lexeme {c : Char} {cs : List Char} {k : Kind} {n : Nat}
    (hl : lineComment.pattern (c :: cs) = none) (hb : blockComment.pattern (c :: cs) = none)
    (h : lexemeLength c cs = .ok (k, n)) (sp : Span) :
    first? (c :: cs) = some (ofLexeme ⟨k, String.ofList (c :: cs.take n), sp⟩, n) := by
  cases lexemeLength_eq_ok.mp h with
  | delimiter hd => simpa using first?_delimiter hd cs sp
  | string hd hm hn =>
    rw [ofLexeme_of_ne_punct (by decide)]
    exact first?_string hl hb hm hn
  | quote hm hc hn =>
    obtain ⟨hf, hk⟩ := first?_quote hl hb hm hc hn
    rw [ofLexeme_of_ne_punct hk]
    exact hf
  | number hd hm hc hg =>
    rw [ofLexeme_of_ne_punct (by decide)]
    exact first?_number hl hb hm hc hg
  | ident hd hm hc hg hi =>
    rw [ofLexeme_of_ne_punct (by decide)]
    exact first?_ident hl hb hm hc hg hi
  | mark hd hm hc hg hi hn =>
    rw [ofLexeme_mark hd]
    exact first?_mark hl hb hm hc hg hi hn

theorem first?_blank {c : Char} (h : isBlank c = true) (cs : List Char) :
    first? (c :: cs) = some (space, (cs.takeWhile isBlank).length) := by
  have hc : c ∈ [' ', '\t', '\r', '\n'] := by simpa [isBlank, or_assoc] using h
  have hs : ∀ u ∈ ranked.take 14, u.starts c = false := by
    simp only [List.mem_cons, List.not_mem_nil, or_false] at hc
    rcases hc with rfl | rfl | rfl | rfl <;> decide
  refine first?_eq_some 14 rfl (fun u hu => pattern_eq_none (hs u hu) cs) ?_
  simp [space_pattern, h, Nat.add_comm]

end Terminal

end WidgetView
