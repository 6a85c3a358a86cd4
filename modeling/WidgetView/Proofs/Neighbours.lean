import WidgetView.Proofs.Layout

/-!
# Lexemes and what follows them

A lexeme with another text behind it. The scanner looks at one character behind a lexeme, and at two
behind a number. So it finds the same lexeme where a blank, a delimiter or nothing follows, and
where the text goes on as it did before.
-/
namespace WidgetView

namespace Scan

/-- A character that is no part of any lexeme of several characters but of strings and of characters
in quotes. -/
def isBound (c : Char) : Bool := isBlank c || isDelimiter c

/-- A text that ends the lexeme in front of it: it is empty, or starts with a blank or a
delimiter. -/
def Bounded (cs : List Char) : Prop := ∀ c ∈ cs.head?, isBound c = true

/-- What follows a lexeme in one text and in another. Either the second one ends the lexeme, or both
go on with the same character, and behind it again either the second one ends or the characters are
the same. -/
def Continues (rest rest' : List Char) : Prop :=
  Bounded rest' ∨ ∃ c r r', rest = c :: r ∧ rest' = c :: r' ∧ (Bounded r' ∨ r'.head? = r.head?)

theorem bounded_nil : Bounded [] := by simp [Bounded]

theorem bounded_cons {c : Char} (h : isBound c = true) (cs : List Char) : Bounded (c :: cs) := by
  intro d hd
  obtain rfl : c = d := Option.some.inj hd
  exact h

theorem Bounded.append {cs ds : List Char} (h : Bounded cs) (h' : Bounded ds) :
    Bounded (cs ++ ds) := by
  cases cs with
  | nil => exact h'
  | cons c cs => exact bounded_cons (h c rfl) _

section

variable {rest rest' : List Char}

theorem Continues.head (h : Continues rest rest') : Bounded rest' ∨ rest'.head? = rest.head? := by
  rcases h with h | ⟨c, r, r', rfl, rfl, -⟩
  · exact .inl h
  · exact .inr rfl

theorem Continues.append (h : Continues rest rest') (cs : List Char) :
    Continues (cs ++ rest) (cs ++ rest') := by
  match cs with
  | [] => exact h
  | [c] => exact .inr ⟨c, rest, rest', rfl, rfl, h.head⟩
  | c :: d :: cs => exact .inr ⟨c, d :: cs ++ rest, d :: cs ++ rest', rfl, rfl, .inr rfl⟩

/-- A character that ends no lexeme stands in the second text only if it stands in the first. -/
theorem Continues.cons {c : Char} {r' : List Char} (h : Continues rest (c :: r'))
    (hc : isBound c = false) : ∃ r, rest = c :: r ∧ (Bounded r' ∨ r'.head? = r.head?) := by
  rcases h with h | ⟨d, r, s, rfl, he, hr⟩
  · have hbound := h c rfl
    rw [hc] at hbound
    cases hbound
  · obtain ⟨rfl, rfl⟩ := List.cons.inj he
    exact ⟨r, rfl, hr⟩

theorem Continues.cons_cons {c d : Char} {r' : List Char} (h : Continues rest (c :: d :: r'))
    (hc : isBound c = false) (hd : isBound d = false) : ∃ r, rest = c :: d :: r := by
  obtain ⟨r, rfl, hr⟩ := h.cons hc
  rcases hr with hr | hr
  · have hbound := hr d rfl
    rw [hd] at hbound
    cases hbound
  · obtain ⟨r, rfl⟩ : ∃ s, r = d :: s := by
      cases r with
      | nil => cases hr
      | cons e s => exact ⟨s, by rw [Option.some.inj hr]⟩
    exact ⟨r, rfl⟩

/-! ### Characters that end no lexeme -/

theorem not_isBound_of_isIdentChar {c : Char} (h : isIdentChar c = true) : isBound c = false := by
  have hword := isWord_of_isIdentChar h
  have hblank : isBlank c = false := by
    cases hb : isBlank c with
    | false => rfl
    | true =>
      rcases isBlank_iff.mp hb with rfl | rfl | rfl | rfl <;> exact absurd h (by decide)
  have hdelim : isDelimiter c = false := by
    cases hd : isDelimiter c with
    | false => rfl
    | true =>
      rw [not_isWord_of_isDelimiter hd] at hword
      cases hword
  simp [isBound, hblank, hdelim]

theorem not_isBound_of_mem_doubleMarks {c d : Char} (h : (c, d) ∈ doubleMarks) :
    isBound d = false := by
  have hall : ∀ m ∈ doubleMarks, isBound m.2 = false := by decide
  exact hall _ h

/-! ### Each sort of lexeme -/

theorem takeWhile_eq_length {p : Char → Bool} {cs rest : List Char}
    (h : ((cs ++ rest).takeWhile p).length = cs.length) :
    (∀ c ∈ cs, p c = true) ∧ ∀ c ∈ rest.head?, p c = false := by
  induction cs with
  | nil =>
    refine ⟨by simp, fun c hc => ?_⟩
    cases rest with
    | nil => cases hc
    | cons d rest =>
      obtain rfl : d = c := Option.some.inj hc
      cases hd : p d with
      | false => rfl
      | true => simp [hd] at h
  | cons d cs ih =>
    cases hd : p d with
    | false => simp [hd] at h
    | true =>
      obtain ⟨hcs, hrest⟩ := ih (by simpa [hd] using h)
      exact ⟨List.forall_mem_cons.mpr ⟨hd, hcs⟩, hrest⟩

/-- A run of name characters ends at the same place. -/
theorem identLength_continues (hc : Continues rest rest') {cs : List Char}
    (h : identLength (cs ++ rest) = cs.length) : identLength (cs ++ rest') = cs.length := by
  obtain ⟨hcs, hrest⟩ := takeWhile_eq_length h
  refine identLength_name hcs fun c hhead => ?_
  cases hi : isIdentChar c with
  | false => rfl
  | true =>
    obtain ⟨r', rfl⟩ : ∃ r', rest' = c :: r' := by
      cases rest' with
      | nil => cases hhead
      | cons d r' => exact ⟨r', by rw [Option.some.inj hhead]⟩
    obtain ⟨r, rfl, -⟩ := hc.cons (not_isBound_of_isIdentChar hi)
    rw [hrest c rfl] at hi
    cases hi

theorem stringMark?_continues (hc : Continues rest rest') {c : Char}
    (h : stringMark? c rest = none) : stringMark? c rest' = none := by
  rw [Option.eq_none_iff_forall_ne_some]
  rintro ⟨m, raw⟩ hs
  rcases stringMark?_eq_some_iff.mp hs with ⟨rfl, -⟩ | ⟨ds, rfl, rfl, -⟩ | ⟨ds, rfl, rfl, -⟩ |
    ⟨ds, rfl, rfl, -⟩
  · cases h
  · obtain ⟨r, rfl, -⟩ := hc.cons (by decide)
    cases h
  · obtain ⟨r, rfl, -⟩ := hc.cons (by decide)
    cases h
  · obtain ⟨r, rfl⟩ := hc.cons_cons (by decide) (by decide)
    cases h

theorem quoteLength_continues (hc : Continues rest rest') {cs : List Char} {k : Kind}
    (h : quoteLength (cs ++ rest) = .ok (k, cs.length)) :
    quoteLength (cs ++ rest') = .ok (k, cs.length) := by
  rcases quoteLength_eq_ok h with ⟨c, more, he, rfl, hlen⟩ | ⟨c, more, he, hb, hq, rfl, hlen⟩ |
    ⟨c, more, he, hs, hno, rfl, hlen⟩
  · obtain ⟨a, b, e, rfl⟩ := List.length_eq_three.mp hlen
    obtain ⟨rfl, rfl, rfl, -⟩ : a = '\\' ∧ b = c ∧ e = '\x27' ∧ rest = more := by simpa using he
    rfl
  · obtain ⟨a, b, rfl⟩ := List.length_eq_two.mp hlen
    obtain ⟨rfl, rfl, -⟩ : a = c ∧ b = '\x27' ∧ rest = more := by simpa using he
    rw [List.cons_append, List.cons_append, quoteLength]
    · rfl
    · exact fun _ hc => absurd hc hb
    · exact hb
    · exact hq
  · cases cs with
    | nil =>
      simp only [List.length_nil] at hlen
      omega
    | cons a cs =>
      obtain ⟨rfl, rfl⟩ : a = c ∧ cs ++ rest = more := by simpa using he
      have hlength : identLength (cs ++ rest) = cs.length := by
        simp only [List.length_cons] at hlen
        omega
      have hno' : ∀ ds, cs ++ rest' ≠ '\x27' :: ds := by
        intro ds hds
        have hcs := hc.append cs
        rw [hds] at hcs
        obtain ⟨r, hr, -⟩ := hcs.cons (by decide)
        exact hno r hr
      rw [List.cons_append, quoteLength_lifetime hs hno', identLength_continues hc hlength,
        List.length_cons, Nat.add_comm]

theorem numberLength_fraction {front ds : List Char} {d : Char} (hd : d.isDigit = true)
    (h : identLength (front ++ '.' :: d :: ds) = front.length) :
    numberLength (front ++ '.' :: d :: ds) = front.length + 2 + identLength ds := by
  simp [numberLength, h, hd]

theorem numberLength_whole {front rest : List Char}
    (h : identLength (front ++ rest) = front.length)
    (hno : ∀ d ds, rest = '.' :: d :: ds → d.isDigit = false) :
    numberLength (front ++ rest) = front.length := by
  rw [numberLength, h, List.drop_left]
  split
  · next d ds => rw [if_neg (by simp [hno d ds rfl])]
  · rfl

theorem numberLength_continues (hc : Continues rest rest') {cs : List Char}
    (h : numberLength (cs ++ rest) = cs.length) : numberLength (cs ++ rest') = cs.length := by
  have hle := identLength_le_numberLength (cs ++ rest)
  obtain ⟨front, more, rfl, hfront⟩ : ∃ front more, cs = front ++ more ∧
      front.length = identLength (cs ++ rest) :=
    ⟨cs.take (identLength (cs ++ rest)), cs.drop (identLength (cs ++ rest)),
      (List.take_append_drop _ _).symm, by rw [List.length_take]; omega⟩
  have hident : identLength (front ++ (more ++ rest)) = front.length := by
    rw [← List.append_assoc, hfront]
  have hident' := identLength_continues (hc.append more) hident
  rw [List.append_assoc, List.length_append] at h ⊢
  by_cases hfraction : ∃ d ds, more ++ rest = '.' :: d :: ds ∧ d.isDigit = true
  · obtain ⟨d, ds, hsplit, hd⟩ := hfraction
    rw [hsplit] at h hident
    rw [numberLength_fraction hd hident] at h
    -- the point and the digit behind it are part of the number already
    match more with
    | [] | [_] =>
      simp only [List.length_nil, List.length_singleton] at h
      omega
    | a :: b :: more =>
      obtain ⟨rfl, rfl, rfl⟩ : a = '.' ∧ b = d ∧ more ++ rest = ds := by simpa using hsplit
      simp only [List.length_cons] at h
      have hlast : identLength (more ++ rest) = more.length := by omega
      rw [List.cons_append, List.cons_append] at hident' ⊢
      rw [numberLength_fraction hd hident', identLength_continues hc hlast]
      simp only [List.length_cons]
      omega
  · have hwhole := numberLength_whole hident fun d ds he => by
      cases hd : d.isDigit with
      | false => rfl
      | true => exact absurd ⟨d, ds, he, hd⟩ hfraction
    obtain rfl := List.eq_nil_of_length_eq_zero (l := more) (by omega)
    refine numberLength_whole hident' fun d ds he => ?_
    cases hd : d.isDigit with
    | false => rfl
    | true =>
      obtain ⟨r, rfl⟩ := (he ▸ hc : Continues rest ('.' :: d :: ds)).cons_cons (by decide)
        (not_isBound_of_isIdentChar (by simp [isIdentChar, hd]))
      exact absurd ⟨d, r, rfl, hd⟩ hfraction

theorem markLength_continues (hc : Continues rest rest') {c : Char} {cs : List Char}
    (h : markLength c (cs ++ rest) = .ok cs.length) :
    markLength c (cs ++ rest') = .ok cs.length := by
  cases cs with
  | cons d cs => exact h
  | nil =>
    obtain ⟨hsingle, -⟩ := markLength_eq_ok h
    cases rest' with
    | nil => simp [markLength, hsingle]
    | cons d r' =>
      have hdouble : (c, d) ∉ doubleMarks := by
        intro hm
        obtain ⟨r, rfl, -⟩ := hc.cons (not_isBound_of_mem_doubleMarks hm)
        simp [markLength, hm] at h
      simp [markLength, hdouble, hsingle]

theorem Lexes.continues {c : Char} {cs : List Char} {k : Kind}
    (h : Lexes c (cs ++ rest) k cs.length) (hc : Continues rest rest') :
    Lexes c (cs ++ rest') k cs.length := by
  generalize hlen : cs.length = n at h
  cases h with
  | delimiter hd => exact .delimiter hd
  | @string m n raw hd hm hn =>
    have hin : m ≤ cs.length := by omega
    rw [List.drop_append_of_le_length hin] at hn
    have hn' := stringLength_local hn (by rw [List.length_drop]; omega) rest'
    rw [← List.drop_append_of_le_length hin] at hn'
    exact .string hd (stringMark?_some_local hm hin rest') hn'
  | quote hm hq hn =>
    have hm' := stringMark?_continues (hc.append cs) hm
    rw [← hlen] at hn ⊢
    exact .quote hm' hq (quoteLength_continues hc hn)
  | number hd hm hq hg =>
    have hm' := stringMark?_continues (hc.append cs) hm
    rw [← hlen, ← numberLength_continues hc hlen.symm]
    exact .number hd hm' hq hg
  | ident hd hm hq hg hi =>
    have hm' := stringMark?_continues (hc.append cs) hm
    rw [← hlen, ← identLength_continues hc hlen.symm]
    exact .ident hd hm' hq hg hi
  | mark hd hm hq hg hi hn =>
    have hm' := stringMark?_continues (hc.append cs) hm
    rw [← hlen] at hn ⊢
    exact .mark hd hm' hq hg hi (markLength_continues hc hn)

theorem noComment_continues (hc : Continues rest rest') {c : Char} (h : NoComment c rest) :
    NoComment c rest' := by
  intro hslash ds
  refine ⟨fun he => ?_, fun he => ?_⟩
  · obtain ⟨r, hr, -⟩ := (he ▸ hc).cons (by decide)
    exact (h hslash r).1 hr
  · obtain ⟨r, hr, -⟩ := (he ▸ hc).cons (by decide)
    exact (h hslash r).2 hr

/-- The scanner finds the same lexeme in front of a text that continues it. -/
theorem scanPiece_continues (hc : Continues rest rest') {c : Char} {cs : List Char} {k : Kind}
    (h : scanPiece c (cs ++ rest) = .ok (some k, cs.length)) :
    scanPiece c (cs ++ rest') = .ok (some k, cs.length) := by
  obtain ⟨hb, hno, hl⟩ := scanPiece_eq_lexeme_iff.mp h
  exact scanPiece_eq_lexeme_iff.mpr ⟨hb, noComment_continues (hc.append cs) hno, hl.continues hc⟩

/-- A lexeme that ends in a text ends there if what is behind the text ends every lexeme. -/
theorem scanPiece_bounded (hrest : Bounded rest') {c : Char} {cs : List Char} {k : Kind} {n : Nat}
    (h : scanPiece c (cs ++ rest) = .ok (some k, n)) (hn : n ≤ cs.length) :
    scanPiece c (cs ++ rest') = .ok (some k, n) := by
  have hsplit : ∀ more, cs ++ more = cs.take n ++ (cs.drop n ++ more) := by
    intro more
    rw [← List.append_assoc, List.take_append_drop]
  have hlength : (cs.take n).length = n := List.length_take_of_le hn
  have hpiece : scanPiece c (cs.take n ++ (cs.drop n ++ rest)) =
      .ok (some k, (cs.take n).length) := by
    rw [← hsplit, hlength, h]
  have hsame := scanPiece_continues (Continues.append (.inl hrest) _) hpiece
  rwa [← hsplit, hlength] at hsame

/-- A delimiter is a lexeme in front of every text. -/
theorem scanPiece_delimiter {c : Char} (h : isDelimiter c = true) (cs : List Char) :
    scanPiece c cs = .ok (some .punct, 0) := by
  have hblank : isBlank c = false := by
    rcases Terminal.eq_of_isDelimiter h with ⟨d, rfl⟩ | ⟨d, rfl⟩ <;> cases d <;> decide
  have hslash : c ≠ '/' := by
    rintro rfl
    exact absurd h (by decide)
  exact scanPiece_lexeme hblank hslash (.delimiter h)

end

end Scan

end WidgetView
