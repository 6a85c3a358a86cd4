import WidgetView.Proofs.FirstTerminal
import WidgetView.Text.Word

/-!
# Beyond a piece

What the scanner sees beyond a piece. A piece that ends where a name begins ends there whatever the
name is, and its last character is no word character. So the pieces before a name do not depend on
the name.
-/
namespace WidgetView

namespace Scan

open Terminal (fst_mem_singleMarks markLength_error stringMark?_none)

theorem isIdentChar_of_isIdentStart {c : Char} (h : isIdentStart c = true) :
    isIdentChar c = true := by
  simp [isIdentChar, h]

theorem toNat_of_isIdentStart {c : Char} (h : isIdentStart c = true) :
    65 ≤ c.toNat ∧ c.toNat < 128 := by
  simp only [isIdentStart, Bool.or_eq_true, beq_iff_eq, Char.isAlpha, Char.isUpper, Char.isLower,
    Bool.and_eq_true, decide_eq_true_eq, ge_iff_le, UInt32.le_iff_toNat_le] at h
  change (65 ≤ c.toNat ∧ c.toNat ≤ 90 ∨ 97 ≤ c.toNat ∧ c.toNat ≤ 122) ∨ c = '_' at h
  rcases h with (h | h) | rfl
  · omega
  · omega
  · decide

theorem toNat_of_isDigit {c : Char} (h : c.isDigit = true) : 48 ≤ c.toNat ∧ c.toNat ≤ 57 := by
  simp only [Char.isDigit, Bool.and_eq_true, decide_eq_true_eq, ge_iff_le,
    UInt32.le_iff_toNat_le] at h
  change 48 ≤ c.toNat ∧ c.toNat ≤ 57 at h
  exact h

theorem not_isDigit_of_isIdentStart {c : Char} (h : isIdentStart c = true) : c.isDigit = false := by
  have hs := toNat_of_isIdentStart h
  cases hd : c.isDigit with
  | false => rfl
  | true =>
    have hn := toNat_of_isDigit hd
    omega

/-- The characters of a name are word characters. -/
theorem isWord_of_isIdentChar {c : Char} (h : isIdentChar c = true) : Text.isWord c = true := by
  have hlow : c.toNat < 0x80 := by
    simp only [isIdentChar, Bool.or_eq_true] at h
    rcases h with h | h
    · exact (toNat_of_isIdentStart h).2
    · have hn := toNat_of_isDigit h
      omega
  rw [Text.isWord, if_pos hlow]
  simp only [isIdentChar, isIdentStart, Bool.or_eq_true, beq_iff_eq] at h
  rcases h with (h | rfl) | h
  · simp [Char.isAlphanum, h]
  · decide
  · simp [Char.isAlphanum, h]

/-- The first character of a name is none of the characters with a meaning of their own. -/
theorem isIdentStart_ne {c d : Char} (h : isIdentStart c = true) (hd : isIdentStart d = false) :
    c ≠ d := by
  rintro rfl
  rw [h] at hd
  cases hd

theorem isIdentStart_of_mem_doubleMarks {c d : Char} (h : (c, d) ∈ doubleMarks) :
    isIdentStart d = false := by
  have hall : ∀ m ∈ doubleMarks, isIdentStart m.2 = false := by decide
  exact hall _ h

section

variable {x : Char} {xs : List Char}

theorem takeWhile_local {p : Char → Bool} (hx : p x = true) {cs : List Char}
    (h : ((cs ++ x :: xs).takeWhile p).length ≤ cs.length) (ys : List Char) :
    (cs ++ ys).takeWhile p = cs.takeWhile p ∧ (cs.takeWhile p).length < cs.length := by
  induction cs with
  | nil => simp [hx] at h
  | cons c cs ih =>
    by_cases hc : p c
    · obtain ⟨he, hl⟩ := ih (by simpa [hc] using h)
      refine ⟨?_, ?_⟩
      · rw [List.cons_append, List.takeWhile_cons_of_pos hc, List.takeWhile_cons_of_pos hc, he]
      · rw [List.takeWhile_cons_of_pos hc]
        simpa using hl
    · simp [hc]

theorem identLength_local (hx : isIdentStart x = true) {cs : List Char}
    (h : identLength (cs ++ x :: xs) ≤ cs.length) (ys : List Char) :
    identLength (cs ++ ys) = identLength cs ∧ identLength cs < cs.length := by
  obtain ⟨he, hl⟩ := takeWhile_local (isIdentChar_of_isIdentStart hx) h ys
  exact ⟨congrArg List.length he, hl⟩

theorem two_le_commentLength {cs : List Char} {n : Nat} (h : commentLength cs = some n) :
    2 ≤ n := by
  fun_induction commentLength cs generalizing n with
  | case1 => simp at h
  | case2 =>
    obtain rfl := Option.some.inj h
    exact Nat.le_refl 2
  | case3 c cs _ ih =>
    obtain ⟨m, hm, rfl⟩ := Option.map_eq_some_iff.mp h
    have h₂ := ih hm
    omega

/-- A comment ends within what it takes. -/
theorem commentLength_take {cs : List Char} {n : Nat} (h : commentLength cs = some n)
    (ys : List Char) : commentLength (cs.take n ++ ys) = some n := by
  fun_induction commentLength cs generalizing n with
  | case1 => simp at h
  | case2 cs =>
    obtain rfl := Option.some.inj h
    rfl
  | case3 c cs hend ih =>
    obtain ⟨m, hm, rfl⟩ := Option.map_eq_some_iff.mp h
    have htwo := two_le_commentLength hm
    have hrest := ih hm
    obtain ⟨m, rfl⟩ : ∃ k, m = k + 1 := ⟨m - 1, by omega⟩
    cases cs with
    | nil => simp [commentLength] at hm
    | cons d cs =>
      have hne : ∀ tail, c = '*' → d :: (cs.take m ++ ys) = '/' :: tail → False := by
        intro tail hc hd
        exact hend cs hc (by rw [(List.cons.inj hd).1])
      rw [List.take_succ_cons, List.take_succ_cons, List.cons_append, List.cons_append,
        commentLength]
      · rw [← List.cons_append, ← List.take_succ_cons, hrest]
        rfl
      · exact hne

theorem pos_of_stringLength {raw : Bool} {cs : List Char} {n : Nat}
    (h : stringLength raw cs = .ok n) : 0 < n := by
  cases n with
  | succ n => exact Nat.succ_pos n
  | zero =>
    exfalso
    have hmap : ∀ (e : Except LexFault Nat) (k : Nat), e.map (· + (k + 1)) ≠ .ok 0 := by
      intro e k
      cases e <;> simp [Except.map]
    fun_cases stringLength raw cs <;> simp_all [stringLength]

theorem map_add_eq_ok {e : Except LexFault Nat} {k n : Nat} (h : e.map (· + k) = .ok n) :
    ∃ m, e = .ok m ∧ n = m + k := by
  cases e with
  | error f => simp [Except.map] at h
  | ok m => exact ⟨m, rfl, (Except.ok.inj h).symm⟩

/-- A string ends within what it takes. -/
theorem stringLength_take {raw : Bool} {cs : List Char} {n : Nat}
    (h : stringLength raw cs = .ok n) (ys : List Char) :
    stringLength raw (cs.take n ++ ys) = .ok n := by
  fun_induction stringLength raw cs generalizing n with
  | case1 => simp at h
  | case2 cs =>
    obtain rfl := Except.ok.inj h
    rfl
  | case3 => simp at h
  | case4 c cs hr ih =>
    obtain ⟨m, hm, rfl⟩ := map_add_eq_ok h
    have hpos := pos_of_stringLength hm
    have hrest := ih hm
    obtain ⟨m, rfl⟩ : ∃ k, m = k + 1 := ⟨m - 1, by omega⟩
    rw [List.take_succ_cons, List.cons_append] at hrest
    rw [List.take_succ_cons, List.take_succ_cons, List.cons_append, List.cons_append,
      stringLength, if_pos hr, hrest]
    rfl
  | case5 c cs hr ih =>
    obtain ⟨m, hm, rfl⟩ := map_add_eq_ok h
    rw [List.take_succ_cons, List.take_succ_cons, List.cons_append, List.cons_append,
      stringLength, if_neg hr, ih hm]
    rfl
  | case6 c cs hq hlone hescape ih =>
    obtain ⟨m, hm, rfl⟩ := map_add_eq_ok h
    have hb : c ≠ '\\' := by
      rintro rfl
      match cs with
      | [] => exact hlone rfl rfl
      | d :: cs => exact hescape d cs rfl rfl
    rw [List.take_succ_cons, List.cons_append, stringLength, ih hm]
    · rfl
    · exact fun hc => hq hc
    · exact fun hc => absurd hc hb
    · exact fun _ _ hc => absurd hc hb

theorem take_append_drop_append {cs xs : List Char} {n : Nat} (h : n ≤ cs.length)
    (ys : List Char) : (cs ++ xs).take n ++ (cs.drop n ++ ys) = cs ++ ys := by
  rw [List.take_append_of_le_length h, ← List.append_assoc, List.take_append_drop]

theorem commentLength_local {cs : List Char} {n : Nat} (h : commentLength (cs ++ xs) = some n)
    (hn : n ≤ cs.length) (ys : List Char) : commentLength (cs ++ ys) = some n := by
  have ht := commentLength_take h (cs.drop n ++ ys)
  rwa [take_append_drop_append hn] at ht

theorem stringLength_local {raw : Bool} {cs : List Char} {n : Nat}
    (h : stringLength raw (cs ++ xs) = .ok n) (hn : n ≤ cs.length) (ys : List Char) :
    stringLength raw (cs ++ ys) = .ok n := by
  have ht := stringLength_take h (cs.drop n ++ ys)
  rwa [take_append_drop_append hn] at ht

/-- What can stand after a single quote. -/
theorem quoteLength_eq_ok {cs : List Char} {k : Kind} {n : Nat} (h : quoteLength cs = .ok (k, n)) :
    (∃ c rest, cs = '\\' :: c :: '\x27' :: rest ∧ k = .char ∧ n = 3) ∨
    (∃ c rest, cs = c :: '\x27' :: rest ∧ c ≠ '\\' ∧ c ≠ '\x27' ∧ k = .char ∧ n = 2) ∨
    (∃ c rest, cs = c :: rest ∧ isIdentStart c = true ∧ (∀ ds, rest ≠ '\x27' :: ds) ∧
      k = .lifetime ∧ n = 1 + identLength rest) := by
  fun_cases quoteLength cs with
  | case1 c rest =>
    obtain ⟨rfl, rfl⟩ := Prod.mk.inj (Except.ok.inj h)
    exact Or.inl ⟨c, rest, rfl, rfl, rfl⟩
  | case2 => simp_all [quoteLength]
  | case3 => simp [quoteLength] at h
  | case4 c rest _ hb hq =>
    have he : quoteLength (c :: '\x27' :: rest) = .ok (.char, 2) := by simp [quoteLength]
    rw [he] at h
    obtain ⟨rfl, rfl⟩ := Prod.mk.inj (Except.ok.inj h)
    exact Or.inr (Or.inl ⟨c, rest, rfl, hb, hq, rfl, rfl⟩)
  | case5 c rest _ hb hq hd hs =>
    simp only [quoteLength, hs, if_true] at h
    obtain ⟨rfl, rfl⟩ := Prod.mk.inj (Except.ok.inj h)
    exact Or.inr (Or.inr ⟨c, rest, rfl, hs, hd, rfl, rfl⟩)
  | case6 c rest _ hb hq hd hs => simp [quoteLength, hs] at h
  | case7 => simp [quoteLength] at h

theorem kind_of_quoteLength {cs : List Char} {k : Kind} {n : Nat}
    (h : quoteLength cs = .ok (k, n)) : k = .char ∨ k = .lifetime := by
  rcases quoteLength_eq_ok h with ⟨_, _, -, hk, -⟩ | ⟨_, _, -, -, -, hk, -⟩ | ⟨_, _, -, -, -, hk, -⟩
  · exact .inl hk
  · exact .inl hk
  · exact .inr hk

theorem quoteLength_lifetime {c : Char} {cs : List Char} (hs : isIdentStart c = true)
    (hd : ∀ ds, cs ≠ '\x27' :: ds) :
    quoteLength (c :: cs) = .ok (.lifetime, 1 + identLength cs) := by
  have hb : c ≠ '\\' := isIdentStart_ne hs (by decide)
  have hq : c ≠ '\x27' := isIdentStart_ne hs (by decide)
  rw [quoteLength, if_pos hs]
  · rfl
  · exact fun _ _ hc => absurd hc hb
  · exact hb
  · exact hq
  · exact hd

theorem quoteLength_local (hx : isIdentStart x = true) {cs : List Char} {k : Kind} {n : Nat}
    (h : quoteLength (cs ++ x :: xs) = .ok (k, n)) (hn : n ≤ cs.length) (ys : List Char) :
    quoteLength (cs ++ ys) = .ok (k, n) := by
  rcases quoteLength_eq_ok h with ⟨c, rest, he, rfl, rfl⟩ | ⟨c, rest, he, hb, hq, rfl, rfl⟩ |
    ⟨c, rest, he, hs, hd, rfl, rfl⟩
  · match cs with
    | [] | [_] | [_, _] => simp at hn
    | a :: b :: e :: cs =>
      obtain ⟨rfl, rfl, rfl, -⟩ : a = '\\' ∧ b = c ∧ e = '\x27' ∧ cs ++ x :: xs = rest := by
        simpa using he
      rfl
  · match cs with
    | [] | [_] => simp at hn
    | a :: b :: cs =>
      obtain ⟨rfl, rfl, -⟩ : a = c ∧ b = '\x27' ∧ cs ++ x :: xs = rest := by simpa using he
      rw [List.cons_append, List.cons_append, quoteLength]
      · exact fun _ hc => absurd hc hb
      · exact hb
      · exact hq
  · match cs with
    | [] => simp at hn
    | a :: cs =>
      obtain ⟨rfl, rfl⟩ : a = c ∧ cs ++ x :: xs = rest := by simpa using he
      have hlen : identLength (cs ++ x :: xs) ≤ cs.length := by
        simp only [List.length_cons] at hn
        omega
      obtain ⟨h₁, hlt⟩ := identLength_local hx hlen (x :: xs)
      obtain ⟨h₂, -⟩ := identLength_local hx hlen ys
      have hd' : ∀ ds, cs ++ ys ≠ '\x27' :: ds := by
        intro ds hds
        match cs with
        | [] => simp at hlt
        | b :: cs =>
          obtain ⟨rfl, -⟩ := List.cons.inj hds
          exact hd (cs ++ x :: xs) rfl
      rw [List.cons_append, quoteLength_lifetime hs hd', h₁, h₂]

theorem identLength_le_numberLength (cs : List Char) : identLength cs ≤ numberLength cs := by
  unfold numberLength
  split
  · split <;> omega
  · exact Nat.le_refl _

theorem numberLength_local (hx : isIdentStart x = true) {y : Char} (hy : isIdentStart y = true)
    {cs : List Char} (h : numberLength (cs ++ x :: xs) ≤ cs.length) (ys : List Char) :
    numberLength (cs ++ y :: ys) = numberLength (cs ++ x :: xs) ∧
      numberLength (cs ++ x :: xs) < cs.length := by
  have hlen := Nat.le_trans (identLength_le_numberLength (cs ++ x :: xs)) h
  obtain ⟨h₁, hlt⟩ := identLength_local hx hlen (x :: xs)
  obtain ⟨h₂, -⟩ := identLength_local hx hlen (y :: ys)
  have hle := Nat.le_of_lt hlt
  have hxd := not_isDigit_of_isIdentStart hx
  have hyd := not_isDigit_of_isIdentStart hy
  rw [numberLength, numberLength, h₁, h₂, List.drop_append_of_le_length hle,
    List.drop_append_of_le_length hle]
  rw [numberLength, h₁, List.drop_append_of_le_length hle] at h
  have hrest : (cs.drop (identLength cs)).length = cs.length - identLength cs := List.length_drop
  generalize cs.drop (identLength cs) = rest at *
  rcases rest with _ | ⟨e, _ | ⟨d, rest⟩⟩
  · simp only [List.length_nil] at hrest
    omega
  · by_cases he : e = '.' <;> simp [he, hxd, hyd, hlt]
  · by_cases he : e = '.'
    · subst he
      cases hd : d.isDigit with
      | false => simp [hd, hlt]
      | true =>
        simp only [List.cons_append, hd, if_true, List.length_cons] at h hrest ⊢
        have hlast : identLength (rest ++ x :: xs) ≤ rest.length := by omega
        obtain ⟨h₃, hlt'⟩ := identLength_local hx hlast (x :: xs)
        obtain ⟨h₄, -⟩ := identLength_local hx hlast (y :: ys)
        rw [h₃, h₄]
        exact ⟨rfl, by omega⟩
    · simp [he, hlt]

theorem markLength_local (hx : isIdentStart x = true) {y : Char} (hy : isIdentStart y = true)
    (c : Char) (cs ys : List Char) :
    markLength c (cs ++ y :: ys) = markLength c (cs ++ x :: xs) := by
  cases cs with
  | nil =>
    have hxm : (c, x) ∉ doubleMarks := by
      intro hm
      rw [isIdentStart_of_mem_doubleMarks hm] at hx
      cases hx
    have hym : (c, y) ∉ doubleMarks := by
      intro hm
      rw [isIdentStart_of_mem_doubleMarks hm] at hy
      cases hy
    simp [markLength, hxm, hym]
  | cons d ds => rfl

/-- The four marks before the contents of a string. -/
theorem stringMark?_eq_some_iff {c : Char} {cs : List Char} {m : Nat} {raw : Bool} :
    stringMark? c cs = some (m, raw) ↔
      (c = '\x22' ∧ m = 0 ∧ raw = false) ∨
      (∃ ds, c = 'b' ∧ cs = '\x22' :: ds ∧ m = 1 ∧ raw = false) ∨
      (∃ ds, c = 'r' ∧ cs = '\x22' :: ds ∧ m = 1 ∧ raw = true) ∨
      (∃ ds, c = 'b' ∧ cs = 'r' :: '\x22' :: ds ∧ m = 2 ∧ raw = true) := by
  constructor
  · intro h
    fun_cases stringMark? c cs with
    | case1 =>
      obtain ⟨rfl, rfl⟩ := Prod.mk.inj (Option.some.inj h)
      exact Or.inl ⟨rfl, rfl, rfl⟩
    | case2 ds =>
      obtain ⟨rfl, rfl⟩ := Prod.mk.inj (Option.some.inj h)
      exact Or.inr (Or.inl ⟨ds, rfl, rfl, rfl, rfl⟩)
    | case3 ds =>
      obtain ⟨rfl, rfl⟩ := Prod.mk.inj (Option.some.inj h)
      exact Or.inr (Or.inr (Or.inl ⟨ds, rfl, rfl, rfl, rfl⟩))
    | case4 ds =>
      obtain ⟨rfl, rfl⟩ := Prod.mk.inj (Option.some.inj h)
      exact Or.inr (Or.inr (Or.inr ⟨ds, rfl, rfl, rfl, rfl⟩))
    | case5 _ _ h₁ h₂ h₃ h₄ => simp_all [stringMark?]
  · rintro (⟨rfl, rfl, rfl⟩ | ⟨ds, rfl, rfl, rfl, rfl⟩ | ⟨ds, rfl, rfl, rfl, rfl⟩ |
      ⟨ds, rfl, rfl, rfl, rfl⟩) <;> rfl

/-- A mark is told from the characters up to its quote. -/
theorem stringMark?_some_local {c : Char} {cs : List Char} {m : Nat} {raw : Bool}
    (h : stringMark? c (cs ++ xs) = some (m, raw)) (hm : m ≤ cs.length) (ys : List Char) :
    stringMark? c (cs ++ ys) = some (m, raw) := by
  rcases stringMark?_eq_some_iff.mp h with ⟨rfl, rfl, rfl⟩ | ⟨ds, rfl, he, rfl, rfl⟩ |
    ⟨ds, rfl, he, rfl, rfl⟩ | ⟨ds, rfl, he, rfl, rfl⟩
  · rfl
  · match cs with
    | d :: cs =>
      obtain ⟨rfl, -⟩ := List.cons.inj he
      rfl
  · match cs with
    | d :: cs =>
      obtain ⟨rfl, -⟩ := List.cons.inj he
      rfl
  · match cs with
    | [_] => simp at hm
    | d :: e :: cs =>
      obtain ⟨rfl, hquote⟩ := List.cons.inj he
      obtain ⟨rfl, -⟩ := List.cons.inj hquote
      rfl

/-- Where no string begins, none begins with another name behind, unless the character and the name
are one name. -/
theorem stringMark?_none_local {c : Char} {cs : List Char}
    (h : stringMark? c (cs ++ xs) = none) {y : Char} (hy : isIdentStart y = true)
    (hc : isIdentStart c = true → identLength cs < cs.length) (ys : List Char) :
    stringMark? c (cs ++ y :: ys) = none := by
  have hyq : y ≠ '\x22' := isIdentStart_ne hy (by decide)
  rw [Option.eq_none_iff_forall_ne_some]
  rintro ⟨m, raw⟩ hs
  by_cases hm : m ≤ cs.length
  · rw [stringMark?_some_local hs hm xs] at h
    cases h
  · rcases stringMark?_eq_some_iff.mp hs with ⟨rfl, rfl, rfl⟩ | ⟨ds, rfl, he, rfl, rfl⟩ |
      ⟨ds, rfl, he, rfl, rfl⟩ | ⟨ds, rfl, he, rfl, rfl⟩
    · exact hm (Nat.zero_le _)
    · match cs with
      | [] => exact hyq (List.cons.inj he).1
      | d :: cs => simp at hm
    · match cs with
      | [] => exact hyq (List.cons.inj he).1
      | d :: cs => simp at hm
    · have hlt := hc (by decide)
      match cs with
      | [] => simp at hlt
      | [d] =>
        obtain ⟨rfl, hquote⟩ := List.cons.inj he
        exact hyq (List.cons.inj hquote).1
      | d :: e :: cs => simp at hm

/-- A lexeme that ends where a name begins ends there whatever the name is. -/
theorem lexemeLength_local (hx : isIdentStart x = true) {y : Char} (hy : isIdentStart y = true)
    {c : Char} {cs : List Char} {k : Kind} {n : Nat}
    (h : lexemeLength c (cs ++ x :: xs) = .ok (k, n)) (hle : n ≤ cs.length) (ys : List Char) :
    lexemeLength c (cs ++ y :: ys) = .ok (k, n) := by
  cases lexemeLength_eq_ok.mp h with
  | delimiter hd => exact lexemeLength_eq_ok.mpr (.delimiter hd)
  | @string m n raw hd hm hn =>
    have hin : m ≤ cs.length := by omega
    rw [List.drop_append_of_le_length hin] at hn
    have hfit : n ≤ (cs.drop m).length := by
      rw [List.length_drop]
      omega
    have hn' := stringLength_local hn hfit (y :: ys)
    rw [← List.drop_append_of_le_length hin] at hn'
    exact lexemeLength_eq_ok.mpr (.string hd (stringMark?_some_local hm hin (y :: ys)) hn')
  | quote hm hc hn =>
    have hm' :=
      stringMark?_none_local hm hy (fun hs => absurd hc (isIdentStart_ne hs (by decide))) ys
    exact lexemeLength_eq_ok.mpr (.quote hm' hc (quoteLength_local hx hn hle (y :: ys)))
  | number hd hm hc hg =>
    have hnot : isIdentStart c = true → identLength cs < cs.length := by
      intro hs
      rw [not_isDigit_of_isIdentStart hs] at hg
      cases hg
    rw [← (numberLength_local hx hy hle ys).1]
    exact lexemeLength_eq_ok.mpr (.number hd (stringMark?_none_local hm hy hnot ys) hc hg)
  | ident hd hm hc hg hi =>
    obtain ⟨h₁, hlt⟩ := identLength_local hx hle (x :: xs)
    obtain ⟨h₂, -⟩ := identLength_local hx hle (y :: ys)
    rw [h₁, ← h₂]
    exact lexemeLength_eq_ok.mpr
      (.ident hd (stringMark?_none_local hm hy (fun _ => hlt) ys) hc hg hi)
  | mark hd hm hc hg hi hn =>
    have hnot : isIdentStart c = true → identLength cs < cs.length := by
      intro hs
      rw [hs] at hi
      cases hi
    rw [← markLength_local hx hy c cs ys] at hn
    exact lexemeLength_eq_ok.mpr (.mark hd (stringMark?_none_local hm hy hnot ys) hc hg hi hn)

/-- No comment begins with the character and what follows it. -/
def NoComment (c : Char) (cs : List Char) : Prop := c = '/' → ∀ ds, cs ≠ '/' :: ds ∧ cs ≠ '*' :: ds

/-- The four sorts of pieces. -/
theorem scanPiece_eq_ok_iff {c : Char} {cs : List Char} {k? : Option Kind} {n : Nat} :
    scanPiece c cs = .ok (k?, n) ↔
      (isBlank c = true ∧ k? = none ∧ n = 0) ∨
      (c = '/' ∧ k? = none ∧ (∃ ds, cs = '/' :: ds) ∧ n = (cs.takeWhile (· ≠ '\n')).length) ∨
      (c = '/' ∧ k? = none ∧ ∃ ds m, cs = '*' :: ds ∧ commentLength ds = some m ∧ n = 1 + m) ∨
      (isBlank c = false ∧ NoComment c cs ∧ ∃ k, k? = some k ∧ lexemeLength c cs = .ok (k, n)) := by
  have hslash : isBlank '/' = false := by decide
  constructor
  · intro h
    unfold scanPiece at h
    split at h
    · next hb =>
      obtain ⟨rfl, rfl⟩ := Prod.mk.inj (Except.ok.inj h)
      exact Or.inl ⟨hb, rfl, rfl⟩
    · next hb =>
      have hb' : isBlank c = false := by simpa using hb
      split at h
      · next ds =>
        obtain ⟨rfl, rfl⟩ := Prod.mk.inj (Except.ok.inj h)
        exact Or.inr (Or.inl ⟨rfl, rfl, ⟨ds, rfl⟩, rfl⟩)
      · next ds =>
        split at h
        · next m hm =>
          obtain ⟨rfl, rfl⟩ := Prod.mk.inj (Except.ok.inj h)
          exact Or.inr (Or.inr (Or.inl ⟨rfl, rfl, ds, m, rfl, hm, rfl⟩))
        · cases h
      · next h₁ h₂ =>
        have hno : NoComment c cs := fun hc ds => ⟨h₁ ds hc, h₂ ds hc⟩
        cases hl : lexemeLength c cs with
        | error e => simp [hl, Except.map] at h
        | ok r =>
          obtain ⟨k, l⟩ := r
          simp only [hl, Except.map] at h
          obtain ⟨rfl, rfl⟩ := Prod.mk.inj (Except.ok.inj h)
          exact Or.inr (Or.inr (Or.inr ⟨hb', hno, k, rfl, rfl⟩))
  · rintro (⟨hb, rfl, rfl⟩ | ⟨rfl, rfl, ⟨ds, rfl⟩, rfl⟩ | ⟨rfl, rfl, ds, m, rfl, hm, rfl⟩ |
      ⟨hb, hno, k, rfl, hl⟩)
    · have hne : c ≠ '/' := by
        rintro rfl
        rw [hslash] at hb
        cases hb
      rw [scanPiece, if_pos hb]
      · exact fun _ hc => absurd hc hne
      · exact fun _ hc => absurd hc hne
    · rw [scanPiece, if_neg (by simp [hslash])]
    · rw [scanPiece, if_neg (by simp [hslash])]
      simp only [hm]
    · rw [scanPiece, if_neg (by simp [hb]), hl]
      · rfl
      · exact fun ds hc he => (hno hc ds).1 he
      · exact fun ds hc he => (hno hc ds).2 he

theorem scanPiece_blank {c : Char} (h : isBlank c = true) (cs : List Char) :
    scanPiece c cs = .ok (none, 0) :=
  scanPiece_eq_ok_iff.mpr (.inl ⟨h, rfl, rfl⟩)

theorem scanPiece_eq_lexeme_iff {c : Char} {cs : List Char} {k : Kind} {n : Nat} :
    scanPiece c cs = .ok (some k, n) ↔ isBlank c = false ∧ NoComment c cs ∧ Lexes c cs k n := by
  rw [scanPiece_eq_ok_iff]
  constructor
  · rintro (⟨-, hk, -⟩ | ⟨-, hk, -⟩ | ⟨-, hk, -⟩ | ⟨hb, hno, k', hk, hl⟩)
    · cases hk
    · cases hk
    · cases hk
    · obtain rfl := Option.some.inj hk
      exact ⟨hb, hno, lexemeLength_eq_ok.mp hl⟩
  · rintro ⟨hb, hno, hl⟩
    exact .inr (.inr (.inr ⟨hb, hno, k, rfl, lexemeLength_eq_ok.mpr hl⟩))

/-- What starts with neither a blank nor a slash is a lexeme. -/
theorem scanPiece_lexeme {c : Char} {cs : List Char} {k : Kind} {n : Nat} (hb : isBlank c = false)
    (hs : c ≠ '/') (h : Lexes c cs k n) : scanPiece c cs = .ok (some k, n) :=
  scanPiece_eq_lexeme_iff.mpr ⟨hb, fun he => absurd he hs, h⟩

theorem exists_lexeme_of_scanPiece {c : Char} {cs : List Char} {k? : Option Kind} {n : Nat}
    (h : scanPiece c cs = .ok (k?, n)) (hb : isBlank c = false) (hs : c ≠ '/') :
    ∃ k, k? = some k ∧ Lexes c cs k n := by
  rcases scanPiece_eq_ok_iff.mp h with ⟨hblank, -⟩ | ⟨hc, -⟩ | ⟨hc, -⟩ | ⟨-, -, k, hk, hl⟩
  · rw [hb] at hblank
    cases hblank
  · exact absurd hc hs
  · exact absurd hc hs
  · exact ⟨k, hk, lexemeLength_eq_ok.mp hl⟩

theorem noComment_local {c : Char} {cs : List Char} (h : NoComment c (cs ++ xs)) {y : Char}
    (hy : isIdentStart y = true) (ys : List Char) : NoComment c (cs ++ y :: ys) := by
  intro hc ds
  match cs with
  | [] =>
    have hs : y ≠ '/' := isIdentStart_ne hy (by decide)
    have ht : y ≠ '*' := isIdentStart_ne hy (by decide)
    exact ⟨fun he => hs (List.cons.inj he).1, fun he => ht (List.cons.inj he).1⟩
  | d :: cs =>
    have hd := h hc (cs ++ xs)
    refine ⟨fun he => hd.1 ?_, fun he => hd.2 ?_⟩
    · rw [List.cons_append, (List.cons.inj he).1]
    · rw [List.cons_append, (List.cons.inj he).1]

/-- A blank or a comment that ends in a text ends there whatever is behind the text. -/
theorem scanPiece_none_local (hx : x ≠ '\n') {c : Char} {cs : List Char} {n : Nat}
    (h : scanPiece c (cs ++ x :: xs) = .ok (none, n)) (hn : n ≤ cs.length) (ys : List Char) :
    scanPiece c (cs ++ ys) = .ok (none, n) := by
  rw [scanPiece_eq_ok_iff] at h ⊢
  rcases h with h | ⟨rfl, -, ⟨ds, he⟩, rfl⟩ | ⟨rfl, -, ds, m, he, hm, rfl⟩ | ⟨-, -, k, hk, -⟩
  · exact Or.inl h
  · obtain ⟨h₁, hlt⟩ := takeWhile_local (decide_eq_true hx) hn (x :: xs)
    obtain ⟨h₂, -⟩ := takeWhile_local (decide_eq_true hx) hn ys
    obtain ⟨d, cs, rfl⟩ := List.exists_cons_of_length_pos (Nat.zero_lt_of_lt hlt)
    obtain ⟨rfl, -⟩ := List.cons.inj he
    exact Or.inr (Or.inl ⟨rfl, rfl, ⟨cs ++ ys, rfl⟩, by rw [h₁, h₂]⟩)
  · obtain ⟨d, cs, rfl⟩ := List.exists_cons_of_length_pos (show 0 < cs.length by omega)
    obtain ⟨rfl, rfl⟩ := List.cons.inj he
    have hin : m ≤ cs.length := by
      simp only [List.length_cons] at hn
      omega
    exact Or.inr (Or.inr (Or.inl ⟨rfl, rfl, cs ++ ys, m, rfl, commentLength_local hm hin ys, rfl⟩))
  · cases hk

/-- A piece that ends where a name begins ends there whatever the name is. -/
theorem scanPiece_local (hx : isIdentStart x = true) {y : Char} (hy : isIdentStart y = true)
    {c : Char} {cs : List Char} {k? : Option Kind} {n : Nat}
    (h : scanPiece c (cs ++ x :: xs) = .ok (k?, n)) (hn : n ≤ cs.length) (ys : List Char) :
    scanPiece c (cs ++ y :: ys) = .ok (k?, n) := by
  cases k? with
  | none => exact scanPiece_none_local (isIdentStart_ne hx (by decide)) h hn (y :: ys)
  | some k =>
    obtain ⟨hb, hno, hl⟩ := scanPiece_eq_lexeme_iff.mp h
    have hl' := lexemeLength_local hx hy (lexemeLength_eq_ok.mpr hl) hn ys
    exact scanPiece_eq_lexeme_iff.mpr ⟨hb, noComment_local hno hy ys, lexemeLength_eq_ok.mp hl'⟩

/-- The last character of a text is no word character. -/
def EndsOutside (cs : List Char) : Prop := ∃ front d, cs = front ++ [d] ∧ Text.isWord d = false

theorem EndsOutside.append {cs : List Char} (h : EndsOutside cs) (front : List Char) :
    EndsOutside (front ++ cs) := by
  obtain ⟨f, d, rfl, hd⟩ := h
  exact ⟨front ++ f, d, by simp, hd⟩

theorem endsOutside_comment {cs : List Char} {n : Nat} (h : commentLength cs = some n) :
    EndsOutside (cs.take n) := by
  fun_induction commentLength cs generalizing n with
  | case1 => simp at h
  | case2 cs =>
    obtain rfl := Option.some.inj h
    exact ⟨['*'], '/', rfl, by decide⟩
  | case3 c cs _ ih =>
    obtain ⟨m, hm, rfl⟩ := Option.map_eq_some_iff.mp h
    rw [List.take_succ_cons]
    exact (ih hm).append [c]

theorem endsOutside_string {raw : Bool} {cs : List Char} {n : Nat}
    (h : stringLength raw cs = .ok n) : EndsOutside (cs.take n) := by
  fun_induction stringLength raw cs generalizing n with
  | case1 => simp at h
  | case2 cs =>
    obtain rfl := Except.ok.inj h
    exact ⟨[], '\x22', rfl, by decide⟩
  | case3 => simp at h
  | case4 c cs _ ih =>
    obtain ⟨m, hm, rfl⟩ := map_add_eq_ok h
    rw [List.take_succ_cons]
    exact (ih hm).append ['\\']
  | case5 c cs _ ih =>
    obtain ⟨m, hm, rfl⟩ := map_add_eq_ok h
    rw [List.take_succ_cons, List.take_succ_cons]
    exact (ih hm).append ['\\', c]
  | case6 c cs _ _ _ ih =>
    obtain ⟨m, hm, rfl⟩ := map_add_eq_ok h
    rw [List.take_succ_cons]
    exact (ih hm).append [c]

theorem not_isWord_of_isDelimiter {c : Char} (h : isDelimiter c = true) :
    Text.isWord c = false := by
  rcases Terminal.eq_of_isDelimiter h with ⟨d, rfl⟩ | ⟨d, rfl⟩
  · cases d <;> decide
  · cases d <;> decide

theorem markLength_eq_ok {c : Char} {cs : List Char} {n : Nat} (h : markLength c cs = .ok n) :
    c ∈ singleMarks ∧ (n = 0 ∨ n = 1 ∧ ∃ d ds, cs = d :: ds ∧ (c, d) ∈ doubleMarks) := by
  have hc : c ∈ singleMarks := by
    refine Decidable.byContradiction fun hno => ?_
    rw [markLength_error hno] at h
    cases h
  refine ⟨hc, ?_⟩
  cases cs with
  | nil =>
    simp only [markLength, hc, if_true] at h
    exact Or.inl (Except.ok.inj h).symm
  | cons d ds =>
    by_cases hd : (c, d) ∈ doubleMarks
    · simp only [markLength, hd, if_true] at h
      exact Or.inr ⟨(Except.ok.inj h).symm, d, ds, rfl, hd⟩
    · simp only [markLength, hd, hc, if_true, if_false] at h
      exact Or.inl (Except.ok.inj h).symm

theorem not_isWord_of_mem_singleMarks {c : Char} (h : c ∈ singleMarks) : Text.isWord c = false := by
  have hall : singleMarks.all (fun d => !Text.isWord d) = true := by decide
  simpa using List.all_eq_true.mp hall c h

theorem not_isWord_of_mem_doubleMarks {c d : Char} (h : (c, d) ∈ doubleMarks) :
    Text.isWord d = false := by
  have hall : ∀ m ∈ doubleMarks, Text.isWord m.2 = false := by decide
  exact hall _ h

/-- Of what stands after a single quote, only a lifetime ends with a word character. -/
theorem endsOutside_quote (hx : isIdentStart x = true) {cs : List Char} {k : Kind}
    (h : quoteLength (cs ++ x :: xs) = .ok (k, cs.length)) : EndsOutside cs := by
  rcases quoteLength_eq_ok h with ⟨d, rest, he, -, hlen⟩ | ⟨d, rest, he, -, -, -, hlen⟩ |
    ⟨d, rest, he, -, -, -, hlen⟩
  · match cs with
    | [a, b, e] =>
      obtain ⟨rfl, rfl, rfl, -⟩ : a = '\\' ∧ b = d ∧ e = '\x27' ∧ x :: xs = rest := by
        simpa using he
      exact ⟨['\\', b], '\x27', rfl, by decide⟩
  · match cs with
    | [a, b] =>
      obtain ⟨rfl, rfl, -⟩ : a = d ∧ b = '\x27' ∧ x :: xs = rest := by simpa using he
      exact ⟨[a], '\x27', rfl, by decide⟩
  · cases cs with
    | nil =>
      simp only [List.length_nil] at hlen
      omega
    | cons a cs =>
      obtain ⟨rfl, rfl⟩ : a = d ∧ cs ++ x :: xs = rest := by simpa using he
      simp only [List.length_cons] at hlen
      have hle : identLength (cs ++ x :: xs) ≤ cs.length := by omega
      obtain ⟨h₁, hlt⟩ := identLength_local hx hle (x :: xs)
      omega

theorem endsOutside_mark {c : Char} {cs : List Char}
    (h : markLength c (cs ++ x :: xs) = .ok cs.length) : EndsOutside (c :: cs) := by
  obtain ⟨hc, hnil | ⟨hone, d, ds, he, hd⟩⟩ := markLength_eq_ok h
  · rw [List.eq_nil_of_length_eq_zero hnil]
    exact ⟨[], c, rfl, not_isWord_of_mem_singleMarks hc⟩
  · match cs with
    | [e] =>
      obtain ⟨rfl, -⟩ := List.cons.inj he
      exact ⟨[c], e, rfl, not_isWord_of_mem_doubleMarks hd⟩

/-- A name touches no word character before it: where a lexeme ends with one, the name would belong
to the lexeme. -/
theorem endsOutside_lexeme (hx : isIdentStart x = true) {c : Char} {cs : List Char} {k : Kind}
    (h : lexemeLength c (cs ++ x :: xs) = .ok (k, cs.length)) : EndsOutside (c :: cs) := by
  generalize hlen : cs.length = len at h
  cases lexemeLength_eq_ok.mp h with
  | delimiter hd =>
    rw [List.eq_nil_of_length_eq_zero hlen]
    exact ⟨[], c, rfl, not_isWord_of_isDelimiter hd⟩
  | @string m n raw hd hm hn =>
    have hle : m ≤ cs.length := by omega
    have hend := endsOutside_string hn
    have hall : n = (cs.drop m).length := by
      rw [List.length_drop]
      omega
    rw [List.drop_append_of_le_length hle, List.take_append_of_le_length (Nat.le_of_eq hall),
      List.take_of_length_le (Nat.le_of_eq hall.symm)] at hend
    have hsplit : c :: cs = (c :: cs.take m) ++ cs.drop m := by simp
    rw [hsplit]
    exact hend.append _
  | quote hm hc hn =>
    rw [← hlen] at hn
    exact (endsOutside_quote hx hn).append [c]
  | number hd hm hc hg =>
    have hlt := (numberLength_local hx hx (Nat.le_of_eq hlen.symm) xs).2
    omega
  | ident hd hm hc hg hi =>
    obtain ⟨h₁, hlt⟩ := identLength_local hx (Nat.le_of_eq hlen.symm) (x :: xs)
    omega
  | mark hd hm hc hg hi hn =>
    rw [← hlen] at hn
    exact endsOutside_mark hn

theorem endsOutside_piece (hx : isIdentStart x = true) {c : Char} {cs : List Char}
    {k? : Option Kind} (h : scanPiece c (cs ++ x :: xs) = .ok (k?, cs.length)) :
    EndsOutside (c :: cs) := by
  rcases scanPiece_eq_ok_iff.mp h with ⟨hb, -, hn⟩ | ⟨-, -, -, hn⟩ | ⟨-, -, ds, m, he, hm, hn⟩ |
    ⟨-, -, k, -, hl⟩
  · rw [List.eq_nil_of_length_eq_zero hn]
    simp only [isBlank, Bool.or_eq_true, beq_iff_eq] at hb
    refine ⟨[], c, rfl, ?_⟩
    rcases hb with ((rfl | rfl) | rfl) | rfl <;> decide
  · have hxn : decide (x ≠ '\n') = true := by simpa using isIdentStart_ne hx (by decide)
    obtain ⟨h₁, hlt⟩ := takeWhile_local hxn (Nat.le_of_eq hn.symm) (x :: xs)
    rw [h₁] at hn
    omega
  · cases cs with
    | nil =>
      simp only [List.length_nil] at hn
      omega
    | cons d cs =>
      obtain ⟨rfl, rfl⟩ : d = '*' ∧ cs ++ x :: xs = ds := List.cons.inj he
      have hend := endsOutside_comment hm
      simp only [List.length_cons] at hn
      have hall : m = cs.length := by omega
      rw [List.take_append_of_le_length (Nat.le_of_eq hall),
        List.take_of_length_le (Nat.le_of_eq hall.symm)] at hend
      exact hend.append [c, '*']
  · exact endsOutside_lexeme hx hl

end

/-- A text that can be scanned starts with a word character only where a name or a number starts. -/
theorem not_isWord_of_scanPiece {c : Char} {cs : List Char} {r : Option Kind × Nat}
    (h : scanPiece c cs = .ok r) (hc : isIdentChar c = false) : Text.isWord c = false := by
  have hs : isIdentStart c = false := by
    cases hs : isIdentStart c with
    | false => rfl
    | true => rw [isIdentChar_of_isIdentStart hs] at hc; cases hc
  have hd : c.isDigit = false := by
    cases hd : c.isDigit with
    | false => rfl
    | true => simp [isIdentChar, hd] at hc
  obtain ⟨k?, n⟩ := r
  rcases scanPiece_eq_ok_iff.mp h with ⟨hb, -, -⟩ | ⟨rfl, -⟩ | ⟨rfl, -⟩ | ⟨-, -, k, -, hl⟩
  · simp only [isBlank, Bool.or_eq_true, beq_iff_eq] at hb
    rcases hb with ((rfl | rfl) | rfl) | rfl <;> decide
  · decide
  · decide
  · cases lexemeLength_eq_ok.mp hl with
    | delimiter hdel => exact not_isWord_of_isDelimiter hdel
    | string _ hm _ =>
      rcases stringMark?_eq_some_iff.mp hm with ⟨rfl, -⟩ | ⟨_, rfl, -⟩ | ⟨_, rfl, -⟩ | ⟨_, rfl, -⟩
      · decide
      · exact absurd hs (by decide)
      · exact absurd hs (by decide)
      · exact absurd hs (by decide)
    | quote _ hq _ =>
      rw [hq]
      decide
    | number _ _ _ hg =>
      rw [hg] at hd
      cases hd
    | ident _ _ _ _ hi =>
      rw [hi] at hs
      cases hs
    | mark _ _ _ _ _ hm => exact not_isWord_of_mem_singleMarks (markLength_eq_ok hm).1

end Scan

end WidgetView
