import Mathlib
import WidgetView.Token.Scan
import WidgetView.Token.Terminal

/-!
# What patterns take

What each pattern takes at the front of a text, said with the lengths that the scanner uses. A
pattern that begins with a fixed character is decided by that character; a repetition takes a
longest stretch.
-/
namespace WidgetView

namespace Pattern

@[simp] theorem one_nil (p : Char → Bool) : one p [] = none := rfl

@[simp] theorem one_cons (p : Char → Bool) (c : Char) (cs : List Char) :
    one p (c :: cs) = if p c then some 1 else none := rfl

@[simp] theorem all_nil : all [] = fun _ => some 0 := rfl

@[simp] theorem all_cons (a : Match) (as : List Match) : all (a :: as) = seq a (all as) := rfl

@[simp] theorem seq_one_nil (p : Char → Bool) (b : Match) : seq (one p) b [] = none := rfl

@[simp] theorem seq_one_cons (p : Char → Bool) (b : Match) (c : Char) (cs : List Char) :
    seq (one p) b (c :: cs) = if p c then (b cs).map (1 + ·) else none := by
  by_cases h : p c <;> simp [seq, h]

@[simp] theorem seq_done (a : Match) : seq a (fun _ => some 0) = a := by
  funext cs
  cases h : a cs <;> simp [seq, h]

theorem one_eq_none {a : Char} {cs : List Char} (h : ∀ ds, cs ≠ a :: ds) :
    one (· == a) cs = none := by
  cases cs with
  | nil => rfl
  | cons c cs =>
    have hc : c ≠ a := fun hc => h cs (by rw [hc])
    simp [hc]

theorem seq_one_eq_none {a : Char} {b : Match} {cs : List Char} (h : ∀ ds, cs ≠ a :: ds) :
    seq (one (· == a)) b cs = none := by
  simp [seq, one_eq_none h]

@[simp] theorem seq_opt_one_cons (p : Char → Bool) (b : Match) (c : Char) (cs : List Char) :
    seq (opt (one p)) b (c :: cs) = if p c then (b cs).map (1 + ·) else b (c :: cs) := by
  by_cases h : p c <;> simp [seq, opt, h]

theorem seq_seq (a b d : Match) : seq (seq a b) d = seq a (seq b d) := by
  funext cs
  cases ha : a cs with
  | none => simp [seq, ha]
  | some n =>
    cases hb : b (cs.drop n) with
    | none => simp [seq, ha, hb]
    | some m =>
      simp only [seq, ha, hb, Option.bind_some, Option.map_some, Option.map_map, List.drop_drop]
      congr 1
      funext k
      simp [Nat.add_assoc]

theorem lit_single {s : String} {a : Char} (h : s.toList = [a]) : lit s = one (· == a) := by
  funext cs
  have hl : s.length = 1 := by rw [← String.length_toList, h]; rfl
  cases cs with
  | nil => simp [lit, h]
  | cons c cs =>
    by_cases hc : a = c
    · simp [lit, h, hl, hc]
    · simp [lit, h, hc, Ne.symm hc]

theorem lit_pair {s : String} {a b : Char} (h : s.toList = [a, b]) :
    lit s = seq (one (· == a)) (one (· == b)) := by
  funext cs
  have hl : s.length = 2 := by rw [← String.length_toList, h]; rfl
  cases cs with
  | nil => simp [lit, h]
  | cons c cs =>
    cases cs with
    | nil => simp [lit, h]
    | cons d ds =>
      by_cases hc : a = c
      · by_cases hd : b = d
        · simp [lit, h, hl, hc, hd]
        · simp [lit, h, hc, hd, Ne.symm hd]
      · simp [lit, h, hc, Ne.symm hc]

/-- A repeated class of characters takes the longest stretch of them. -/
theorem repeated_one (p : Char → Bool) (cs : List Char) :
    repeated (one p) cs = (cs.takeWhile p).length := by
  induction cs with
  | nil => simp [repeated]
  | cons c cs ih =>
    by_cases h : p c
    · simp [repeated, h, ih]; omega
    · simp [repeated, h]

theorem seq_some {a b : Match} {c : Char} {cs : List Char} {n : Nat}
    (h : a (c :: cs) = some (n + 1)) :
    seq a b (c :: cs) = (b (cs.drop n)).map (n + 1 + ·) := by
  simp [seq, h]

theorem seq_many_stop {a b : Match} {cs : List Char} (h : a cs = none) :
    seq (many a) b cs = b cs := by
  cases cs with
  | nil => simp [seq, many, repeated]
  | cons c cs => simp [seq, many, repeated, h]

theorem seq_many_step {a b : Match} {c : Char} {cs : List Char} {n : Nat}
    (h : a (c :: cs) = some (n + 1)) :
    seq (many a) b (c :: cs) = (seq (many a) b (cs.drop n)).map (n + 1 + ·) := by
  simp only [seq, many, repeated, h, Option.bind_some, Option.map_map]
  rw [Nat.add_right_comm n 1, List.drop_succ_cons, ← List.drop_drop]
  congr 1
  funext k
  simp only [Function.comp]
  omega

theorem drop_takeWhile_length (p : Char → Bool) (cs : List Char) :
    cs.drop (cs.takeWhile p).length = cs.dropWhile p := by
  induction cs with
  | nil => rfl
  | cons c cs ih => by_cases h : p c <;> simp [h, ih]

theorem any_append (as bs : List Match) : any (as ++ bs) = either (any as) (any bs) := by
  funext cs
  simp [any, either, List.findSome?_append]

end Pattern

namespace Terminal

open Pattern Scan

theorem isLetter_eq : isLetter = isIdentStart := by
  funext c
  simp [isLetter, isIdentStart, Char.isAlpha, Char.isUpper, Char.isLower, Char.le_def]

theorem isNumeral_eq : isNumeral = Char.isDigit := by
  funext c
  simp [isNumeral, Char.isDigit, Char.le_def]

theorem isLetterOrNumeral_eq : isLetterOrNumeral = isIdentChar := by
  funext c
  simp [isLetterOrNumeral, isIdentChar, isLetter_eq, isNumeral_eq]

theorem isSpace_eq : isSpace = isBlank := by
  funext c
  rw [Bool.eq_iff_iff]
  simp [isSpace, isBlank, or_assoc]

theorem word_eq (cs : List Char) : word cs = some (identLength cs) := by
  simp [word, many, repeated_one, isLetterOrNumeral_eq, identLength]

theorem lineComment_pattern (c : Char) (cs : List Char) :
    lineComment.pattern (c :: cs) =
      if c = '/' then
        match cs with
        | '/' :: ds => some (2 + (ds.takeWhile (· ≠ '\n')).length)
        | _ => none
      else none := by
  have h : lit "//" = seq (one (· == '/')) (one (· == '/')) := lit_pair (by simp)
  have hp : (fun x : Char => x != '\n') = fun x => decide (x ≠ '\n') := by
    funext x
    by_cases hx : x = '\n' <;> simp [hx]
  by_cases hc : c = '/'
  · cases cs with
    | nil => simp [pattern, h, seq_seq]
    | cons d ds =>
      by_cases hd : d = '/'
      · subst hc hd
        simp [pattern, h, many, repeated_one, seq, hp]
      · simp [pattern, h, seq_seq, hd]
  · simp [pattern, h, seq_seq, hc]

/-- The shortest stretch that a block comment needs is the one that the scanner takes. -/
theorem upTo_commentEnd (cs : List Char) : upTo (lit "*/") cs = commentLength cs := by
  have h : lit "*/" = seq (one (· == '*')) (one (· == '/')) := lit_pair (by simp)
  fun_induction commentLength cs with
  | case1 => simp [upTo, h]
  | case2 cs => simp [upTo, h]
  | case3 c cs hne ih =>
    have hn : lit "*/" (c :: cs) = none := by
      rw [h]
      cases cs with
      | nil => simp
      | cons d ds =>
        by_cases hc : c = '*'
        · have hd : d ≠ '/' := fun hd => hne ds hc (by rw [hd])
          simp [hd]
        · simp [hc]
    simp [upTo, hn, ih]

theorem blockComment_pattern (c : Char) (cs : List Char) :
    blockComment.pattern (c :: cs) =
      if c = '/' then
        match cs with
        | '*' :: ds => (commentLength ds).map (2 + ·)
        | _ => none
      else none := by
  have h : lit "/*" = seq (one (· == '/')) (one (· == '*')) := lit_pair (by simp)
  by_cases hc : c = '/'
  · cases cs with
    | nil => simp [pattern, h, seq_seq]
    | cons d ds =>
      by_cases hd : d = '*'
      · subst hc hd
        simp [pattern, h, seq, upTo_commentEnd]
      · simp [pattern, h, seq_seq, hd]
  · simp [pattern, h, seq_seq, hc]

theorem rawBody_eq (cs : List Char) :
    seq (many (one (· != '\x22'))) (one (· == '\x22')) cs = (stringLength true cs).toOption := by
  generalize hraw : true = raw
  fun_induction stringLength raw cs with
  | case1 => simp [seq, many, repeated, Except.toOption]
  | case2 cs =>
    rw [seq_many_stop (by simp)]
    simp [Except.toOption]
  | case3 => subst hraw; simp [seq, many, repeated, Except.toOption]
  | case4 c cs hr ih =>
    rw [seq_many_step (n := 0) (by simp), List.drop_zero, ih]
    cases hs : stringLength raw (c :: cs) <;> simp [Except.toOption, Except.map, Nat.add_comm]
  | case5 => simp_all
  | case6 c cs h₁ h₂ h₃ ih =>
    rw [seq_many_step (n := 0) (by simpa using h₁), List.drop_zero, ih]
    cases hs : stringLength raw cs <;> simp [Except.toOption, Except.map, Nat.add_comm]

theorem plainBody_eq (cs : List Char) :
    seq (many (either escape (one fun c => c != '\x22' && c != '\\'))) (one (· == '\x22')) cs =
      (stringLength false cs).toOption := by
  have h : escape = seq (one (· == '\\')) (seq (one fun _ => true) fun _ => some 0) := by
    simp [escape, lit_single (s := "\\") (a := '\\') (by simp)]
  generalize hraw : false = raw
  fun_induction stringLength raw cs with
  | case1 => simp [seq, many, repeated, Except.toOption]
  | case2 cs =>
    rw [seq_many_stop (by simp [either, h])]
    simp [Except.toOption]
  | case3 =>
    rw [seq_many_stop (by simp [either, h])]
    simp [Except.toOption]
  | case4 => simp_all
  | case5 c cs hr ih =>
    rw [seq_many_step (n := 1) (by simp [either, h]), List.drop_one, List.tail_cons, ih]
    cases hs : stringLength raw cs <;> simp [Except.toOption, Except.map, Nat.add_comm]
  | case6 c cs h₁ h₂ h₃ ih =>
    have hc : c ≠ '\\' := by
      intro hc
      cases cs with
      | nil => exact h₂ hc rfl
      | cons d ds => exact h₃ d ds hc rfl
    have hq : c ≠ '\x22' := h₁
    rw [seq_many_step (n := 0) (by simp [either, h, hc, hq]), List.drop_zero, ih]
    cases hs : stringLength raw cs <;> simp [Except.toOption, Except.map, Nat.add_comm]

theorem string_pattern (c : Char) (cs : List Char) :
    string.pattern (c :: cs) =
      match stringMark? c cs with
      | some (n, raw) => ((stringLength raw (cs.drop n)).toOption).map (1 + n + ·)
      | none => none := by
  have hq : lit "\x22" = one (· == '\x22') := lit_single (by simp)
  have hb : lit "b" = one (· == 'b') := lit_single (by simp)
  have hr : lit "r" = one (· == 'r') := lit_single (by simp)
  have hraw (ds : List Char) : rawString ds =
      seq (opt (one (· == 'b'))) (seq (one (· == 'r')) (seq (one (· == '\x22'))
        fun cs => (stringLength true cs).toOption)) ds := by
    simp only [rawString, all_cons, all_nil, seq_done, hb, hr, hq, funext rawBody_eq]
  have hplain (ds : List Char) : plainString ds =
      seq (opt (one (· == 'b'))) (seq (one (· == '\x22'))
        fun cs => (stringLength false cs).toOption) ds := by
    simp only [plainString, all_cons, all_nil, seq_done, hb, hq, funext plainBody_eq]
  simp only [pattern, either, hraw, hplain]
  fun_cases stringMark? c cs with
  | case1 => simp
  | case2 ds => simp [Function.comp_def, ← Nat.add_assoc]
  | case3 ds => simp [Function.comp_def, ← Nat.add_assoc]
  | case4 ds => simp [Function.comp_def, ← Nat.add_assoc]
  | case5 _ _ h₁ h₂ h₃ h₄ =>
    have h₁ : c ≠ '\x22' := h₁
    by_cases hcb : c = 'b'
    · have hp : ∀ ds, cs ≠ '\x22' :: ds := fun ds he => h₂ ds hcb he
      cases cs with
      | nil => simp [hcb]
      | cons d ds =>
        by_cases hd : d = 'r'
        · have hn : ∀ es, ds ≠ '\x22' :: es := fun es he => h₄ es hcb (by rw [hd, he])
          simp [hcb, hd, seq_one_eq_none hn]
        · simp [hcb, hd, seq_one_eq_none hp]
    · by_cases hcr : c = 'r'
      · have hn : ∀ ds, cs ≠ '\x22' :: ds := fun ds he => h₃ ds hcr he
        simp [hcr, seq_one_eq_none hn]
      · simp [hcb, hcr, h₁]

theorem char_pattern (c : Char) (cs : List Char) :
    char.pattern (c :: cs) =
      if c = '\x27' then
        match quoteLength cs with
        | .ok (.char, n) => some (1 + n)
        | _ => none
      else none := by
  have hq : lit "'" = one (· == '\x27') := lit_single (by simp)
  have h : escape = seq (one (· == '\\')) (one fun _ => true) := by
    simp [escape, lit_single (s := "\\") (a := '\\') (by simp)]
  by_cases hc : c = '\x27'
  · simp only [pattern, all_cons, all_nil, seq_done, hq, seq_one_cons, hc, h]
    fun_cases quoteLength cs with
    | case1 => simp [seq, either]
    | case2 cs hne =>
      cases cs with
      | nil => simp [seq, either]
      | cons d ds =>
        have hd : one (· == '\x27') ds = none := one_eq_none fun es he => hne d es (by rw [he])
        simp [seq, either, hd]
    | case3 => simp [seq, either]
    | case4 d ds _ hb hd =>
      have hb : d ≠ '\\' := hb
      have hd : d ≠ '\x27' := hd
      simp [seq, either, hb, hd]
    | case5 d ds _ h₁ h₂ h₃ =>
      have hd : one (· == '\x27') ds = none := one_eq_none h₃
      simp_all [seq, either]
    | case6 d ds _ h₁ h₂ h₃ =>
      have hd : one (· == '\x27') ds = none := one_eq_none h₃
      simp_all [seq, either]
    | case7 => simp [seq, either]
  · simp [pattern, hq, hc]

theorem name_cons (c : Char) (cs : List Char) :
    name (c :: cs) = if isIdentStart c then some (1 + identLength cs) else none := by
  simp [name, isLetter_eq, word_eq]

theorem digits_cons (c : Char) (cs : List Char) :
    digits (c :: cs) = if c.isDigit then some (1 + identLength cs) else none := by
  simp [digits, isNumeral_eq, word_eq]

theorem number_pattern (c : Char) (cs : List Char) :
    number.pattern (c :: cs) = if c.isDigit then some (1 + numberLength cs) else none := by
  have hp : lit "." = one (· == '.') := lit_single (by simp)
  by_cases hc : c.isDigit
  · have hd : digits (c :: cs) = some (identLength cs + 1) := by
      simp [digits_cons, hc, Nat.add_comm]
    simp only [pattern, all_cons, all_nil, seq_done, hp, hc, ↓reduceIte, seq_some hd, opt,
      Option.map_some, numberLength]
    split
    · next d ds h =>
      by_cases hd : d.isDigit
      · simp [h, hd, digits_cons]; omega
      · simp [h, hd, digits_cons, Nat.add_comm]
    · next h =>
      have hn : seq (one (· == '.')) digits (cs.drop (identLength cs)) = none := by
        cases he : cs.drop (identLength cs) with
        | nil => rfl
        | cons d ds =>
          by_cases hd : d = '.'
          · cases ds with
            | nil => simp [hd, digits]
            | cons e es => exact absurd (by rw [he, hd]) (h e es)
          · simp [hd]
      simp [hn, Nat.add_comm]
  · simp [pattern, seq, digits_cons, hc]

theorem lifetime_pattern (c : Char) (cs : List Char) :
    lifetime.pattern (c :: cs) =
      if c = '\x27' then (name cs).map (1 + ·) else none := by
  have hq : lit "'" = one (· == '\x27') := lit_single (by simp)
  by_cases hc : c = '\x27' <;> simp [pattern, hq, hc]

theorem space_pattern (c : Char) (cs : List Char) :
    space.pattern (c :: cs) =
      if isBlank c then some (1 + (cs.takeWhile isBlank).length) else none := by
  simp [pattern, isSpace_eq, many, repeated_one]

/-- The marks of the scanner, written as strings. -/
theorem marks_eq :
    marks = doubleMarks.map (fun m => String.ofList [m.1, m.2]) ++
      singleMarks.map fun a => String.ofList [a] := by
  decide

theorem any_doubles (ms : List (Char × Char)) (c : Char) (cs : List Char) :
    any ((ms.map fun m => String.ofList [m.1, m.2]).map lit) (c :: cs) =
      match cs with
      | [] => none
      | d :: _ => if (c, d) ∈ ms then some 2 else none := by
  induction ms with
  | nil => cases cs <;> rfl
  | cons m ms ih =>
    have h : lit (String.ofList [m.1, m.2]) = seq (one (· == m.1)) (one (· == m.2)) :=
      lit_pair (by simp)
    simp only [any, List.map_cons, List.findSome?_cons] at ih ⊢
    cases cs with
    | nil => rw [h, ih]; simp
    | cons d ds =>
      by_cases hc : c = m.1 <;> by_cases hd : d = m.2 <;> simp_all [Prod.ext_iff]

theorem any_singles (as : List Char) (c : Char) (cs : List Char) :
    any ((as.map fun a => String.ofList [a]).map lit) (c :: cs) =
      if c ∈ as then some 1 else none := by
  induction as with
  | nil => rfl
  | cons a as ih =>
    have h : lit (String.ofList [a]) = one (· == a) := lit_single (by simp)
    simp only [any, List.map_cons, List.findSome?_cons] at ih ⊢
    by_cases hc : c = a <;> simp_all

theorem punct_pattern (c : Char) (cs : List Char) :
    punct.pattern (c :: cs) = ((markLength c cs).toOption).map (1 + ·) := by
  simp only [pattern, marks_eq, List.map_append, any_append, either, any_doubles, any_singles]
  fun_cases markLength c cs <;> simp_all [Except.toOption]

end Terminal

end WidgetView
