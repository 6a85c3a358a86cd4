import WidgetView.Parse.Cursor
import WidgetView.Parse.Value
import WidgetView.Proofs.Layout

/-!
# Cursors

The parser takes a run of tokens as a list, with the position to report at its end. A cursor is such
a run by what is left behind it: looking ahead, advancing, passing a mark and entering a group are
what the parser does with the list.
-/
namespace WidgetView.Cursor

variable {c d : Cursor} {t : Token} {ts us : List Token} {mark place : String}

theorem atEnd_iff : c.atEnd = true ↔ c.rest = [] := by
  simp [atEnd, rest]

/-- Looking ahead is looking into what is left. -/
theorem peek_ofNat (c : Cursor) (n : Nat) : c.peek n = .ok c.rest[n]? := by
  have hle : 0 ≤ (c.position : Int) + n := by omega
  have hindex : ((c.position : Int) + n).toNat = c.position + n := by omega
  simp only [peek, if_pos hle, hindex, rest, List.getElem?_drop]

/-- Looking back goes round the start once, and then fails. -/
theorem peek_eq_error_iff {offset : Int} {e : PeekFault} :
    c.peek offset = .error e ↔ c.tokens.length + c.position + offset < 0 := by
  cases e
  simp only [peek]
  split
  · simp only [reduceCtorEq, false_iff]
    omega
  · split
    · simp only [reduceCtorEq, false_iff]
      omega
    · simp only [true_iff]
      omega

/-! ### Advancing -/

theorem advance_eq_ok_iff : c.advance = .ok (t, d) ↔
    c.rest = t :: d.rest ∧ d = { c with position := c.position + 1 } := by
  have hnext : ∀ u us, c.rest = u :: us → (rest { c with position := c.position + 1 }) = us := by
    intro u us h
    have htail := congrArg List.tail h
    rwa [rest, List.tail_drop] at htail
  unfold advance
  split
  · next h => simp [h]
  · next u us h =>
    simp only [Except.ok.injEq, Prod.mk.injEq, h, List.cons.injEq]
    constructor
    · rintro ⟨rfl, rfl⟩
      exact ⟨⟨rfl, (hnext _ _ h).symm⟩, rfl⟩
    · rintro ⟨⟨rfl, -⟩, rfl⟩
      exact ⟨rfl, rfl⟩

theorem advance_eq_error_iff {e : ParseError} :
    c.advance = .error e ↔ c.rest = [] ∧ e = ParseError.atStop .endOfInput c.stop := by
  unfold advance
  split
  · next h => simp [h, error, ParseError.here, eq_comm]
  · next h => simp [h]

/-- Advancing leads over some tokens from one cursor to another. -/
inductive Passes : Cursor → List Token → Cursor → Prop where
  | here (c : Cursor) : Passes c [] c
  | step {c d e : Cursor} {t : Token} {ts : List Token} (h : c.advance = .ok (t, d))
      (more : Passes d ts e) : Passes c (t :: ts) e

theorem Passes.rest_eq (h : Passes c ts d) : c.rest = ts ++ d.rest := by
  induction h with
  | here c => rfl
  | step h _ ih => rw [(advance_eq_ok_iff.mp h).1, ih, List.cons_append]

theorem Passes.stop_eq (h : Passes c ts d) : d.stop = c.stop := by
  induction h with
  | here c => rfl
  | step h _ ih =>
    obtain ⟨-, rfl⟩ := advance_eq_ok_iff.mp h
    exact ih

theorem exists_passes (h : c.rest = ts ++ us) : ∃ d, Passes c ts d ∧ d.rest = us := by
  induction ts generalizing c with
  | nil => exact ⟨c, .here c, h⟩
  | cons t ts ih =>
    cases hadvance : c.advance with
    | error e =>
      rw [(advance_eq_error_iff.mp hadvance).1] at h
      cases h
    | ok r =>
      obtain ⟨u, d⟩ := r
      rw [(advance_eq_ok_iff.mp hadvance).1, List.cons_append] at h
      obtain ⟨rfl, hrest⟩ := List.cons.inj h
      obtain ⟨e, hpasses, he⟩ := ih hrest
      exact ⟨e, .step hadvance hpasses, he⟩

/-! ### Marks -/

theorem matchPunct_eq_true_iff : c.matchPunct mark = (true, d) ↔
    ∃ t, c.advance = .ok (t, d) ∧ t.isPunctOf mark = true := by
  simp only [matchPunct, advance]
  split
  · simp
  · next t us h => cases hmark : t.isPunctOf mark <;> simp [hmark]

theorem matchPunct_eq_false_iff : c.matchPunct mark = (false, d) ↔
    d = c ∧ ∀ t ∈ c.rest.head?, t.isPunctOf mark = false := by
  have hsame : ((false, c) = (false, d)) ↔ d = c := by
    rw [Prod.mk.injEq, eq_self, true_and, eq_comm]
  unfold matchPunct
  split
  · next h =>
      simp only [hsame, h, List.head?_nil, Option.mem_def, reduceCtorEq, false_implies,
        implies_true, and_true]
  · next t us h => cases hmark : t.isPunctOf mark <;> simp [hsame, h, hmark]

/-- The parser drops a comma where a cursor matches one. -/
theorem rest_matchPunct_comma (c : Cursor) :
    (c.matchPunct ",").2.rest = Parse.skipComma c.rest := by
  rcases hmatch : c.matchPunct "," with ⟨_ | _, d⟩
  · obtain ⟨rfl, hhead⟩ := matchPunct_eq_false_iff.mp hmatch
    cases hrest : d.rest with
    | nil => rfl
    | cons t us =>
      have hcomma : Parse.isComma t = false := hhead t (by rw [hrest]; rfl)
      simp [Parse.skipComma, hcomma]
  · obtain ⟨t, hadvance, hcomma⟩ := matchPunct_eq_true_iff.mp hmatch
    have hcomma : Parse.isComma t = true := hcomma
    simp [(advance_eq_ok_iff.mp hadvance).1, Parse.skipComma, hcomma]

theorem expectPunct_eq_ok_iff : (∃ t, c.expectPunct mark place = .ok (t, d)) ↔
    c.matchPunct mark = (true, d) := by
  simp only [expectPunct, matchPunct]
  split
  · simp
  · next t us h => cases hmark : t.isPunctOf mark <;> simp

/-- A mark that is missing is told like everything that the parser wants. -/
theorem expectPunct_eq_error_iff {e : ParseError} : c.expectPunct mark place = .error e ↔
    c.matchPunct mark = (false, c) ∧ e = ParseError.expected c.stop c.rest (.punct mark place) := by
  simp only [expectPunct, matchPunct]
  split
  · next h => simp [h, eq_comm]
  · next t us h => cases hmark : t.isPunctOf mark <;> simp [h, eq_comm]

/-- Where a run of tokens with a property ends. -/
theorem takeWhile_iff {p : Token → Bool} {front : List Token} :
    ts.takeWhile p = front ∧ ts.dropWhile p = us ↔
      ts = front ++ us ∧ (∀ t ∈ front, p t = true) ∧ ∀ t ∈ us.head?, p t = false := by
  constructor
  · rintro ⟨rfl, rfl⟩
    refine ⟨List.takeWhile_append_dropWhile.symm, fun t => List.mem_takeWhile_imp, fun t ht => ?_⟩
    exact Bool.eq_false_of_not_eq_true fun hp => by
      have := List.head?_dropWhile_not p ts
      rw [Option.mem_def.mp ht] at this
      simp [hp] at this
  · rintro ⟨rfl, hfront, hback⟩
    rw [List.takeWhile_append_of_pos hfront, List.dropWhile_append_of_pos hfront]
    cases us with
    | nil => simp
    | cons t us => simp [hback t rfl]

/-- An expression is what is passed up to the next comma or the end. -/
theorem value_eq_ok_iff {wanted : Wanted} {e : Expr} :
    Parse.value c.stop wanted c.rest = .ok (e, us) ↔
    ∃ d, Passes c e.tokens d ∧ d.rest = us ∧ (∀ t ∈ e.tokens, Parse.isComma t = false) ∧
      (d.atEnd = true ∨ (d.matchPunct ",").1 = true) := by
  have hends : ∀ d : Cursor, d.atEnd = true ∨ (d.matchPunct ",").1 = true ↔
      ∀ t ∈ d.rest.head?, Parse.isComma t = true := by
    intro d
    rw [atEnd_iff, matchPunct]
    cases hrest : d.rest with
    | nil => simp
    | cons t us => cases hcomma : t.isPunctOf "," <;> simp [Parse.isComma, hcomma]
  have hvalue : Parse.value c.stop wanted c.rest = .ok (e, us) ↔
      c.rest.takeWhile (!Parse.isComma ·) = e.tokens ∧
        c.rest.dropWhile (!Parse.isComma ·) = us := by
    unfold Parse.value
    split
    · next h => simp [h, Expr.tokens]
    · next t more h =>
      obtain ⟨first, rest⟩ := e
      simp [h, Expr.tokens, and_assoc]
  rw [hvalue, takeWhile_iff]
  simp only [Bool.not_eq_true', Bool.not_eq_false']
  constructor
  · rintro ⟨hrest, hno, hend⟩
    obtain ⟨d, hpasses, rfl⟩ := exists_passes hrest
    exact ⟨d, hpasses, rfl, hno, (hends d).mpr hend⟩
  · rintro ⟨d, hpasses, rfl, hno, hend⟩
    exact ⟨hpasses.rest_eq, hno, (hends d).mp hend⟩

/-! ### Groups -/

theorem withStop_eq {stop : Nat × Nat} (h : stop.1 ≠ 0) : withStop ts stop = ⟨ts, 0, stop⟩ :=
  if_neg h

/-- A cursor over the contents of a group of a source has what the parser takes there: the contents,
and the place of the group for their end. -/
theorem ofGroup_eq {source : List Char} (h : tokenize source = .ok ts) {delimiter : Delimiter}
    {s : Span} (hg : .group delimiter us s ∈ descendants ts) :
    ofGroup (.group delimiter us s) = ⟨us, 0, s.position⟩ := by
  refine withStop_eq ?_
  have hline := (placed_of_tokenize h _ hg).line
  change s.line ≠ 0
  change s.line = _ at hline
  omega

end WidgetView.Cursor
