import WidgetView.Proofs.Layout

/-!
# Well-nested brackets

Token trees written out. A source that can be scanned has token trees exactly if its brackets are
well nested, and written out with their delimiters the trees are its lexemes again. Otherwise the
error of the source is about the bracket that is blamed.
-/
namespace WidgetView

/-- The span between two offsets of a source. -/
def spanBetween (source : List Char) (m n : Nat) : Span :=
  (({} : Place).after (source.take m)).spanTo (({} : Place).after (source.take n))

mutual

/-- Token trees as lexemes of their source: a leaf as it is, and of a group the opening delimiter,
the children and the closing delimiter. -/
def Token.written (source : List Char) : Token → List Lexeme
  | .leaf l => [l]
  | .group d cs s =>
    ⟨.punct, String.ofList [d.opening], { s with stop := s.start + 1 }⟩ ::
      (written source cs ++
        [⟨.punct, String.ofList [d.closing], spanBetween source (s.stop - 1) s.stop⟩])

def written (source : List Char) : List Token → List Lexeme
  | [] => []
  | t :: ts => t.written source ++ written source ts

end

theorem Scan.Stands.span_eq {source : List Char} {n : Nat} {l : Lexeme} (h : Stands source n l) :
    l.span = spanBetween source l.span.start l.span.stop := by
  obtain ⟨-, front, rest, rfl, -, hspan⟩ := h
  have hstart : l.span.start = front.length := by simp [hspan, Place.spanTo]
  have hstop : l.span.stop = (front ++ l.text.toList).length := by simp [hspan, Place.spanTo]
  rw [spanBetween, hstart, hstop, List.take_left, ← List.append_assoc, List.take_left]
  exact hspan

theorem Lexeme.eq_of_bracket? {l : Lexeme} {b : Bracket} (h : l.bracket? = some b) :
    l = ⟨.punct, String.ofList [b.char], l.span⟩ := by
  have hl := Nest.eq_of_bracket? h
  obtain ⟨k, text, span⟩ := l
  simp only [Scan.unplaced, markOf, Lexeme.mk.injEq, and_true] at hl ⊢
  exact hl

theorem Lexeme.stop_of_bracket? {l : Lexeme} {b : Bracket} (h : l.bracket? = some b)
    (hm : l.Measured) : l.span.stop = l.span.start + 1 := by
  rw [Measured, eq_of_bracket? h] at hm
  simpa using hm

/-- Trees of lexemes that stand in a source are written out as these lexemes. -/
theorem Nest.Nests.written_eq {source : List Char} {ls : List Lexeme} {ts : List Token}
    (h : Nests ls ts) (hs : ∀ l ∈ ls, Scan.Stands source 0 l) : written source ts = ls := by
  induction h with
  | nil => rfl
  | leaf _ _ ih =>
    rw [WidgetView.written, Token.written, ih (List.forall_mem_cons.mp hs).2, List.singleton_append]
  | @group o c ls ms d cs ts ho hc _ _ ihi ihr =>
    obtain ⟨hso, hs⟩ := List.forall_mem_cons.mp hs
    obtain ⟨hls, hs⟩ := List.forall_mem_append.mp hs
    obtain ⟨hsc, hms⟩ := List.forall_mem_cons.mp hs
    have hopening :
        (⟨.punct, String.ofList [d.opening], { o.span with stop := o.span.start + 1 }⟩ : Lexeme) =
        o := by
      rw [← Lexeme.stop_of_bracket? ho hso.measured]
      exact (Lexeme.eq_of_bracket? ho).symm
    have hclosing :
        (⟨.punct, String.ofList [d.closing], spanBetween source (c.span.stop - 1) c.span.stop⟩ :
          Lexeme) =
        c := by
      have hstart : c.span.stop - 1 = c.span.start := by
        rw [Lexeme.stop_of_bracket? hc hsc.measured, Nat.add_sub_cancel]
      rw [hstart, ← hsc.span_eq]
      exact (Lexeme.eq_of_bracket? hc).symm
    rw [WidgetView.written, Token.written, ihi hls, ihr hms, hopening, hclosing, List.cons_append,
      List.append_assoc, List.singleton_append]

open Nest (Nests)

/-- A source that can be scanned has the token trees of its lexemes, or one of its brackets is
blamed. -/
theorem tokenize_outcome {source : List Char} {ls : List Lexeme} (hs : scan source = .ok ls) :
    match tokenize source with
    | .ok ts => Nests ls ts
    | .error e => Blamed ls e := by
  have htokenize : tokenize source = nest ls := by simp [tokenize, hs, bind, Except.bind]
  rw [htokenize]
  exact nest_outcome ls

theorem tokenize_of_wellNested {source : List Char} {ls : List Lexeme} (hs : scan source = .ok ls)
    (hw : WellNested (brackets ls)) : ∃ ts, tokenize source = .ok ts ∧ Nests ls ts := by
  have houtcome := tokenize_outcome hs
  cases ht : tokenize source with
  | ok ts =>
    rw [ht] at houtcome
    exact ⟨ts, rfl, houtcome⟩
  | error e =>
    rw [ht] at houtcome
    exact absurd hw houtcome.not_wellNested

theorem nests_of_tokenize {source : List Char} {ts : List Token} (h : tokenize source = .ok ts) :
    ∃ ls, scan source = .ok ls ∧ Nests ls ts := by
  obtain ⟨ls, hs, hn⟩ := tokenize_eq_ok.mp h
  exact ⟨ls, hs, nest_eq_ok_iff.mp hn⟩

/-- A source that can be scanned has token trees exactly if its brackets are well nested, and
written out they are its lexemes again. Otherwise the error is about the first closing bracket that
does not fit, or about the innermost group left open if all of them fit. -/
theorem tokenize_iff_wellNested {source : List Char} {ls : List Lexeme}
    (hs : scan source = .ok ls) :
    ((∃ ts, tokenize source = .ok ts) ↔ WellNested (brackets ls)) ∧
      (∀ ts, tokenize source = .ok ts → written source ts = ls) ∧
      (¬WellNested (brackets ls) → ∃ e, tokenize source = .error e ∧ Blamed ls e) := by
  have houtcome := tokenize_outcome hs
  cases ht : tokenize source with
  | ok ts =>
    rw [ht] at houtcome
    have hnests : Nests ls ts := houtcome
    refine ⟨⟨fun _ => hnests.wellNested, fun _ => ⟨ts, rfl⟩⟩, ?_,
      fun hno => absurd hnests.wellNested hno⟩
    intro ts' hts'
    obtain rfl := Except.ok.inj hts'
    exact hnests.written_eq ((Scan.layout_of_scanFrom hs).stands [] rfl)
  | error e =>
    rw [ht] at houtcome
    have hblamed : Blamed ls e := houtcome
    exact ⟨⟨by simp, fun hw => absurd hw hblamed.not_wellNested⟩, by simp,
      fun _ => ⟨e, rfl, hblamed⟩⟩

/-- Groups in a group, a closing bracket of another kind than the innermost open group, and two
groups left open. -/
theorem tokenize_iff_wellNested_samples :
    (∃ ls ts, scan "f(a[0], [])".toList = .ok ls ∧ tokenize "f(a[0], [])".toList = .ok ts ∧
      WellNested (brackets ls) ∧ written "f(a[0], [])".toList ts = ls) ∧
    (∃ ls, scan "(a\n[] \x7d) )".toList = .ok ls ∧
      Blamed ls ⟨.mismatchedClosing .brace .paren, 2, 4⟩) ∧
    ∃ ls, scan "\x7b ( []".toList = .ok ls ∧ Blamed ls ⟨.unclosed .paren, 1, 3⟩ := by
  have hblamed : ∀ (source : List Char) (e : LexError),
      (scan source).toOption.any (fun _ => true) = true →
      tokenize source = .error e → ∃ ls, scan source = .ok ls ∧ Blamed ls e := by
    intro source e hscan ht
    obtain ⟨ls, hs, -⟩ := exists_ok_of_any hscan
    obtain ⟨hiff, -, herror⟩ := tokenize_iff_wellNested hs
    have hno : ¬WellNested (brackets ls) := by
      rw [← hiff, ht]
      simp
    obtain ⟨e', he', hb⟩ := herror hno
    obtain rfl := Except.error.inj (ht.symm.trans he')
    exact ⟨ls, hs, hb⟩
  refine ⟨?_, hblamed _ _ (by decide +kernel) (by cbv), hblamed _ _ (by decide +kernel) (by cbv)⟩
  obtain ⟨ls, hs, -⟩ :=
    exists_ok_of_any (x := scan "f(a[0], [])".toList) (p := fun _ => true) (by decide +kernel)
  obtain ⟨ts, ht, -⟩ :=
    exists_ok_of_any (x := tokenize "f(a[0], [])".toList) (p := fun _ => true) (by decide +kernel)
  obtain ⟨hiff, hwritten, -⟩ := tokenize_iff_wellNested hs
  exact ⟨ls, ts, hs, ht, hiff.mp ⟨ts, ht⟩, hwritten ts ht⟩

end WidgetView
