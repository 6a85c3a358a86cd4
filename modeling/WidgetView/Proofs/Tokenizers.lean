import WidgetView.Proofs.FirstTerminal
import WidgetView.Token.Nest

/-!
# Two tokenizers

The scanner and the terminals give the same token trees. At every place the first terminal that
matches takes the piece that the scanner takes there, and reducing by the grammar is nesting. The
one difference is a block comment without an end: the scanner refuses it, while its first two
characters are marks to the terminals.
-/
namespace WidgetView

namespace Terminal

open Pattern Scan

/-- Somewhere in the text no terminal matches. -/
def Stuck (cs : List Char) : Prop := ∀ p, (takeFrom p cs).2.isSome

theorem stuck_of_none {c : Char} {cs : List Char} (h : first? (c :: cs) = none) :
    Stuck (c :: cs) := by
  intro p
  rw [takeFrom, h]
  rfl

theorem stuck_of_some {c : Char} {cs : List Char} {t : Terminal} {n : Nat}
    (h : first? (c :: cs) = some (t, n)) (hs : Stuck (cs.drop n)) : Stuck (c :: cs) := by
  intro p
  have hp := hs (p.after (c :: cs.take n))
  rw [takeFrom, h]
  by_cases hd : t.isDropped <;> simpa [hd] using hp

theorem quote_mem_of_stringLength {raw : Bool} {cs : List Char} {n : Nat}
    (h : stringLength raw cs = .ok n) : '\x22' ∈ cs := by
  fun_induction stringLength raw cs generalizing n with
  | case1 => simp at h
  | case2 => simp
  | case3 => simp at h
  | case4 c cs hr ih =>
    cases hs : stringLength raw (c :: cs) with
    | error e => simp [hs, Except.map] at h
    | ok m => simpa using ih hs
  | case5 c cs hr ih =>
    cases hs : stringLength raw cs with
    | error e => simp [hs, Except.map] at h
    | ok m => simp [ih hs]
  | case6 c cs _ _ _ ih =>
    cases hs : stringLength raw cs with
    | error e => simp [hs, Except.map] at h
    | ok m => simp [ih hs]

theorem quote_not_mem_of_raw {cs : List Char} {e : LexFault}
    (h : stringLength true cs = .error e) : '\x22' ∉ cs := by
  generalize hraw : true = raw at h
  fun_induction stringLength raw cs with
  | case1 => simp
  | case2 => simp at h
  | case3 => simp
  | case4 c cs hr ih =>
    cases hs : stringLength raw (c :: cs) with
    | error e' => simpa [hs] using ih (by simpa [hs, Except.map] using h)
    | ok m => simp [hs, Except.map] at h
  | case5 c cs hr ih => exact absurd hraw.symm hr
  | case6 c cs hq _ _ ih =>
    cases hs : stringLength raw cs with
    | error e' => simpa [Ne.symm hq, hs] using ih (by simpa [hs, Except.map] using h)
    | ok m => simp [hs, Except.map] at h

/-- Where a raw string has no end, a plain string has none either. -/
theorem plain_error {raw : Bool} {cs : List Char} {e : LexFault}
    (h : stringLength raw cs = .error e) : ∃ f, stringLength false cs = .error f := by
  cases hs : stringLength false cs with
  | error f => exact ⟨f, rfl⟩
  | ok n =>
    cases raw with
    | false => simp [hs] at h
    | true => exact absurd (quote_mem_of_stringLength hs) (quote_not_mem_of_raw h)

theorem stuck_openQuote {raw : Bool} {cs : List Char} {e : LexFault}
    (h : stringLength raw cs = .error e) : Stuck ('\x22' :: cs) := by
  have hs : ∀ u ∈ ranked, u = string ∨ u.starts '\x22' = false := by decide
  obtain ⟨f, hf⟩ := plain_error h
  apply stuck_of_none
  apply first?_eq_none
  intro u hu
  rcases hs u hu with rfl | hu
  · simp [string_pattern, stringMark?, hf, Except.toOption]
  · exact pattern_eq_none hu cs

/-- A string without an end stops the terminals too, if only after its mark has been taken as a
word. -/
theorem stuck_of_stringMark {c : Char} {cs : List Char} {m : Nat} {raw : Bool} {e : LexFault}
    (hm : stringMark? c cs = some (m, raw)) (h : stringLength raw (cs.drop m) = .error e) :
    Stuck (c :: cs) := by
  have hstr : string.pattern (c :: cs) = none := by simp [string_pattern, hm, h, Except.toOption]
  have hword (hc : ∀ u ∈ ranked.take 6, u = string ∨ u.starts c = false)
      (hi : isIdentStart c = true) : first? (c :: cs) = some (ident, identLength cs) := by
    refine first?_eq_some 6 rfl ?_ ?_
    · intro u hu
      rcases hc u hu with rfl | hu
      · exact hstr
      · exact pattern_eq_none hu cs
    · simp [pattern, name_cons, hi, Nat.add_comm]
  have hq : isIdentChar '\x22' = false := by decide
  have hr : isIdentChar 'r' = true := by decide
  fun_cases stringMark? c cs with
  | case1 =>
    obtain ⟨rfl, rfl⟩ : 0 = m ∧ false = raw := by simpa [stringMark?] using hm
    exact stuck_openQuote (by simpa using h)
  | case2 ds =>
    obtain ⟨rfl, rfl⟩ : 1 = m ∧ false = raw := by simpa [stringMark?] using hm
    refine stuck_of_some (hword (by decide) (by decide)) ?_
    simpa [identLength, hq] using stuck_openQuote (by simpa using h)
  | case3 ds =>
    obtain ⟨rfl, rfl⟩ : 1 = m ∧ true = raw := by simpa [stringMark?] using hm
    refine stuck_of_some (hword (by decide) (by decide)) ?_
    simpa [identLength, hq] using stuck_openQuote (by simpa using h)
  | case4 ds =>
    obtain ⟨rfl, rfl⟩ : 2 = m ∧ true = raw := by simpa [stringMark?] using hm
    refine stuck_of_some (hword (by decide) (by decide)) ?_
    simpa [identLength, hq, hr] using stuck_openQuote (by simpa using h)
  | case5 _ _ h₁ h₂ h₃ h₄ => simp_all [stringMark?]

theorem after_mark {c : Char} {cs : List Char} {e : LexFault} (hs : isBlank c = false)
    (hd : isDelimiter c = false) (hk : markLength c cs = .error e) {u : Terminal}
    (hu : u ∈ ranked.drop 7) : u.pattern (c :: cs) = none := by
  have ho : ∀ d : Delimiter, c ≠ d.opening := by
    rintro d rfl
    cases d <;> exact absurd hd (by decide)
  have hc : ∀ d : Delimiter, c ≠ d.closing := by
    rintro d rfl
    cases d <;> exact absurd hd (by decide)
  simp only [ranked, List.drop_succ_cons, List.drop_zero, List.mem_cons, List.not_mem_nil,
    or_false] at hu
  rcases hu with rfl | rfl | rfl | rfl | rfl | rfl | rfl | rfl
  · simp [punct_pattern, hk, Except.toOption]
  · simp [pattern, ho]
  · simp [pattern, ho]
  · simp [pattern, ho]
  · simp [pattern, hc]
  · simp [pattern, hc]
  · simp [pattern, hc]
  · simp [space_pattern, hs]

theorem stuck_lexeme {c : Char} {cs : List Char} {e : LexFault}
    (hl : lineComment.pattern (c :: cs) = none) (hb : blockComment.pattern (c :: cs) = none)
    (hs : isBlank c = false) (h : lexemeLength c cs = .error e) : Stuck (c :: cs) := by
  unfold lexemeLength at h
  split at h
  · simp at h
  · next hd =>
    split at h
    · next m raw hm =>
      cases hn : stringLength raw (cs.drop m) with
      | error e => exact stuck_of_stringMark hm hn
      | ok x => simp [hn, Except.map] at h
    · next hm =>
      split at h
      · next hc =>
        have hq := name_of_quoteLength cs
        have hu : ∀ u ∈ ranked, u = char ∨ u = lifetime ∨ u.starts '\x27' = false := by decide
        rw [h] at hq
        apply stuck_of_none
        apply first?_eq_none
        intro u hmem
        rcases hu u hmem with rfl | rfl | hu
        · simp [char_pattern, h]
        · simp only at hq
          simp [lifetime_pattern, hq]
        · exact pattern_eq_none (hc ▸ hu) cs
      · next hc =>
        split at h
        · simp at h
        · next hg =>
          split at h
          · simp at h
          · next hi =>
            simp only [Bool.not_eq_true] at hd hg hi
            cases hk : markLength c cs with
            | ok x => simp [hk, Except.map] at h
            | error f =>
              apply stuck_of_none
              apply first?_eq_none
              intro u hmem
              rw [← List.take_append_drop 7 ranked, List.mem_append] at hmem
              rcases hmem with hmem | hmem
              · exact before_mark hl hb hm hc hg hi hmem
              · exact after_mark hs hd hk hmem

/-- The terminal for blanks takes a run of them, the scanner one; the rest of the run is the
same. -/
theorem takeFrom_blank {c : Char} (h : isBlank c = true) (p : Place) (cs : List Char) :
    takeFrom p (c :: cs) = takeFrom (p.next c) cs := by
  rw [takeFrom, first?_blank h]
  cases cs with
  | nil => simp [isDropped]
  | cons d ds =>
    by_cases hd : isBlank d
    · rw [takeFrom, first?_blank hd]
      simp [isDropped, hd]
    · simp [isDropped, hd]

theorem takeFrom_dropped {c : Char} {cs : List Char} {t : Terminal} {n : Nat}
    (h : first? (c :: cs) = some (t, n)) (hd : t.isDropped = true) (p : Place) :
    takeFrom p (c :: cs) = takeFrom (p.after (c :: cs.take n)) (cs.drop n) := by
  rw [takeFrom, h]
  simp [hd]

end Terminal

/-- A lexeme as the terminals take it. -/
def Taken.ofLexeme (l : Lexeme) : Taken := ⟨Terminal.ofLexeme l, l.text, l.span⟩

namespace Terminal

open Pattern Scan

theorem takeFrom_blankPiece {c : Char} {cs : List Char} {n : Nat}
    (h : scanPiece c cs = .ok (none, n)) (p : Place) :
    takeFrom p (c :: cs) = takeFrom (p.after (c :: cs.take n)) (cs.drop n) := by
  unfold scanPiece at h
  split at h
  · next hb =>
    obtain rfl : 0 = n := by simpa using h
    simpa using takeFrom_blank hb p cs
  · split at h
    · next ds _ =>
      obtain rfl : 1 + (ds.takeWhile (· ≠ '\n')).length = n := by
        simpa [Nat.add_comm] using h
      refine takeFrom_dropped (first?_eq_some 0 rfl (by simp) ?_) rfl p
      simp [lineComment_pattern]
      omega
    · next ds _ =>
      cases hc : commentLength ds with
      | none => simp [hc] at h
      | some m =>
        obtain rfl : 1 + m = n := by simpa [hc] using h
        refine takeFrom_dropped (first?_eq_some 1 rfl ?_ ?_) rfl p
        · simp [ranked, lineComment_pattern]
        · simp [blockComment_pattern, hc]
          omega
    · cases hl : lexemeLength c cs <;> simp [hl, Except.map] at h

theorem no_comment {c : Char} {cs : List Char} (h₁ : ∀ ds, c = '/' → cs = '/' :: ds → False)
    (h₂ : ∀ ds, c = '/' → cs = '*' :: ds → False) :
    lineComment.pattern (c :: cs) = none ∧ blockComment.pattern (c :: cs) = none := by
  rw [lineComment_pattern, blockComment_pattern]
  by_cases hc : c = '/'
  · simp only [hc, ↓reduceIte]
    constructor
    · split
      · next ds => exact (h₁ ds hc rfl).elim
      · rfl
    · split
      · next ds => exact (h₂ ds hc rfl).elim
      · rfl
  · simp [hc]

theorem takeFrom_lexeme {c : Char} {cs : List Char} {k : Kind} {n : Nat}
    (h : scanPiece c cs = .ok (some k, n)) (p : Place) :
    takeFrom p (c :: cs) =
      (Taken.ofLexeme ⟨k, String.ofList (c :: cs.take n), p.spanTo (p.after (c :: cs.take n))⟩ ::
        (takeFrom (p.after (c :: cs.take n)) (cs.drop n)).1,
        (takeFrom (p.after (c :: cs.take n)) (cs.drop n)).2) := by
  unfold scanPiece at h
  split at h
  · simp at h
  · split at h
    · simp at h
    · split at h <;> simp at h
    · next _ _ h₁ h₂ =>
      obtain ⟨hl, hb⟩ := no_comment (fun ds hc he => h₁ ds hc he) (fun ds hc he => h₂ ds hc he)
      cases hx : lexemeLength c cs with
      | error e => simp [hx, Except.map] at h
      | ok r =>
        obtain ⟨rfl, rfl⟩ : r.1 = k ∧ r.2 = n := by simpa [hx, Except.map] using h
        rw [takeFrom, first?_lexeme hl hb hx (p.spanTo (p.after (c :: cs.take r.2)))]
        simp [isDropped_ofLexeme, Taken.ofLexeme]

theorem stuck_piece {c : Char} {cs : List Char} {f : LexFault} (h : scanPiece c cs = .error f)
    (hf : f ≠ .unterminatedComment) : Stuck (c :: cs) := by
  unfold scanPiece at h
  split at h
  · simp at h
  · next hs =>
    split at h
    · simp at h
    · split at h
      · simp at h
      · exact absurd (by simpa using h.symm) hf
    · next _ _ h₁ h₂ =>
      obtain ⟨hl, hb⟩ := no_comment (fun ds hc he => h₁ ds hc he) (fun ds hc he => h₂ ds hc he)
      cases hx : lexemeLength c cs with
      | error e => exact stuck_lexeme hl hb (by simpa using hs) hx
      | ok r => simp [hx, Except.map] at h

/-- What the terminals make of a text that the scanner has read. -/
def Follows (taken : List Taken × Option Place) : Except LexError (List Lexeme) → Prop
  | .ok ls => taken = (ls.map Taken.ofLexeme, none)
  | .error e => e.fault = .unterminatedComment ∨ taken.2.isSome

/-- The terminals follow the scanner through a whole text, up to an unterminated comment. -/
theorem follows_scanFrom (p : Place) (cs : List Char) :
    Follows (takeFrom p cs) (scanFrom p cs) := by
  fun_induction scanFrom p cs with
  | case1 p => simp [takeFrom, Follows]
  | case2 p c cs f h =>
    by_cases hf : f = .unterminatedComment
    · exact .inl hf
    · exact .inr (stuck_piece h hf p)
  | case3 p c cs k n h text e he ih =>
    rw [he] at ih
    rcases ih with ih | ih
    · exact .inl ih
    · cases k with
      | none => exact .inr (by rw [takeFrom_blankPiece h]; exact ih)
      | some k => exact .inr (by rw [takeFrom_lexeme h]; exact ih)
  | case4 p c cs n text ls hls h ih =>
    rw [hls] at ih
    rw [takeFrom_blankPiece h]
    exact ih
  | case5 p c cs n text ls hls k h ih =>
    rw [hls] at ih
    simp only [Follows] at ih
    rw [takeFrom_lexeme h, ih]
    rfl

/-- Terminals that are stuck give no trees. -/
theorem reduce_stuck {q : Place} {last : Nat × Nat} {groups : List OpenGroup} {done : List Token}
    {xs : List Taken} {ts : List Token} : reduce (some q) last groups done xs ≠ .ok ts := by
  induction xs generalizing last groups done with
  | nil => simp [reduce]
  | cons x xs ih =>
    simp only [reduce]
    split
    · exact ih
    · split
      · split
        · exact ih
        · simp
      · simp
    · split
      · exact ih
      · exact ih

/-- An open group of the scanner's nesting, as the grammar's stack keeps it. -/
def groupOf (f : Nest.Frame) : OpenGroup := (f.delimiter, f.span, f.before)

theorem ofLexeme_opening {l : Lexeme} {d : Delimiter} (h : l.opening? = some d) :
    ofLexeme l = opening d := by
  simp [ofLexeme, h]

theorem ofLexeme_closing {l : Lexeme} {d : Delimiter} (h : l.opening? = none)
    (h' : l.closing? = some d) : ofLexeme l = closing d := by
  simp [ofLexeme, h, h']

theorem ofLexeme_leaf {l : Lexeme} (h : l.opening? = none) (h' : l.closing? = none) :
    ofLexeme l = ofKind l.kind := by
  simp [ofLexeme, h, h']

/-- Reducing by the grammar gives trees exactly when nesting does, and the same ones. -/
theorem reduce_ok_iff (last : Nat × Nat) (stack : List Nest.Frame) (done : List Token)
    (ls : List Lexeme) (ts : List Token) :
    reduce none last (stack.map groupOf) done (ls.map Taken.ofLexeme) = .ok ts ↔
      Nest.nestFrom stack done ls = .ok ts := by
  induction ls generalizing last stack done with
  | nil => cases stack <;> simp [reduce, Nest.nestFrom]
  | cons l ls ih =>
    cases ho : l.opening? with
    | some d =>
      have h := ih (l.span.line, l.span.column) (⟨d, l.span, done⟩ :: stack) []
      simpa [reduce, Nest.nestFrom, Taken.ofLexeme, ofLexeme_opening ho, ho, groupOf] using h
    | none =>
      cases hc : l.closing? with
      | none =>
        have h := ih (l.span.line, l.span.column) stack (.leaf l :: done)
        have hn : Nest.nestFrom stack done (l :: ls) =
            Nest.nestFrom stack (.leaf l :: done) ls := by
          simp [Nest.nestFrom, ho, hc]
        rw [hn, ← h, List.map_cons, Taken.ofLexeme, ofLexeme_leaf ho hc]
        obtain ⟨k, text, span⟩ := l
        cases k <;> simp [reduce, ofKind, kind?]
      | some d =>
        cases stack with
        | nil =>
          simp [reduce, Nest.nestFrom, Taken.ofLexeme, ofLexeme_closing ho hc, ho, hc]
        | cons f fs =>
          by_cases hd : f.delimiter = d
          · have h :=
              ih (l.span.line, l.span.column) fs (f.close done.reverse l.span.stop :: f.before)
            simpa [reduce, Nest.nestFrom, Taken.ofLexeme, ofLexeme_closing ho hc, ho,
              hc, groupOf, hd, Nest.Frame.close] using h
          · simp [reduce, Nest.nestFrom, Taken.ofLexeme, ofLexeme_closing ho hc, ho,
              hc, groupOf, hd]

end Terminal

/-- Where the scanner gives trees the grammar gives the same; where the scanner fails and the
grammar does not, a block comment has no end. -/
theorem tokenizers_agree (source : List Char) :
    (∀ ts, tokenize source = .ok ts → tokenizeByGrammar source = .ok ts) ∧
      ∀ e ts, tokenize source = .error e → tokenizeByGrammar source = .ok ts →
        e.fault.message = "Unterminated block comment" := by
  have hf := Terminal.follows_scanFrom {} source
  cases hs : Scan.scanFrom {} source with
  | error e =>
    have ht : tokenize source = .error e := by simp [tokenize, scan, hs, bind, Except.bind]
    constructor
    · intro ts h
      simp [ht] at h
    · intro e' ts h hg
      obtain rfl : e = e' := by simpa [ht] using h
      rw [hs] at hf
      rcases hf with hf | hf
      · rw [hf]; rfl
      · rcases hr : Terminal.takeFrom {} source with ⟨xs, stuck⟩
        rw [hr] at hf
        obtain ⟨q, rfl⟩ := Option.isSome_iff_exists.1 hf
        rw [tokenizeByGrammar, hr] at hg
        exact absurd hg Terminal.reduce_stuck
  | ok ls =>
    have hg : ∀ ts, tokenizeByGrammar source = .ok ts ↔ tokenize source = .ok ts := by
      intro ts
      rw [hs] at hf
      have ht : tokenize source = nest ls := by simp [tokenize, scan, hs, bind, Except.bind]
      rw [ht, tokenizeByGrammar, hf]
      exact Terminal.reduce_ok_iff (1, 1) [] [] ls ts
    constructor
    · intro ts h
      exact (hg ts).2 h
    · intro e ts h hok
      simp [(hg ts).1 hok] at h

/-- A raw string that ends in a backslash before a group, and marks that only the scanner takes for
the beginning of a comment. -/
theorem tokenizers_agree_samples :
    (∃ ts, tokenize "r\"\\\"('b)".toList = .ok ts ∧
      tokenizeByGrammar "r\"\\\"('b)".toList = .ok ts) ∧
      ∃ e ts, tokenize "a/*".toList = .error e ∧ tokenizeByGrammar "a/*".toList = .ok ts ∧
        e.fault.message = "Unterminated block comment" := by
  have h₁ : tokenize "r\"\\\"('b)".toList =
      .ok [.leaf ⟨.string, "r\"\\\"", ⟨1, 1, 0, 4⟩⟩,
        .group .paren [.leaf ⟨.lifetime, "'b", ⟨1, 6, 5, 7⟩⟩] ⟨1, 5, 4, 8⟩] := by cbv
  have h₂ : tokenize "a/*".toList = .error ⟨.unterminatedComment, 1, 2⟩ := by cbv
  have h₃ : tokenizeByGrammar "a/*".toList =
      .ok [.leaf ⟨.ident, "a", ⟨1, 1, 0, 1⟩⟩, .leaf ⟨.punct, "/", ⟨1, 2, 1, 2⟩⟩,
        .leaf ⟨.punct, "*", ⟨1, 3, 2, 3⟩⟩] := by cbv
  exact ⟨⟨_, h₁, (tokenizers_agree _).1 _ h₁⟩, _, _, h₂, h₃, (tokenizers_agree _).2 _ _ h₂ h₃⟩

end WidgetView
