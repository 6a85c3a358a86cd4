import WidgetView.Proofs.Lookahead
import WidgetView.Proofs.Nesting

/-!
# Renaming in a source

Renaming one name in a source. Where another name stands in the place of one that the scanner found,
the scanner finds the same lexemes before and after it, and they nest in the same way.
-/
namespace WidgetView

namespace Scan

/-- A text that is a name for the scanner. -/
def IsName (cs : List Char) : Prop :=
  ∃ c ds, cs = c :: ds ∧ isIdentStart c = true ∧ ∀ d ∈ ds, isIdentChar d = true

namespace IsName

variable {word : List Char}

theorem iff_all : IsName word ↔ (word.head?.any isIdentStart && word.all isIdentChar) = true := by
  rw [Bool.and_eq_true]
  constructor
  · rintro ⟨c, ds, rfl, hc, hds⟩
    exact ⟨hc,
      List.all_eq_true.mpr (List.forall_mem_cons.mpr ⟨isIdentChar_of_isIdentStart hc, hds⟩)⟩
  · rintro ⟨hstart, hall⟩
    cases word with
    | nil => cases hstart
    | cons c ds =>
      exact ⟨c, ds, rfl, hstart, (List.forall_mem_cons.mp (List.all_eq_true.mp hall)).2⟩

instance : DecidablePred IsName := fun _ => decidable_of_iff _ iff_all.symm

theorem isWord (h : IsName word) : ∀ d ∈ word, Text.isWord d = true := by
  obtain ⟨c, ds, rfl, hc, hds⟩ := h
  intro d hd
  rcases List.mem_cons.mp hd with rfl | hd
  · exact isWord_of_isIdentChar (isIdentChar_of_isIdentStart hc)
  · exact isWord_of_isIdentChar (hds d hd)

theorem not_mem (h : IsName word) {d : Char} (hd : Text.isWord d = false) : d ∉ word := by
  intro hm
  rw [h.isWord d hm] at hd
  cases hd

theorem ne_nil (h : IsName word) : word ≠ [] := by
  obtain ⟨c, ds, rfl, -⟩ := h
  exact List.cons_ne_nil c ds

end IsName

/-- The lexeme of a piece, if it is no blank. -/
def lexemesOf (p : Place) (k? : Option Kind) (text : List Char) : List Lexeme :=
  match k? with
  | none => []
  | some k => [⟨k, String.ofList text, p.spanTo (p.after text)⟩]

theorem scanFrom_cons {c : Char} {cs : List Char} {k? : Option Kind} {n : Nat}
    (h : scanPiece c cs = .ok (k?, n)) (p : Place) :
    scanFrom p (c :: cs) = (scanFrom (p.after (c :: cs.take n)) (cs.drop n)).map
      (lexemesOf p k? (c :: cs.take n) ++ ·) := by
  rw [scanFrom, h]
  dsimp only
  cases scanFrom (p.after (c :: cs.take n)) (cs.drop n) with
  | error e => rfl
  | ok ls => cases k? <;> rfl

/-- The first piece of a text that can be scanned. -/
theorem exists_piece {p : Place} {c : Char} {cs : List Char} {ls : List Lexeme}
    (h : scanFrom p (c :: cs) = .ok ls) :
    ∃ k? n rest, scanPiece c cs = .ok (k?, n) ∧
      scanFrom (p.after (c :: cs.take n)) (cs.drop n) = .ok rest ∧
      ls = lexemesOf p k? (c :: cs.take n) ++ rest := by
  cases hp : scanPiece c cs with
  | error e =>
    rw [scanFrom, hp] at h
    cases h
  | ok r =>
    obtain ⟨k?, n⟩ := r
    rw [scanFrom_cons hp] at h
    cases hr : scanFrom (p.after (c :: cs.take n)) (cs.drop n) with
    | error e =>
      rw [hr] at h
      cases h
    | ok rest =>
      rw [hr] at h
      exact ⟨k?, n, rest, rfl, hr, (Except.ok.inj h).symm⟩

/-- What holds of the empty text, and of a piece with any text behind it of which it holds, holds of
every text that can be scanned. -/
theorem scanFrom_induction {motive : Place → List Char → List Lexeme → Prop}
    (nil : ∀ p, motive p [] [])
    (piece : ∀ p c cs k? n rest, scanPiece c cs = .ok (k?, n) →
      scanFrom (p.after (c :: cs.take n)) (cs.drop n) = .ok rest →
      motive (p.after (c :: cs.take n)) (cs.drop n) rest →
      motive p (c :: cs) (lexemesOf p k? (c :: cs.take n) ++ rest))
    (p : Place) (cs : List Char) (ls : List Lexeme) (h : scanFrom p cs = .ok ls) :
    motive p cs ls := by
  match cs, h with
  | [], h =>
    rw [scanFrom] at h
    obtain rfl := Except.ok.inj h
    exact nil p
  | c :: cs, h =>
    obtain ⟨k?, n, rest, hp, hr, rfl⟩ := exists_piece h
    have hlen : (cs.drop n).length < (c :: cs).length := by
      simp only [List.length_drop, List.length_cons]
      omega
    exact piece p c cs k? n rest hp hr (scanFrom_induction nil piece _ (cs.drop n) rest hr)
termination_by cs.length

theorem ident_of_lexes {c : Char} {cs : List Char} {n : Nat} (h : Lexes c cs .ident n) :
    isIdentStart c = true ∧ n = identLength cs := by
  generalize hk : Kind.ident = k at h
  cases h with
  | quote _ _ hn =>
    subst hk
    rcases kind_of_quoteLength hn with hk | hk <;> cases hk
  | ident _ _ _ _ hi => exact ⟨hi, rfl⟩
  | _ => cases hk

/-- A piece that is a name takes all the characters of a name that there are. -/
theorem name_of_scanPiece {c : Char} {cs : List Char} {n : Nat}
    (h : scanPiece c cs = .ok (some .ident, n)) :
    IsName (c :: cs.take n) ∧ ∀ d ∈ (cs.drop n).head?, isIdentChar d = false := by
  obtain ⟨-, -, hl⟩ := scanPiece_eq_lexeme_iff.mp h
  obtain ⟨hc, rfl⟩ := ident_of_lexes hl
  have htake : cs.take (identLength cs) = cs.takeWhile isIdentChar :=
    (List.prefix_iff_eq_take.mp (List.takeWhile_prefix isIdentChar)).symm
  have hdrop : cs.drop (identLength cs) = cs.dropWhile isIdentChar :=
    Pattern.drop_takeWhile_length isIdentChar cs
  rw [htake, hdrop]
  refine ⟨⟨c, _, rfl, hc, ?_⟩, ?_⟩
  · exact List.all_eq_true.mp List.all_takeWhile
  · intro d hd
    have hnot := List.head?_dropWhile_not isIdentChar cs
    rw [Option.mem_def.mp hd] at hnot
    simpa using hnot

theorem identLength_name {ds rest : List Char} (hds : ∀ d ∈ ds, isIdentChar d = true)
    (hrest : ∀ d ∈ rest.head?, isIdentChar d = false) : identLength (ds ++ rest) = ds.length := by
  rw [identLength, List.takeWhile_append_of_pos hds, List.length_append]
  cases rest with
  | nil => simp
  | cons d rest =>
    have hd := hrest d rfl
    rw [List.takeWhile_cons_of_neg (by simp [hd])]
    simp

theorem not_isBlank_of_isIdentStart {c : Char} (h : isIdentStart c = true) : isBlank c = false := by
  cases hb : isBlank c with
  | false => rfl
  | true =>
    simp only [isBlank, Bool.or_eq_true, beq_iff_eq] at hb
    rcases hb with ((rfl | rfl) | rfl) | rfl <;> exact absurd h (by decide)

theorem not_isDelimiter_of_isIdentStart {c : Char} (h : isIdentStart c = true) :
    isDelimiter c = false := by
  cases hd : isDelimiter c with
  | false => rfl
  | true =>
    have hword := isWord_of_isIdentChar (isIdentChar_of_isIdentStart h)
    rw [not_isWord_of_isDelimiter hd] at hword
    cases hword

/-- No string begins with a name before something that is neither part of it nor a quote. -/
theorem stringMark?_name {c : Char} {ds rest : List Char} (hc : isIdentStart c = true)
    (hds : ∀ d ∈ ds, isIdentChar d = true) (hrest : ∀ d ∈ rest.head?, isIdentChar d = false)
    (hquote : rest.head? ≠ some '\x22') : stringMark? c (ds ++ rest) = none := by
  have hchar : ∀ ds' e, (∀ d ∈ ds', isIdentChar d = true) → ds' ++ rest ≠ '\x22' :: e := by
    intro ds' e hds' he
    cases ds' with
    | nil =>
      rw [List.nil_append] at he
      exact hquote (by rw [he]; rfl)
    | cons d ds' =>
      obtain ⟨rfl, -⟩ := List.cons.inj he
      exact absurd (hds' _ List.mem_cons_self) (by decide)
  rw [Option.eq_none_iff_forall_ne_some]
  rintro ⟨m, raw⟩ hm
  rcases stringMark?_eq_some_iff.mp hm with ⟨rfl, -⟩ | ⟨e, -, he, -⟩ | ⟨e, -, he, -⟩ | ⟨e, -, he, -⟩
  · exact absurd hc (by decide)
  · exact hchar ds e hds he
  · exact hchar ds e hds he
  · cases ds with
    | nil =>
      rw [List.nil_append] at he
      have hr := hrest 'r' (by rw [he]; rfl)
      exact absurd hr (by decide)
    | cons d ds =>
      exact hchar ds e (fun d hd => hds d (List.mem_cons_of_mem _ hd)) (List.cons.inj he).2

/-- Where a name stands before something that is neither part of it nor a quote, it is a piece. -/
theorem scanPiece_name {c : Char} {ds rest : List Char} (hc : isIdentStart c = true)
    (hds : ∀ d ∈ ds, isIdentChar d = true) (hrest : ∀ d ∈ rest.head?, isIdentChar d = false)
    (hquote : rest.head? ≠ some '\x22') :
    scanPiece c (ds ++ rest) = .ok (some .ident, ds.length) := by
  have hlexes : Lexes c (ds ++ rest) .ident (identLength (ds ++ rest)) :=
    .ident (not_isDelimiter_of_isIdentStart hc) (stringMark?_name hc hds hrest hquote)
      (isIdentStart_ne hc (by decide)) (not_isDigit_of_isIdentStart hc) hc
  rw [identLength_name hds hrest] at hlexes
  exact scanPiece_lexeme (not_isBlank_of_isIdentStart hc) (isIdentStart_ne hc (by decide)) hlexes

/-- A name that the scanner found after the lexemes `front` and before the lexemes `back`. What it
finds before the place of the name does not depend on which name stands there. -/
structure NameAt (p : Place) (before rest : List Char) (front back : List Lexeme) (l : Lexeme) :
    Prop where
  name : IsName l.text.toList
  span : l.span = (p.after before).spanTo ((p.after before).after l.text.toList)
  back : scanFrom ((p.after before).after l.text.toList) rest = .ok back
  ends : ∀ d ∈ rest.head?, isIdentChar d = false
  outside : before = [] ∨ EndsOutside before
  front : ∀ y ys, isIdentStart y = true → scanFrom p (before ++ y :: ys) =
    (scanFrom (p.after before) (y :: ys)).map (front ++ ·)

theorem scanFrom_append {c : Char} {piece rest : List Char} {k? : Option Kind}
    (h : scanPiece c (piece ++ rest) = .ok (k?, piece.length)) (p : Place) :
    scanFrom p (c :: (piece ++ rest)) =
      (scanFrom (p.after (c :: piece)) rest).map (lexemesOf p k? (c :: piece) ++ ·) := by
  rw [scanFrom_cons h, List.take_left, List.drop_left]

/-- One more piece in front of a name. -/
theorem NameAt.push {p : Place} {c : Char} {piece before rest : List Char} {k? : Option Kind}
    {front back : List Lexeme} {l : Lexeme}
    (h : NameAt (p.after (c :: piece)) before rest front back l)
    (hp : scanPiece c (piece ++ (before ++ (l.text.toList ++ rest))) = .ok (k?, piece.length)) :
    NameAt p (c :: piece ++ before) rest (lexemesOf p k? (c :: piece) ++ front) back l := by
  obtain ⟨x, xs, hx, hxs, -⟩ := h.name
  have hafter : p.after (c :: piece ++ before) = (p.after (c :: piece)).after before :=
    Place.after_append _ _ _
  rw [hx, ← List.append_assoc, List.cons_append] at hp
  refine ⟨h.name, ?_, ?_, h.ends, Or.inr ?_, ?_⟩
  · rw [hafter]
    exact h.span
  · rw [hafter]
    exact h.back
  · rcases h.outside with rfl | hout
    · rw [List.append_nil] at hp ⊢
      exact endsOutside_piece hxs hp
    · exact hout.append _
  · intro y ys hy
    have hle : piece.length ≤ (piece ++ before).length := by simp
    -- the piece ends before the name begins, so it is the same piece before any other name
    have hlocal := scanPiece_local hxs hy hp hle ys
    rw [List.append_assoc] at hlocal
    rw [hafter, List.cons_append, List.cons_append, List.append_assoc, scanFrom_append hlocal p,
      h.front y ys hy]
    cases scanFrom ((p.after (c :: piece)).after before) (y :: ys) <;> simp [Except.map]

theorem lexemesOf_eq_append {p : Place} {k? : Option Kind} {text : List Char}
    {front back rest : List Lexeme} {l : Lexeme}
    (h : front ++ l :: back = lexemesOf p k? text ++ rest) :
    (front = [] ∧ rest = back ∧ ∃ k, k? = some k ∧
      l = ⟨k, String.ofList text, p.spanTo (p.after text)⟩) ∨
    ∃ more, front = lexemesOf p k? text ++ more ∧ more ++ l :: back = rest := by
  cases k? with
  | none => exact Or.inr ⟨front, rfl, h⟩
  | some k =>
    cases front with
    | nil =>
      obtain ⟨hl, hrest⟩ := List.cons.inj h
      exact Or.inl ⟨rfl, hrest.symm, k, rfl, hl⟩
    | cons m front =>
      obtain ⟨rfl, hrest⟩ := List.cons.inj h
      exact Or.inr ⟨front, rfl, hrest⟩

/-- Every name among the lexemes of a text stands somewhere in the text. -/
theorem exists_nameAt {p : Place} {source : List Char} {front back : List Lexeme} {l : Lexeme}
    (h : scanFrom p source = .ok (front ++ l :: back)) (hl : l.kind = .ident) :
    ∃ before rest, source = before ++ (l.text.toList ++ rest) ∧
      NameAt p before rest front back l := by
  generalize hls : front ++ l :: back = ls at h
  refine scanFrom_induction (motive := fun p source ls => ∀ front, front ++ l :: back = ls →
    ∃ before rest, source = before ++ (l.text.toList ++ rest) ∧
      NameAt p before rest front back l) ?_ ?_ p source ls h front hls
  · intro p front he
    simp at he
  · intro p c cs k? n rest hp hr ih front he
    rcases lexemesOf_eq_append he with ⟨rfl, rfl, k, rfl, rfl⟩ | ⟨more, rfl, hmore⟩
    · obtain rfl : k = .ident := hl
      obtain ⟨hname, hends⟩ := name_of_scanPiece hp
      refine ⟨[], cs.drop n, by simp, by simpa using hname, by simp, by simpa using hr, hends,
        Or.inl rfl, ?_⟩
      intro y ys _
      cases hy : scanFrom p (y :: ys) <;> simp [hy, Except.map]
    -- the name is further on: the piece at hand goes in front of what is known there
    · obtain ⟨before, after, hsplit, hat⟩ := ih more hmore
      have hcs : cs = cs.take n ++ (before ++ (l.text.toList ++ after)) := by
        rw [← hsplit, List.take_append_drop]
      have hn : (cs.take n).length = n := by
        obtain ⟨x, xs, hx, -⟩ := hat.name
        have hsize := congrArg List.length hsplit
        simp only [hx, List.length_drop, List.length_append, List.length_cons] at hsize
        rw [List.length_take]
        omega
      refine ⟨c :: cs.take n ++ before, after, ?_, hat.push ?_⟩
      · rw [List.cons_append, List.cons_append, List.append_assoc, ← hcs]
      · rw [← hcs, hn]
        exact hp

/-- A lexeme without its place. -/
def unplaced (l : Lexeme) : Lexeme := { l with span := ⟨0, 0, 0, 0⟩ }

theorem unplaced_lexemesOf (p q : Place) (k? : Option Kind) (text : List Char) :
    (lexemesOf p k? text).map unplaced = (lexemesOf q k? text).map unplaced := by
  cases k? <;> rfl

/-- Where a text stands has no influence on its lexemes. -/
theorem scanFrom_unplaced {p : Place} {cs : List Char} {ls : List Lexeme}
    (h : scanFrom p cs = .ok ls) (q : Place) :
    ∃ ls', scanFrom q cs = .ok ls' ∧ ls'.map unplaced = ls.map unplaced := by
  refine scanFrom_induction (motive := fun _ cs ls => ∀ q, ∃ ls', scanFrom q cs = .ok ls' ∧
    ls'.map unplaced = ls.map unplaced) ?_ ?_ p cs ls h q
  · intro p q
    exact ⟨[], by rw [scanFrom], rfl⟩
  · intro p c cs k? n rest hp _ ih q
    obtain ⟨rest', hr', hu⟩ := ih (q.after (c :: cs.take n))
    refine ⟨lexemesOf q k? (c :: cs.take n) ++ rest', ?_, ?_⟩
    · rw [scanFrom_cons hp, hr']
      rfl
    · rw [List.map_append, List.map_append, hu, unplaced_lexemesOf q p]

/-- A lexeme is a string exactly if it starts with a mark of one. -/
theorem kind_eq_string_iff {c : Char} {cs : List Char} {k : Kind} {n : Nat} (h : Lexes c cs k n) :
    k = .string ↔ (stringMark? c cs).isSome = true := by
  cases h with
  | delimiter hd =>
    have hne : ∀ d : Char, isDelimiter d = false → c ≠ d := by
      rintro d hno rfl
      rw [hno] at hd
      cases hd
    simp [Terminal.stringMark?_none (hne _ (by decide)) (hne _ (by decide)) (hne _ (by decide))]
  | string _ hm _ => simp [hm]
  | quote hm _ hn =>
    rcases kind_of_quoteLength hn with rfl | rfl <;> simp [hm]
  | number _ hm _ _ => simp [hm]
  | ident _ hm _ _ _ => simp [hm]
  | mark _ hm _ _ _ _ => simp [hm]

/-- A text that starts with neither a blank nor a slash starts with a lexeme. -/
theorem exists_lexeme {p : Place} {c : Char} {cs : List Char} {ls : List Lexeme}
    (h : scanFrom p (c :: cs) = .ok ls) (hb : isBlank c = false) (hs : c ≠ '/') :
    ∃ l rest n, ls = l :: rest ∧ Lexes c cs l.kind n := by
  obtain ⟨k?, n, rest, hp, -, rfl⟩ := exists_piece h
  obtain ⟨k, rfl, hl⟩ := exists_lexeme_of_scanPiece hp hb hs
  exact ⟨_, rest, n, rfl, hl⟩

/-- A text whose first lexeme is no string does not start with a quote. -/
theorem head?_ne_quote {p : Place} {cs : List Char} {m : Lexeme} {ls : List Lexeme}
    (h : scanFrom p cs = .ok (m :: ls)) (hm : m.kind ≠ .string) : cs.head? ≠ some '\x22' := by
  cases cs with
  | nil => simp
  | cons c cs =>
    intro hc
    obtain rfl : c = '\x22' := Option.some.inj hc
    obtain ⟨l, rest, n, he, hl⟩ := exists_lexeme h (by decide) (by decide)
    obtain ⟨rfl, -⟩ := List.cons.inj he
    exact hm ((kind_eq_string_iff hl).mpr rfl)

/-- The text with another name in the place of one that the scanner found: the lexemes before it are
the same, those after it are the same but for their places. -/
theorem NameAt.rename {p : Place} {before rest : List Char} {front back : List Lexeme} {l : Lexeme}
    (h : NameAt p before rest front back l) {name : List Char} (hname : IsName name)
    (hquote : rest.head? ≠ some '\x22') :
    ∃ sp back', scanFrom p (before ++ (name ++ rest)) =
        .ok (front ++ ⟨.ident, String.ofList name, sp⟩ :: back') ∧
      back'.map unplaced = back.map unplaced := by
  obtain ⟨c, ds, rfl, hc, hds⟩ := hname
  have hpiece := scanPiece_name hc hds h.ends hquote
  obtain ⟨back', hback, hu⟩ :=
    scanFrom_unplaced h.back ((p.after before).after (c :: ds))
  refine ⟨(p.after before).spanTo ((p.after before).after (c :: ds)), back', ?_, hu⟩
  rw [List.cons_append, h.front c (ds ++ rest) hc, scanFrom_append hpiece, hback]
  rfl

/-- Lexemes start one after another. -/
theorem starts_scanFrom {p : Place} {cs : List Char} {ls : List Lexeme}
    (h : scanFrom p cs = .ok ls) :
    (∀ m ∈ ls, p.offset ≤ m.span.start) ∧ ls.Pairwise fun a b => a.span.start < b.span.start := by
  refine scanFrom_induction (motive := fun p _ ls => (∀ m ∈ ls, p.offset ≤ m.span.start) ∧
    ls.Pairwise fun a b => a.span.start < b.span.start) ?_ ?_ p cs ls h
  · intro p
    simp
  · intro p c cs k? n rest _ _ ih
    obtain ⟨hge, hpair⟩ := ih
    have hstep : p.offset < (p.after (c :: cs.take n)).offset := by
      rw [Place.offset_after]
      simp
    have hlater : ∀ m ∈ rest, p.offset < m.span.start :=
      fun m hm => Nat.lt_of_lt_of_le hstep (hge m hm)
    cases k? with
    | none => exact ⟨fun m hm => Nat.le_of_lt (hlater m hm), hpair⟩
    | some k =>
      refine ⟨?_, List.pairwise_cons.mpr ⟨hlater, hpair⟩⟩
      intro m hm
      rcases List.mem_cons.mp hm with rfl | hm
      · exact Nat.le_refl _
      · exact Nat.le_of_lt (hlater m hm)

/-- A lexeme stands in a text once. -/
theorem not_mem_of_scanFrom {p : Place} {cs : List Char} {front back : List Lexeme} {l : Lexeme}
    (h : scanFrom p cs = .ok (front ++ l :: back)) : l ∉ front ∧ l ∉ back := by
  obtain ⟨hfront, hback, hcross⟩ := List.pairwise_append.mp (starts_scanFrom h).2
  refine ⟨fun hm => ?_, fun hm => ?_⟩
  · exact Nat.lt_irrefl _ (hcross l hm l List.mem_cons_self)
  · exact Nat.lt_irrefl _ ((List.pairwise_cons.mp hback).1 l hm)

end Scan

open Scan (unplaced)

mutual

/-- A token tree without places, its lexemes changed by a function. -/
def Token.shape (f : Lexeme → Lexeme) : Token → Token
  | .leaf l => .leaf (unplaced (f l))
  | .group d cs _ => .group d (shapes f cs) ⟨0, 0, 0, 0⟩

def shapes (f : Lexeme → Lexeme) : List Token → List Token
  | [] => []
  | t :: ts => t.shape f :: shapes f ts

end

/-- Another name for one lexeme. -/
def renamed (l : Lexeme) (name : String) (m : Lexeme) : Lexeme :=
  if m = l then { m with text := name } else m

theorem Lexeme.bracket?_unplaced (l : Lexeme) : (unplaced l).bracket? = l.bracket? := rfl

/-- Lexemes that are the same up to places and a change that spares the brackets nest in the same
way. -/
theorem Nest.Nests.shape {f : Lexeme → Lexeme} (hf : ∀ l, (f l).bracket? = l.bracket?)
    {ls ls' : List Lexeme} {ts : List Token} (h : Nests ls ts)
    (hls : ls'.map unplaced = ls.map fun l => unplaced (f l)) :
    ∃ ts', Nests ls' ts' ∧ shapes id ts' = shapes f ts := by
  have hsame : ∀ {l l' : Lexeme}, unplaced l' = unplaced (f l) → l'.bracket? = l.bracket? := by
    intro l l' he
    rw [← hf l, ← Lexeme.bracket?_unplaced (f l), ← he, Lexeme.bracket?_unplaced]
  induction h generalizing ls' with
  | nil =>
    obtain rfl := List.map_eq_nil_iff.mp hls
    exact ⟨[], .nil, rfl⟩
  | leaf hl _ ih =>
    obtain ⟨l', ls', rfl, hl', hls'⟩ := List.map_eq_cons_iff.mp hls
    obtain ⟨ts', hnests, hts⟩ := ih hls'
    refine ⟨.leaf l' :: ts', .leaf ((hsame hl').trans hl) hnests, ?_⟩
    rw [shapes, shapes, hts, Token.shape, Token.shape, id_eq, hl']
  | group ho hc _ _ ihi ihr =>
    obtain ⟨o', rest, rfl, ho', hrest⟩ := List.map_eq_cons_iff.mp hls
    rw [List.map_append, List.map_cons] at hrest
    obtain ⟨inner, rest, rfl, hinner, hrest⟩ := List.map_eq_append_iff.mp hrest
    obtain ⟨c', rest, rfl, hc', hrest⟩ := List.map_eq_cons_iff.mp hrest
    obtain ⟨cs', hcnests, hcs⟩ := ihi hinner
    obtain ⟨ts', hnests, hts⟩ := ihr hrest
    refine ⟨_, .group ((hsame ho').trans ho) ((hsame hc').trans hc) hcnests hnests, ?_⟩
    rw [shapes, shapes, hts, Token.shape, Token.shape, hcs]

/-- A run of tokens that stands in token trees: at the end of a run or of the contents of a
group. -/
inductive Within (ts : List Token) : List Token → Prop where
  | whole : Within ts ts
  | tail {t : Token} {us : List Token} : Within ts (t :: us) → Within ts us
  | inside {d : Delimiter} {cs us : List Token} {s : Span} :
      Within ts (.group d cs s :: us) → Within ts cs

/-- The lexeme of a delimiter, without a place. -/
def markOf (c : Char) : Lexeme := ⟨.punct, String.ofList [c], ⟨0, 0, 0, 0⟩⟩

mutual

/-- The lexemes of token trees, delimiters without their places. -/
def Token.lexemes : Token → List Lexeme
  | .leaf l => [l]
  | .group d cs _ => markOf d.opening :: (lexemes cs ++ [markOf d.closing])

def lexemes : List Token → List Lexeme
  | [] => []
  | t :: ts => t.lexemes ++ lexemes ts

end

/-- The lexemes of a part are a stretch of the lexemes of the whole. -/
theorem Within.lexemes_eq {ts us : List Token} (h : Within ts us) :
    ∃ front back, lexemes ts = front ++ (lexemes us ++ back) := by
  induction h with
  | whole => exact ⟨[], [], by simp⟩
  | @tail t us _ ih =>
    obtain ⟨front, back, he⟩ := ih
    refine ⟨front ++ t.lexemes, back, ?_⟩
    rw [he, lexemes]
    simp only [List.append_assoc]
  | @inside d cs us s _ ih =>
    obtain ⟨front, back, he⟩ := ih
    refine ⟨front ++ [markOf d.opening], markOf d.closing :: (lexemes us ++ back), ?_⟩
    rw [he, lexemes, Token.lexemes]
    simp only [List.append_assoc, List.cons_append, List.nil_append]

namespace Nest

/-- A lexeme, without its place if it is a delimiter. -/
def bare (l : Lexeme) : Lexeme :=
  if l.opening?.isSome || l.closing?.isSome then unplaced l else l

@[simp] theorem kind_bare (l : Lexeme) : (bare l).kind = l.kind := by
  unfold bare
  split <;> rfl

/-- A bracket is written with the one character of its delimiter. -/
theorem eq_of_bracket? {l : Lexeme} {b : Bracket} (h : l.bracket? = some b) :
    unplaced l = markOf b.char := by
  have hmark : ∀ {c e : Char}, l.kind = .punct → l.text.toList = [c] → e = c →
      unplaced l = markOf e := by
    rintro c _ hk hc rfl
    rw [unplaced, markOf, hk, ← hc, String.ofList_toList]
  cases b with
  | opening d =>
    have ho := Lexeme.bracket?_eq_opening.mp h
    unfold Lexeme.opening? at ho
    split at ho
    · next c hk hc =>
      have hd : d.opening = c := by simpa using List.find?_some ho
      exact hmark hk hc hd
    · cases ho
  | closing d =>
    obtain ⟨-, ho⟩ := Lexeme.bracket?_eq_closing.mp h
    unfold Lexeme.closing? at ho
    split at ho
    · next c hk hc =>
      have hd : d.closing = c := by simpa using List.find?_some ho
      exact hmark hk hc hd
    · cases ho

theorem bare_of_bracket? {l : Lexeme} {b : Bracket} (h : l.bracket? = some b) :
    bare l = markOf b.char := by
  have hmark : (l.opening?.isSome || l.closing?.isSome) = true := by
    cases b with
    | opening d => simp [Lexeme.bracket?_eq_opening.mp h]
    | closing d => simp [(Lexeme.bracket?_eq_closing.mp h).2]
  rw [bare, if_pos hmark, eq_of_bracket? h]

theorem bare_of_leaf {l : Lexeme} (h : l.bracket? = none) : bare l = l := by
  obtain ⟨ho, hc⟩ := Lexeme.bracket?_eq_none.mp h
  simp [bare, ho, hc]

theorem bracket?_of_ident {l : Lexeme} (h : l.kind = .ident) : l.bracket? = none := by
  simp [Lexeme.bracket?_eq_none, Lexeme.opening?, Lexeme.closing?, h]

theorem bare_of_ident {l : Lexeme} (h : l.kind = .ident) : bare l = l :=
  bare_of_leaf (bracket?_of_ident h)

/-- Nesting loses no lexeme and keeps their order. -/
theorem Nests.lexemes_eq {ls : List Lexeme} {ts : List Token} (h : Nests ls ts) :
    lexemes ts = ls.map bare := by
  induction h with
  | nil => rfl
  | leaf hl _ ih =>
    rw [lexemes, Token.lexemes, ih, List.map_cons, bare_of_leaf hl, List.singleton_append]
  | group ho hc _ _ ihi ihr =>
    rw [lexemes, Token.lexemes, ihi, ihr, List.map_cons, List.map_append, List.map_cons,
      bare_of_bracket? ho, bare_of_bracket? hc,
      List.cons_append, List.append_assoc, List.singleton_append]
    rfl

end Nest

theorem lexemes_nest {ls : List Lexeme} {ts : List Token} (h : nest ls = .ok ts) :
    lexemes ts = ls.map Nest.bare := (nest_eq_ok_iff.mp h).lexemes_eq

/-- The place of a name in a source, between what stands before it and what stands after it. -/
structure Spot (source : List Char) (l : Lexeme) (before after : List Char) : Prop where
  split : source = before ++ (l.text.toList ++ after)
  name : Scan.IsName l.text.toList
  line : l.span.line = (({} : Place).after before).line
  column : l.span.column = (({} : Place).after before).column
  outside : before = [] ∨ Scan.EndsOutside before
  ends : ∀ d ∈ after.head?, Text.isWord d = false

theorem Scan.NameAt.spot {before rest : List Char} {front back : List Lexeme} {l : Lexeme}
    (h : Scan.NameAt {} before rest front back l) :
    Spot (before ++ (l.text.toList ++ rest)) l before rest := by
  refine ⟨rfl, h.name, by rw [h.span]; rfl, by rw [h.span]; rfl, h.outside, ?_⟩
  intro d hd
  cases rest with
  | nil => cases hd
  | cons c rest =>
    obtain rfl : c = d := Option.some.inj hd
    obtain ⟨k?, n, ls, hp, -⟩ := Scan.exists_piece h.back
    exact Scan.not_isWord_of_scanPiece hp (h.ends c rfl)

theorem bracket?_renamed {l : Lexeme} (hl : l.kind = .ident) (name : String) (m : Lexeme) :
    (renamed l name m).bracket? = m.bracket? := by
  by_cases hm : m = l
  · subst hm
    rw [renamed, if_pos rfl, Nest.bracket?_of_ident hl]
    exact Nest.bracket?_of_ident hl
  · rw [renamed, if_neg hm]

theorem map_renamed_of_not_mem {l : Lexeme} {ls : List Lexeme} (h : l ∉ ls) (name : String) :
    ls.map (fun m => unplaced (renamed l name m)) = ls.map unplaced := by
  refine List.map_congr_left fun m hm => ?_
  have hne : m ≠ l := by
    rintro rfl
    exact h hm
  rw [renamed, if_neg hne]

theorem tokenize_eq_ok {source : List Char} {ts : List Token} :
    tokenize source = .ok ts ↔ ∃ ls, scan source = .ok ls ∧ nest ls = .ok ts := by
  unfold tokenize
  cases scan source with
  | error e => simp [bind, Except.bind]
  | ok ls => simp [bind, Except.bind]

theorem exists_ok_of_any {ε α : Type} {x : Except ε α} {p : α → Bool}
    (h : x.toOption.any p = true) : ∃ a, x = .ok a ∧ p a = true := by
  cases x with
  | error e => cases h
  | ok a => exact ⟨a, rfl, h⟩

/-- The lexeme of an identifier is one of those that were nested. -/
theorem eq_of_bare_ident {l m : Lexeme} (h : Nest.bare m = l) (hl : l.kind = .ident) : m = l := by
  have hm : m.kind = .ident := by rw [← Nest.kind_bare, h, hl]
  rw [← h, Nest.bare_of_ident hm]

/-- An identifier stands in the token trees once. -/
theorem count_lexemes {source : List Char} {ts : List Token} {l : Lexeme}
    (ht : tokenize source = .ok ts) (hl : l.kind = .ident) (hm : l ∈ lexemes ts) :
    (lexemes ts).count l = 1 := by
  obtain ⟨ls, hs, hn⟩ := tokenize_eq_ok.mp ht
  rw [lexemes_nest hn] at hm ⊢
  obtain ⟨m, hmem, hbare⟩ := List.mem_map.mp hm
  obtain rfl := eq_of_bare_ident hbare hl
  obtain ⟨pre, post, rfl⟩ := List.append_of_mem hmem
  obtain ⟨hpre, hpost⟩ := Scan.not_mem_of_scanFrom hs
  have hnot : ∀ part : List Lexeme, m ∉ part → m ∉ part.map Nest.bare := by
    intro part hno hin
    obtain ⟨n, hpart, hbare⟩ := List.mem_map.mp hin
    obtain rfl := eq_of_bare_ident hbare hl
    exact hno hpart
  rw [List.map_append, List.map_cons, hbare, List.count_append, List.count_cons_self,
    List.count_eq_zero_of_not_mem (hnot pre hpre), List.count_eq_zero_of_not_mem (hnot post hpost)]

/-- A name of the token trees that no string follows has a place in the source, and another name can
stand in its place: the token trees are then the same, up to places and that name. -/
theorem exists_spot {source : List Char} {ts rest : List Token} {l m : Lexeme}
    (ht : tokenize source = .ok ts) (hw : Within ts (.leaf l :: .leaf m :: rest))
    (hl : l.kind = .ident) (hm : m.kind ≠ .string) :
    ∃ before after, Spot source l before after ∧
      ∀ name : String, Scan.IsName name.toList →
        ∃ ts', tokenize (before ++ (name.toList ++ after)) = .ok ts' ∧
          shapes id ts' = shapes (renamed l name) ts := by
  obtain ⟨ls, hs, hn⟩ := tokenize_eq_ok.mp ht
  obtain ⟨front, back, he⟩ := hw.lexemes_eq
  rw [lexemes_nest hn] at he
  simp only [lexemes, Token.lexemes, List.cons_append, List.nil_append] at he
  obtain ⟨pre, post, rfl, -, hpost⟩ := List.map_eq_append_iff.mp he
  obtain ⟨l', post, rfl, hl', hpost⟩ := List.map_eq_cons_iff.mp hpost
  obtain ⟨m', post, rfl, hm', -⟩ := List.map_eq_cons_iff.mp hpost
  obtain rfl := eq_of_bare_ident hl' hl
  have hkind : m'.kind ≠ .string := by rwa [← Nest.kind_bare, hm']
  obtain ⟨before, after, rfl, hat⟩ := Scan.exists_nameAt hs hl
  refine ⟨before, after, hat.spot, ?_⟩
  intro name hname
  obtain ⟨sp, post', hscan, hpost'⟩ := hat.rename hname (Scan.head?_ne_quote hat.back hkind)
  obtain ⟨hpre, hafter⟩ := Scan.not_mem_of_scanFrom hs
  -- the renaming changes the one lexeme in the middle and no other
  have hmap : (pre ++ ⟨.ident, String.ofList name.toList, sp⟩ :: post').map unplaced =
      (pre ++ l' :: m' :: post).map fun m => unplaced (renamed l' name m) := by
    rw [List.map_append, List.map_append, List.map_cons, List.map_cons, hpost',
      map_renamed_of_not_mem hpre, map_renamed_of_not_mem hafter, String.ofList_toList, renamed,
      if_pos rfl, unplaced, unplaced, hl]
  obtain ⟨ts', hnests, hshape⟩ := (nest_eq_ok_iff.mp hn).shape (bracket?_renamed hl name) hmap
  exact ⟨ts', tokenize_eq_ok.mpr ⟨_, hscan, nest_eq_ok_iff.mpr hnests⟩, hshape⟩

end WidgetView
