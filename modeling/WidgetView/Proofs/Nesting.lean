import Mathlib
import WidgetView.Token.Nest

/-!
# How lexemes nest

How lexemes nest. The token trees of a run of lexemes follow its brackets: they are there exactly if
the brackets are well nested. Otherwise one bracket is blamed: the first closing one that has no
group to close or would close one of another kind, and if there is none, the opening one of the
innermost group that is left open. The stack of the algorithm is what has been read when groups are
open.
-/
namespace WidgetView

inductive Bracket where
  | opening (d : Delimiter)
  | closing (d : Delimiter)
  deriving DecidableEq, Repr

def Bracket.char : Bracket → Char
  | .opening d => d.opening
  | .closing d => d.closing

/-- The bracket that a lexeme is, if it is one. -/
def Lexeme.bracket? (l : Lexeme) : Option Bracket :=
  match l.opening?, l.closing? with
  | some d, _ => some (.opening d)
  | none, some d => some (.closing d)
  | none, none => none

theorem Delimiter.ofOpening?_closing (d : Delimiter) : ofOpening? d.closing = none := by
  cases d <;> rfl

namespace Lexeme

variable {l : Lexeme} {d : Delimiter}

theorem bracket?_eq_none : l.bracket? = none ↔ l.opening? = none ∧ l.closing? = none := by
  unfold bracket?
  cases l.opening? <;> cases l.closing? <;> simp

theorem bracket?_eq_opening : l.bracket? = some (.opening d) ↔ l.opening? = some d := by
  unfold bracket?
  cases l.opening? <;> cases l.closing? <;> simp

theorem bracket?_eq_closing :
    l.bracket? = some (.closing d) ↔ l.opening? = none ∧ l.closing? = some d := by
  unfold bracket?
  cases l.opening? <;> cases l.closing? <;> simp

theorem bracket?_opening (hk : l.kind = .punct) (ht : l.text = String.ofList [d.opening]) :
    l.bracket? = some (.opening d) := by
  simp [bracket?_eq_opening, opening?, hk, ht]

theorem bracket?_closing (hk : l.kind = .punct) (ht : l.text = String.ofList [d.closing]) :
    l.bracket? = some (.closing d) := by
  simp [bracket?_eq_closing, opening?, closing?, hk, ht, Delimiter.ofOpening?_closing]

end Lexeme

def brackets (ls : List Lexeme) : List Bracket := ls.filterMap Lexeme.bracket?

/-- Every bracket has a partner of its kind, and what stands between partners is well nested. -/
inductive WellNested : List Bracket → Prop where
  | nil : WellNested []
  | group {d : Delimiter} {inner rest : List Bracket} (hi : WellNested inner)
      (hr : WellNested rest) : WellNested (.opening d :: (inner ++ .closing d :: rest))

theorem WellNested.append {bs cs : List Bracket} (h : WellNested bs) (h' : WellNested cs) :
    WellNested (bs ++ cs) := by
  induction h with
  | nil => exact h'
  | @group d inner rest hi _ _ ihr =>
    rw [List.cons_append, List.append_assoc, List.cons_append]
    exact .group hi ihr

@[simp] theorem brackets_nil : brackets [] = [] := rfl

@[simp] theorem brackets_append (ls ms : List Lexeme) :
    brackets (ls ++ ms) = brackets ls ++ brackets ms := List.filterMap_append

theorem brackets_cons_none {l : Lexeme} (h : l.bracket? = none) (ls : List Lexeme) :
    brackets (l :: ls) = brackets ls := List.filterMap_cons_none h

theorem brackets_cons_some {l : Lexeme} {b : Bracket} (h : l.bracket? = some b) (ls : List Lexeme) :
    brackets (l :: ls) = b :: brackets ls := List.filterMap_cons_some h

/-! ### Closing brackets that fit -/

/-- What is wrong with a closing bracket behind some lexemes: no group is open there, or the
innermost open group, behind whose opening bracket all groups are closed, is of another kind. -/
inductive Misfit (front : List Lexeme) (d : Delimiter) : LexFault → Prop where
  | unopened (h : WellNested (brackets front)) : Misfit front d (.unexpectedClosing d)
  | mismatched {before inner : List Lexeme} {o : Lexeme} {e : Delimiter}
      (hsplit : front = before ++ o :: inner)
      (ho : o.bracket? = some (.opening e)) (hi : WellNested (brackets inner)) (hne : e ≠ d) :
      Misfit front d (.mismatchedClosing d e)

/-- No closing bracket is a misfit. -/
def Fitting (ls : List Lexeme) : Prop :=
  ∀ front l back d fault, ls = front ++ l :: back → l.bracket? = some (.closing d) →
    ¬Misfit front d fault

/-- The error about lexemes that do not nest. -/
inductive Blamed (ls : List Lexeme) : LexError → Prop where
  | closer {front back : List Lexeme} {l : Lexeme} {d : Delimiter} {fault : LexFault}
      (hsplit : ls = front ++ l :: back) (hl : l.bracket? = some (.closing d))
      (hm : Misfit front d fault)
      (hfirst : Fitting front) : Blamed ls ⟨fault, l.span.line, l.span.column⟩
  | unclosed {before inner : List Lexeme} {o : Lexeme} {d : Delimiter}
      (hsplit : ls = before ++ o :: inner)
      (ho : o.bracket? = some (.opening d)) (hi : WellNested (brackets inner)) (hfit : Fitting ls) :
      Blamed ls ⟨.unclosed d, o.span.line, o.span.column⟩

/-- The kinds of the groups that are open behind some brackets, innermost first, where `ds` are open
before them. There are none if a closing bracket does not fit. -/
def openBehind : List Delimiter → List Bracket → Option (List Delimiter)
  | ds, [] => some ds
  | ds, .opening d :: bs => openBehind (d :: ds) bs
  | [], .closing _ :: _ => none
  | e :: ds, .closing d :: bs => if e = d then openBehind ds bs else none

theorem openBehind_append (ds : List Delimiter) (bs cs : List Bracket) :
    openBehind ds (bs ++ cs) = (openBehind ds bs).bind (openBehind · cs) := by
  fun_induction openBehind ds bs with
  | case1 ds => rfl
  | case2 ds d bs ih => exact ih
  | case3 d bs => rfl
  | case4 d ds bs ih => rw [List.cons_append, openBehind, if_pos rfl, ih]
  | case5 e ds d bs hne => rw [List.cons_append, openBehind, if_neg hne]; rfl

theorem WellNested.openBehind_append {bs : List Bracket} (h : WellNested bs) (ds : List Delimiter)
    (cs : List Bracket) : openBehind ds (bs ++ cs) = openBehind ds cs := by
  induction h generalizing ds cs with
  | nil => rfl
  | @group d inner rest _ _ ihi ihr =>
    rw [List.cons_append, List.append_assoc, List.cons_append, openBehind, ihi, openBehind,
      if_pos rfl, ihr]

theorem WellNested.openBehind_eq {bs : List Bracket} (h : WellNested bs) (ds : List Delimiter) :
    openBehind ds bs = some ds := by
  have happend := h.openBehind_append ds []
  rwa [List.append_nil] at happend

/-- Behind the opening bracket of a group and groups that are closed, the group is the innermost
open one. -/
theorem openBehind_group (before : List Lexeme) {inner : List Lexeme} {o : Lexeme} {d : Delimiter}
    (ho : o.bracket? = some (.opening d)) (hi : WellNested (brackets inner)) (cs : List Bracket) :
    openBehind [] (brackets (before ++ o :: inner) ++ cs) =
      (openBehind [] (brackets before)).bind fun ds => openBehind (d :: ds) cs := by
  rw [brackets_append, brackets_cons_some ho, List.append_assoc, openBehind_append]
  simp only [List.cons_append, openBehind, hi.openBehind_append]

theorem Misfit.openBehind_eq_none {front : List Lexeme} {d : Delimiter} {fault : LexFault}
    (h : Misfit front d fault) (bs : List Bracket) :
    openBehind [] (brackets front ++ .closing d :: bs) = none := by
  cases h with
  | unopened h => rw [h.openBehind_append, openBehind]
  | @mismatched before inner o e hsplit ho hi hne =>
    rw [hsplit, openBehind_group _ ho hi]
    simp [openBehind, hne]

/-- Where a kind can be told for every open group, all closing brackets fit. -/
theorem fitting_of_openBehind {ls : List Lexeme} {ds : List Delimiter}
    (h : openBehind [] (brackets ls) = some ds) : Fitting ls := by
  rintro front l back d fault rfl hl hm
  rw [brackets_append, brackets_cons_some hl, hm.openBehind_eq_none] at h
  cases h

/-- Lexemes with a blamed bracket are not well nested. -/
theorem Blamed.not_wellNested {ls : List Lexeme} {e : LexError} (h : Blamed ls e) :
    ¬WellNested (brackets ls) := by
  intro hw
  have hclosed := hw.openBehind_eq []
  cases h with
  | @closer front back l d fault hsplit hl hm _ =>
    rw [hsplit, brackets_append, brackets_cons_some hl, hm.openBehind_eq_none] at hclosed
    cases hclosed
  | @unclosed before inner o d hsplit ho hi _ =>
    have hopen := openBehind_group before ho hi []
    rw [List.append_nil, ← hsplit, hclosed] at hopen
    cases hb : openBehind [] (brackets before) with
    | none => simp [hb] at hopen
    | some ds => simp [hb, openBehind] at hopen

/-! ### The stack -/

namespace Nest

variable {stack : List Frame} {done : List Token} {ls front : List Lexeme} {l : Lexeme}
    {d : Delimiter}

theorem nestFrom_leaf (h : l.bracket? = none) :
    nestFrom stack done (l :: ls) = nestFrom stack (.leaf l :: done) ls := by
  obtain ⟨ho, hc⟩ := Lexeme.bracket?_eq_none.mp h
  rw [nestFrom, ho, hc]

theorem nestFrom_opening (h : l.bracket? = some (.opening d)) :
    nestFrom stack done (l :: ls) = nestFrom (⟨d, l.span, done⟩ :: stack) [] ls := by
  rw [nestFrom, Lexeme.bracket?_eq_opening.mp h]

theorem nestFrom_closing (h : l.bracket? = some (.closing d)) :
    nestFrom stack done (l :: ls) =
      match stack with
      | [] => .error ⟨.unexpectedClosing d, l.span.line, l.span.column⟩
      | f :: fs =>
        if f.delimiter = d then nestFrom fs (f.close done.reverse l.span.stop :: f.before) ls
        else .error ⟨.mismatchedClosing d f.delimiter, l.span.line, l.span.column⟩ := by
  obtain ⟨ho, hc⟩ := Lexeme.bracket?_eq_closing.mp h
  cases stack with
  | nil => simp only [nestFrom, ho, hc]
  | cons f fs => simp only [nestFrom, ho, hc]

/-- The token trees of lexemes. -/
inductive Nests : List Lexeme → List Token → Prop where
  | nil : Nests [] []
  | leaf {l : Lexeme} {ls : List Lexeme} {ts : List Token} (hl : l.bracket? = none)
      (h : Nests ls ts) : Nests (l :: ls) (.leaf l :: ts)
  | group {o c : Lexeme} {ls ms : List Lexeme} {d : Delimiter} {cs ts : List Token}
      (ho : o.bracket? = some (.opening d)) (hc : c.bracket? = some (.closing d)) (hi : Nests ls cs)
      (hr : Nests ms ts) :
      Nests (o :: (ls ++ c :: ms)) (.group d cs { o.span with stop := c.span.stop } :: ts)

theorem Nests.append {ms : List Lexeme} {ts us : List Token} (h : Nests ls ts) (h' : Nests ms us) :
    Nests (ls ++ ms) (ts ++ us) := by
  induction h with
  | nil => exact h'
  | leaf hl _ ih => exact .leaf hl ih
  | group ho hc hi _ _ ihr =>
    rw [List.cons_append, List.append_assoc, List.cons_append]
    exact .group ho hc hi ihr

theorem Nests.wellNested {ts : List Token} (h : Nests ls ts) : WellNested (brackets ls) := by
  induction h with
  | nil => exact .nil
  | leaf hl _ ih => rwa [brackets_cons_none hl]
  | group ho hc _ _ ihi ihr =>
    rw [brackets_cons_some ho, brackets_append, brackets_cons_some hc]
    exact .group ihi ihr

/-- A run of lexemes that has token trees is read into them wherever it stands. -/
theorem Nests.nestFrom {ts : List Token} (h : Nests ls ts) (stack : List Frame) (done : List Token)
    (more : List Lexeme) :
    nestFrom stack done (ls ++ more) = nestFrom stack (ts.reverse ++ done) more := by
  induction h generalizing stack done more with
  | nil => rfl
  | leaf hl _ ih =>
    rw [List.cons_append, nestFrom_leaf hl, ih, List.reverse_cons, List.append_assoc,
      List.singleton_append]
  | @group o c ls ms d cs ts ho hc _ _ ihi ihr =>
    rw [List.cons_append, nestFrom_opening ho, List.append_assoc, ihi, List.cons_append,
      nestFrom_closing hc]
    dsimp only
    rw [if_pos rfl, ihr]
    simp [Frame.close]

/-- What has been read when groups are open: the trees `done` behind the innermost opening bracket,
and in front of that bracket what had been read when it came. -/
inductive Read : List Frame → List Token → List Lexeme → Prop where
  | outside {done : List Token} {front : List Lexeme} (h : Nests front done.reverse) :
      Read [] done front
  | inside {f : Frame} {fs : List Frame} {done : List Token} {o : Lexeme}
      {before inner : List Lexeme}
      (hb : Read fs f.before before) (ho : o.bracket? = some (.opening f.delimiter))
      (hs : o.span = f.span)
      (hi : Nests inner done.reverse) : Read (f :: fs) done (before ++ o :: inner)

/-- Complete trees go behind those that have been read. -/
theorem Read.append {ts : List Token} (h : Read stack done front) (h' : Nests ls ts) :
    Read stack (ts.reverse ++ done) (front ++ ls) := by
  cases h with
  | outside h =>
    refine .outside ?_
    rw [List.reverse_append, List.reverse_reverse]
    exact h.append h'
  | inside hb ho hs hi =>
    rw [List.append_assoc, List.cons_append]
    refine .inside hb ho hs ?_
    rw [List.reverse_append, List.reverse_reverse]
    exact hi.append h'

theorem Read.leaf (h : Read stack done front) (hl : l.bracket? = none) :
    Read stack (.leaf l :: done) (front ++ [l]) := h.append (.leaf hl .nil)

theorem Read.opening (h : Read stack done front) (hl : l.bracket? = some (.opening d)) :
    Read (⟨d, l.span, done⟩ :: stack) [] (front ++ [l]) := .inside h hl rfl .nil

/-- A closing bracket makes one tree of the innermost open group. -/
theorem Read.closing {f : Frame} {fs : List Frame} (h : Read (f :: fs) done front)
    (hl : l.bracket? = some (.closing f.delimiter)) :
    Read fs (f.close done.reverse l.span.stop :: f.before) (front ++ [l]) := by
  cases h with
  | inside hb ho hs hi =>
    have hgroup := hb.append (.group ho hl hi .nil)
    rw [hs] at hgroup
    rw [List.append_assoc]
    exact hgroup

/-- The open groups are those of the stack. -/
theorem Read.openBehind_eq (h : Read stack done front) :
    openBehind [] (brackets front) = some (stack.map Frame.delimiter) := by
  induction h with
  | outside h => exact h.wellNested.openBehind_eq []
  | @inside f fs done o before inner _ ho _ hi ih =>
    have hopen := openBehind_group before ho hi.wellNested []
    rwa [List.append_nil, ih] at hopen

/-- A closing bracket that is refused is a misfit. -/
theorem Read.misfit (h : Read stack done front) :
    match stack with
    | [] => Misfit front d (.unexpectedClosing d)
    | f :: _ => f.delimiter ≠ d → Misfit front d (.mismatchedClosing d f.delimiter) := by
  cases h with
  | outside h => exact .unopened h.wellNested
  | inside _ ho _ hi => exact fun hne => .mismatched rfl ho hi.wellNested hne

/-- What comes of the lexemes behind those that have been read. -/
theorem Read.nestFrom (h : Read stack done front) (ls : List Lexeme) :
    match nestFrom stack done ls with
    | .ok ts => Nests (front ++ ls) ts
    | .error e => Blamed (front ++ ls) e := by
  have hfit := fitting_of_openBehind h.openBehind_eq
  induction ls generalizing stack done front with
  | nil =>
    cases h with
    | outside h => simpa [Nest.nestFrom] using h
    | @inside f fs done o before inner hb ho hs hi =>
      rw [Nest.nestFrom, List.append_nil, ← hs]
      exact .unclosed rfl ho hi.wellNested hfit
  | cons l ls ih =>
    have hnext : ∀ {stack' done'}, Read stack' done' (front ++ [l]) →
        match Nest.nestFrom stack' done' ls with
        | .ok ts => Nests (front ++ l :: ls) ts
        | .error e => Blamed (front ++ l :: ls) e := by
      intro stack' done' h'
      rw [List.append_cons]
      exact ih h' (fitting_of_openBehind h'.openBehind_eq)
    cases hl : l.bracket? with
    | none =>
      rw [nestFrom_leaf hl]
      exact hnext (h.leaf hl)
    | some b =>
      cases b with
      | opening d =>
        rw [nestFrom_opening hl]
        exact hnext (h.opening hl)
      | closing d =>
        rw [nestFrom_closing hl]
        have hmisfit := h.misfit (d := d)
        cases stack with
        | nil => exact .closer rfl hl hmisfit hfit
        | cons f fs =>
          dsimp only at hmisfit ⊢
          by_cases hd : f.delimiter = d
          · rw [if_pos hd]
            exact hnext (h.closing (hd ▸ hl))
          · rw [if_neg hd]
            exact .closer rfl hl (hmisfit hd) hfit

end Nest

open Nest (Nests)

/-- Lexemes have token trees, or one of their brackets is blamed. -/
theorem nest_outcome (ls : List Lexeme) :
    match nest ls with
    | .ok ts => Nests ls ts
    | .error e => Blamed ls e := by
  have hstart : Nest.Read [] [] [] := .outside .nil
  exact hstart.nestFrom ls

theorem nest_eq_ok_iff {ls : List Lexeme} {ts : List Token} : nest ls = .ok ts ↔ Nests ls ts := by
  constructor
  · intro h
    have houtcome := nest_outcome ls
    rwa [h] at houtcome
  · intro h
    have hall := h.nestFrom [] [] []
    rwa [List.append_nil, List.append_nil, Nest.nestFrom, List.reverse_reverse] at hall

end WidgetView
