import WidgetView.Proofs.Carving
import WidgetView.Proofs.Renaming
import WidgetView.Source

/-!
# Expressions as excerpts

The expressions of a view as excerpts of its tokens. A token is found by a path: its index among its
siblings, after the indices of the groups around it. An excerpt is an expression with the path it
was read at, and the main statement gives every expression of a view such a path, so that no token
is in two expressions.
-/
namespace WidgetView

/-! ### Paths of tokens -/

/-- The tokens that stand directly in the group at a path. -/
def contentsAt : List Nat → List Token → Option (List Token)
  | [], ts => some ts
  | i :: path, ts =>
    match ts[i]? with
    | some (.group _ cs _) => contentsAt path cs
    | _ => none

theorem contentsAt_append (front ts : List Token) (i : Nat) (path : List Nat) :
    contentsAt ((front.length + i) :: path) (front ++ ts) = contentsAt (i :: path) ts := by
  simp only [contentsAt, List.getElem?_append_right (Nat.le_add_right _ _), Nat.add_sub_cancel_left]

/-- An expression, with the path of its group and the index of its first token there. -/
structure Excerpt where
  group : List Nat
  start : Nat
  expr : Expr

namespace Excerpt

variable {x y : Excerpt} {ts : List Token}

/-- The expression is a run of siblings without commas, up to a comma or to the end of the group,
and it is placed where its first token is. -/
structure ReadFrom (ts : List Token) (x : Excerpt) : Prop where
  stands : ∃ front rest, contentsAt x.group ts = some (front ++ (x.expr.tokens ++ rest)) ∧
    front.length = x.start ∧ Grammar.Ends rest
  noComma : ∀ t ∈ x.expr.tokens, ¬t.isPunctOf ","
  placed : ∃ t more, x.expr.tokens = t :: more ∧ (x.expr.line, x.expr.column) = t.span.position

/-- The token at a path is one of the expression, or inside a group of it. -/
def Holds (x : Excerpt) (path : List Nat) : Prop :=
  ∃ i more, path = x.group ++ i :: more ∧ x.start ≤ i ∧ i < x.start + x.expr.tokens.length

/-- No token is in both. -/
def Apart (x y : Excerpt) : Prop := ∀ path, ¬(x.Holds path ∧ y.Holds path)

theorem Apart.symm (h : x.Apart y) : y.Apart x := fun path hboth => h path hboth.symm

/-! ### Excerpts of a part -/

/-- The excerpt when `n` more tokens stand in front. -/
def shift (n : Nat) : Excerpt → Excerpt
  | ⟨[], start, e⟩ => ⟨[], n + start, e⟩
  | ⟨i :: group, start, e⟩ => ⟨(n + i) :: group, start, e⟩

/-- The excerpt when its tokens are in a group that comes first. -/
def enclose (x : Excerpt) : Excerpt := { x with group := 0 :: x.group }

@[simp] theorem expr_shift (n : Nat) (x : Excerpt) : (x.shift n).expr = x.expr := by
  obtain ⟨_ | ⟨i, group⟩, start, e⟩ := x <;> rfl

@[simp] theorem expr_enclose (x : Excerpt) : x.enclose.expr = x.expr := rfl

theorem ReadFrom.shift (h : x.ReadFrom ts) (front : List Token) :
    (x.shift front.length).ReadFrom (front ++ ts) := by
  obtain ⟨⟨before, rest, hat, hlength, hends⟩, hno, hplaced⟩ := h
  refine ⟨?_, by rwa [expr_shift], by rwa [expr_shift]⟩
  obtain ⟨_ | ⟨i, group⟩, start, e⟩ := x
  · obtain rfl := Option.some.inj hat
    refine ⟨front ++ before, rest, ?_, ?_, hends⟩
    · rw [List.append_assoc]
      rfl
    · rw [List.length_append, hlength]
      rfl
  · exact ⟨before, rest, (contentsAt_append front ts i group).trans hat, hlength, hends⟩

theorem ReadFrom.enclose {cs : List Token} (h : x.ReadFrom cs) (d : Delimiter) (s : Span) :
    x.enclose.ReadFrom (.group d cs s :: ts) := by
  obtain ⟨⟨before, rest, hat, hlength, hends⟩, hno, hplaced⟩ := h
  exact ⟨⟨before, rest, hat, hlength, hends⟩, hno, hplaced⟩

theorem Holds.of_shift {n : Nat} {path : List Nat} (h : (x.shift n).Holds path) :
    ∃ i more, path = (n + i) :: more ∧ x.Holds (i :: more) := by
  obtain ⟨i, more, rfl, hle, hlt⟩ := h
  rw [expr_shift] at hlt
  obtain ⟨_ | ⟨j, group⟩, start, e⟩ := x
  · simp only [shift] at hle hlt
    refine ⟨i - n, more, ?_, i - n, more, rfl, ?_, ?_⟩
    · simp only [shift, List.nil_append, List.cons.injEq, and_true]
      omega
    · simp only
      omega
    · simp only
      omega
  · exact ⟨j, group ++ i :: more, rfl, i, more, rfl, hle, hlt⟩

theorem Holds.of_enclose {path : List Nat} (h : x.enclose.Holds path) :
    ∃ more, path = 0 :: more ∧ x.Holds more := by
  obtain ⟨i, more, rfl, hle, hlt⟩ := h
  exact ⟨x.group ++ i :: more, rfl, i, more, rfl, hle, hlt⟩

theorem Apart.shift (h : x.Apart y) (n : Nat) : (x.shift n).Apart (y.shift n) := by
  rintro path ⟨hx, hy⟩
  obtain ⟨i, more, rfl, hxi⟩ := hx.of_shift
  obtain ⟨j, more', heq, hyj⟩ := hy.of_shift
  obtain ⟨hij, rfl⟩ := List.cons.inj heq
  obtain rfl := Nat.add_left_cancel hij
  exact h _ ⟨hxi, hyj⟩

theorem Apart.enclose (h : x.Apart y) : x.enclose.Apart y.enclose := by
  rintro path ⟨hx, hy⟩
  obtain ⟨more, rfl, hxm⟩ := hx.of_enclose
  obtain ⟨more', heq, hym⟩ := hy.of_enclose
  obtain ⟨-, rfl⟩ := List.cons.inj heq
  exact h _ ⟨hxm, hym⟩

/-- A group that comes first is apart from what follows it. -/
theorem apart_enclose_shift (x y : Excerpt) : x.enclose.Apart (y.shift 1) := by
  rintro path ⟨hx, hy⟩
  obtain ⟨more, rfl, -⟩ := hx.of_enclose
  obtain ⟨j, more', heq, -⟩ := hy.of_shift
  have hhead := (List.cons.inj heq).1
  omega

/-- An expression that comes first is apart from what follows it. -/
theorem apart_front_shift (e : Expr) (y : Excerpt) :
    Apart ⟨[], 0, e⟩ (y.shift e.tokens.length) := by
  rintro path ⟨⟨i, more, rfl, -, hlt⟩, hy⟩
  obtain ⟨j, more', heq, -⟩ := hy.of_shift
  have hhead := (List.cons.inj heq).1
  simp only at hlt
  omega

end Excerpt

/-- The expressions are excerpts of the tokens, and no two of them share a token. -/
def Excerpted (ts : List Token) (es : List Expr) : Prop :=
  ∃ xs : List Excerpt, xs.map Excerpt.expr = es ∧ (∀ x ∈ xs, x.ReadFrom ts) ∧
    xs.Pairwise Excerpt.Apart

theorem Excerpt.ReadFrom.front {e : Expr} {rest : List Token}
    (hno : ∀ t ∈ e.tokens, ¬t.isPunctOf ",") (hends : Grammar.Ends rest) :
    ReadFrom (e.tokens ++ rest) ⟨[], 0, e⟩ :=
  ⟨⟨[], rest, rfl, rfl, hends⟩, hno, e.first, e.more, rfl, rfl⟩

/-- Tokens in front shift the excerpts of those that follow. -/
theorem shifted (front : List Token) {ts : List Token} {xs : List Excerpt}
    (hread : ∀ x ∈ xs, x.ReadFrom ts) (hapart : xs.Pairwise Excerpt.Apart) :
    (∀ x ∈ xs.map (Excerpt.shift front.length), x.ReadFrom (front ++ ts)) ∧
      (xs.map (Excerpt.shift front.length)).Pairwise Excerpt.Apart := by
  refine ⟨?_, hapart.map _ fun x y h => h.shift _⟩
  rw [List.forall_mem_map]
  exact fun x hx => (hread x hx).shift front

/-- What is carved out of tokens are excerpts of them. -/
theorem Carved.excerpted {ts : List Token} {es : List Expr} (h : Carved ts es) :
    Excerpted ts es := by
  induction h with
  | nil => exact ⟨[], rfl, by simp, .nil⟩
  | @skip t ts es _ ih =>
    obtain ⟨xs, rfl, hread, hapart⟩ := ih
    obtain ⟨hread', hapart'⟩ := shifted [t] hread hapart
    exact ⟨_, by simp [Function.comp_def], hread', hapart'⟩
  | @inside d cs ts s es es' _ _ ihin ih =>
    obtain ⟨xs, rfl, hread, hapart⟩ := ihin
    obtain ⟨ys, rfl, hread', hapart'⟩ := ih
    obtain ⟨hread', hapart'⟩ := shifted [.group d cs s] hread' hapart'
    refine ⟨xs.map Excerpt.enclose ++ ys.map (Excerpt.shift 1), by simp [Function.comp_def], ?_, ?_⟩
    · rw [List.forall_mem_append, List.forall_mem_map]
      exact ⟨fun x hx => (hread x hx).enclose d s, hread'⟩
    · rw [List.pairwise_append]
      refine ⟨hapart.map _ fun x y h => h.enclose, hapart', ?_⟩
      simp only [List.forall_mem_map]
      exact fun x _ y _ => Excerpt.apart_enclose_shift x y
  | @expr e rest es hno hends _ ih =>
    obtain ⟨xs, rfl, hread, hapart⟩ := ih
    obtain ⟨hread', hapart'⟩ := shifted e.tokens hread hapart
    refine ⟨⟨[], 0, e⟩ :: xs.map (Excerpt.shift e.tokens.length), by simp [Function.comp_def], ?_,
      ?_⟩
    · exact List.forall_mem_cons.mpr ⟨.front hno hends, hread'⟩
    · refine List.pairwise_cons.mpr ⟨?_, hapart'⟩
      simp only [List.forall_mem_map]
      exact fun y _ => Excerpt.apart_front_shift e y

/-- Some of the excerpts, each at most once, and in any order. -/
theorem Excerpted.le {ts : List Token} {es fs : List Expr} (h : Excerpted ts es)
    (hle : (fs : Multiset Expr) ≤ es) : Excerpted ts fs := by
  obtain ⟨xs, rfl, hread, hapart⟩ := h
  obtain ⟨kept, hperm, hsub⟩ := Multiset.coe_le.mp hle
  obtain ⟨ys, hys, rfl⟩ := List.sublist_map_iff.mp hsub
  have hpaired : List.Forall₂ (fun e (y : Excerpt) => y.expr = e) (ys.map Excerpt.expr) ys := by
    rw [List.forall₂_map_left_iff]
    exact List.forall₂_same.mpr fun _ _ => rfl
  obtain ⟨zs, hzs, hzys⟩ := List.perm_comp_forall₂ hperm.symm hpaired
  refine ⟨zs, ?_, ?_, ?_⟩
  · have hmap : List.Forall₂ Eq fs (zs.map Excerpt.expr) :=
      List.forall₂_map_right_iff.mpr (hzs.imp fun _ _ => Eq.symm)
    exact (List.forall₂_eq_eq_eq ▸ hmap).symm
  · exact fun z hz => hread z (hys.subset (hzys.subset hz))
  · exact (hzys.pairwise_iff Excerpt.Apart.symm).mpr (hapart.sublist hys)

/-- The expressions of a view are excerpts of its tokens: each is a run of siblings without a comma,
up to a comma or to the end of its group, and no token is in two of them, be it directly or inside a
group. -/
theorem Source.exprs_excerpted {fs : FileSystem} {base : Pathname} {ts : List Token} {st : Session}
    {v : View} (hs : fileName? ts = none) (h : (view fs base ts st).1 = .ok v) :
    Excerpted ts v.exprs := by
  simp only [view, follow, hs] at h
  cases hroot : Parse.root ts st with
  | error e st' => simp [hroot] at h
  | ok v' st' =>
    obtain rfl : v' = v := by simpa [hroot] using h
    obtain ⟨es, hcarved, hle⟩ := Parse.root_carved hroot
    exact hcarved.excerpted.le hle

theorem Source.exprs_excerpted_sample :
    let source :=
      "gtk::Box(f(a), b) { gtk::Label { label: c, child: { fill: d } }, show => (E, g(h)) }".toList
    ∃ ts v, tokenize source = .ok ts ∧ fileName? ts = none ∧ (view {} {} ts {}).1 = .ok v ∧
      v.exprs.map Expr.text = ["f(a)", "b", "E", "g(h)", "c", "d"] ∧ Excerpted ts v.exprs := by
  intro source
  obtain ⟨ts, h, hts⟩ : ∃ ts, tokenize source = .ok ts ∧ (decide (fileName? ts = none) &&
      (view {} {} ts {}).1.toOption.any fun v =>
        decide (v.exprs.map Expr.text = ["f(a)", "b", "E", "g(h)", "c", "d"])) = true :=
    exists_ok_of_any (by decide +kernel)
  obtain ⟨hs, hview⟩ := (Bool.and_eq_true _ _).mp hts
  obtain ⟨v, hv, htexts⟩ := exists_ok_of_any hview
  exact ⟨ts, v, h, of_decide_eq_true hs, hv, of_decide_eq_true htexts,
    exprs_excerpted (of_decide_eq_true hs) hv⟩

end WidgetView
