import WidgetView.Proofs.ParentCycles

/-!
# The order of arrival

The order in which moved widgets arrive. They are collected parent by parent, so a widget can
overtake the ones that were declared before it: those that stand inside of its earlier siblings. The
main statement says that nothing else upsets the order of declaration.
-/
namespace WidgetView

/-! ### Trees in order -/

namespace Tree

variable {α : Type}

mutual

/-- The nodes of a subtree stand together. -/
theorem toList_infix_of_mem : (t : Tree α) → ∀ s ∈ t.subtrees, s.toList <:+: t.toList
  | node a ts => by
    intro s hs
    rw [subtrees] at hs
    rcases List.mem_cons.mp hs with rfl | hs
    · exact List.infix_rfl
    · rw [toList_node]
      exact List.infix_cons (toList_infix_of_mem_forest ts s hs)

theorem toList_infix_of_mem_forest : (ts : List (Tree α)) →
    ∀ s ∈ forestSubtrees ts, s.toList <:+: forestToList ts
  | [] => by simp [forestSubtrees]
  | t :: ts => by
    intro s hs
    rw [forestSubtrees] at hs
    rw [forestToList_cons]
    rcases List.mem_append.mp hs with hs | hs
    · exact (toList_infix_of_mem t s hs).trans (List.prefix_append _ _).isInfix
    · exact (toList_infix_of_mem_forest ts s hs).trans (List.suffix_append _ _).isInfix

end

theorem mem_subtrees_of_mem_children {t c : Tree α} (h : c ∈ t.children) : c ∈ t.subtrees := by
  have hforest : ∀ ts : List (Tree α), c ∈ ts → c ∈ forestSubtrees ts := by
    intro ts hc
    induction ts with
    | nil => cases hc
    | cons s ts ih =>
      rw [forestSubtrees, List.mem_append]
      rcases List.mem_cons.mp hc with rfl | hc
      · left
        rw [subtrees_eq_cons]
        exact List.mem_cons_self
      · exact Or.inr (ih hc)
  rw [subtrees_eq_cons]
  exact List.mem_cons_of_mem _ (hforest _ h)

theorem forestToList_sublist {ts us : List (Tree α)} (h : ts.Sublist us) :
    (forestToList ts).Sublist (forestToList us) := by
  induction h with
  | slnil => exact List.Sublist.refl _
  | cons t _ ih =>
    rw [forestToList_cons]
    exact ih.trans (List.sublist_append_right _ _)
  | cons_cons t _ ih =>
    rw [forestToList_cons, forestToList_cons]
    exact ih.append_left _

theorem map_value_sublist (ts : List (Tree α)) : (ts.map value).Sublist (forestToList ts) := by
  induction ts with
  | nil => exact List.Sublist.refl _
  | cons t ts ih =>
    rw [List.map_cons, forestToList_cons, toList_eq_cons, List.cons_append]
    exact (ih.trans (List.sublist_append_right _ _)).cons_cons _

theorem mem_forestToList {ts : List (Tree α)} {a : α} :
    a ∈ forestToList ts ↔ ∃ t ∈ ts, a ∈ t.toList := by
  induction ts with
  | nil => simp
  | cons t ts ih => simp [ih]

/-- Every node below the root stands directly under some node. -/
theorem exists_under {t : Tree α} {a : α} (h : a ∈ forestToList t.children) :
    ∃ b, Under t.links a b := by
  rw [← (flatMap_snd_links t).mem_iff] at h
  obtain ⟨l, hl, ha⟩ := List.mem_flatMap.mp h
  exact ⟨l.1, l.2, hl, ha⟩

/-- Who stands directly under whom, by their subtrees. -/
theorem under_iff_children {t : Tree α} {a b : α} :
    Under t.links a b ↔ ∃ u ∈ t.subtrees, u.value = b ∧ ∃ c ∈ u.children, c.value = a := by
  constructor
  · rintro ⟨kids, hl, ha⟩
    obtain ⟨u, hu, he⟩ := List.mem_map.mp hl
    obtain ⟨rfl, rfl⟩ := Prod.mk.inj he
    exact ⟨u, hu, rfl, List.mem_map.mp ha⟩
  · rintro ⟨u, hu, rfl, c, hc, rfl⟩
    exact ⟨u.children.map value, List.mem_map_of_mem (f := link) hu, List.mem_map_of_mem hc⟩

/-- The first node stands inside of an earlier sibling of the second one. -/
def InsideElder (t : Tree α) (a b : α) : Prop :=
  ∃ u ∈ t.subtrees, ∃ s c, [s, c].Sublist u.children ∧ a ∈ forestToList s.children ∧ c.value = b

end Tree

namespace Resolve

open WidgetView.Tree

/-- Widgets in the order of their numbers. -/
abbrev Ordered (ws : List (Nat × Widget)) : Prop := ws.Pairwise fun a b => a.1 < b.1

/-- Widgets are numbered in the order of declaration. -/
theorem ordered_number (v : View) : Ordered (v.number 0).1.toList := by
  have h : ((v.number 0).1.toList.map Prod.fst).Pairwise (· < ·) := by
    rw [(map_fst_number 0 v).1]
    exact List.pairwise_lt_range'
  exact List.pairwise_map.mp h

section

variable {n : Numbered} {a b p q m : Nat × Widget}

theorem Ordered.distinct {ws : List (Nat × Widget)} (h : Ordered ws) : Distinct ws :=
  List.pairwise_map.mpr (h.imp Nat.ne_of_lt)

theorem Ordered.lt {ws : List (Nat × Widget)} (h : Ordered ws) (hab : [a, b].Sublist ws) :
    a.1 < b.1 :=
  List.pairwise_iff_forall_sublist.mp h hab

theorem Ordered.subtree {u : Numbered} (h : Ordered n.toList) (hu : u ∈ n.subtrees) :
    Ordered u.toList :=
  h.sublist (toList_sublist_of_mem hu)

/-- A widget stands under one widget only. -/
theorem under_unique (h : Distinct n.toList) (hp : Under n.links a p) (hq : Under n.links a q) :
    p = q := by
  obtain ⟨kids, hl, ha⟩ := hp
  obtain ⟨kids', hl', ha'⟩ := hq
  have hnodup : (n.links.flatMap Prod.snd).Nodup :=
    (flatMap_snd_links n).nodup_iff.mpr (List.Nodup.of_map Prod.fst h.children)
  let Apart (l l' : (Nat × Widget) × List (Nat × Widget)) : Prop := List.Disjoint l.2 l'.2
  have : Std.Symm Apart := ⟨fun _ _ hd => hd.symm⟩
  have hapart : n.links.Pairwise Apart := (List.nodup_flatMap.mp hnodup).2
  by_contra hne
  exact hapart.forall hl hl' (fun he => hne (congrArg Prod.fst he)) ha ha'

/-- A child of a widget in a subtree stands in the subtree, below its root. -/
theorem mem_of_under_mem {s : Numbered} (h : Distinct n.toList) (hs : s ∈ n.subtrees)
    (hp : p ∈ s.toList) (hap : Under n.links a p) : a ∈ forestToList s.children := by
  obtain ⟨kids, hl, ha⟩ := hap
  obtain ⟨kids', hl'⟩ := exists_link hp
  obtain rfl : kids' = kids := congrArg Prod.snd
    (link_unique h ((links_sublist_of_mem hs).subset hl') hl rfl)
  exact (mem_of_mem_links hl').2 a ha

/-- What is declared between a widget and one of its children stands in an earlier child. -/
theorem mem_elder_of_between {u c : Numbered} (h : Ordered n.toList) (hu : u ∈ n.subtrees)
    (hc : c ∈ u.children) (hp : p ∈ n.toList) (hup : u.value.1 < p.1) (hpc : p.1 < c.value.1) :
    ∃ s, [s, c].Sublist u.children ∧ p ∈ s.toList := by
  obtain ⟨front, back, hn⟩ := toList_infix_of_mem n u hu
  obtain ⟨ts, us, hts⟩ := List.append_of_mem hc
  have hlist : n.toList =
      front ++ (u.value :: (forestToList ts ++ (c.value ::
        (forestToList c.children ++ forestToList us))) ++ back) := by
    rw [← hn, toList_eq_cons u, hts, forestToList_append, forestToList_cons, toList_eq_cons c,
      List.cons_append, List.append_assoc]
  rw [hlist, Ordered] at h
  -- everything before the widget has a smaller number, everything from the child on a larger one
  obtain ⟨-, hrest, hfront⟩ := List.pairwise_append.mp h
  obtain ⟨-, hinner⟩ := List.pairwise_cons.mp (List.pairwise_append.mp hrest).1
  obtain ⟨-, hlater, -⟩ := List.pairwise_append.mp hinner
  have hfromChild : ∀ w ∈ c.value :: (forestToList c.children ++ forestToList us),
      ¬ w.1 < c.value.1 := by
    intro w hw
    rcases List.mem_cons.mp hw with rfl | hw
    · exact Nat.lt_irrefl _
    · exact Nat.lt_asymm ((List.pairwise_cons.mp hlater).1 w hw)
  have hback : ∀ w ∈ back, c.value.1 < w.1 := fun w hw =>
    (List.pairwise_append.mp hrest).2.2 c.value (by simp) w hw
  rw [hlist] at hp
  rcases List.mem_append.mp hp with hp | hp
  · exact absurd hup (Nat.lt_asymm (hfront p hp u.value (by simp)))
  · rcases List.mem_append.mp hp with hp | hp
    · rcases List.mem_cons.mp hp with rfl | hp
      · exact absurd hup (Nat.lt_irrefl _)
      · rcases List.mem_append.mp hp with hp | hp
        · obtain ⟨s, hs, hps⟩ := mem_forestToList.mp hp
          refine ⟨s, ?_, hps⟩
          rw [hts]
          exact (List.singleton_sublist.mpr hs).append
            (List.singleton_sublist.mpr List.mem_cons_self)
        · exact absurd hpc (hfromChild p hp)
    · exact absurd hpc (Nat.lt_asymm (hback p hp))

/-! ### Widgets that move -/

/-- The first widget is collected before the second one: its parent is declared before the other
parent, or they have one parent and the widget itself is declared before the other one. -/
def Precedes (n : Numbered) (a b : Nat × Widget) : Prop :=
  ∃ p q, Under n.links a p ∧ Under n.links b q ∧ (p.1 < q.1 ∨ p = q ∧ a.1 < b.1)

theorem movers_precede (h : Ordered n.toList) : (movers n).Pairwise (Precedes n) := by
  have hunder : ∀ s ∈ n.subtrees, ∀ w ∈ (s.children.map value).filter fun w => w.2.parent.isSome,
      Under n.links w s.value := by
    intro s hs w hw
    obtain ⟨c, hc, rfl⟩ := List.mem_map.mp (List.mem_filter.mp hw).1
    exact under_iff_children.mpr ⟨s, hs, rfl, c, hc, rfl⟩
  rw [movers, List.pairwise_flatMap]
  constructor
  · intro s hs
    have hkids : Ordered (s.children.map value) := by
      have hbelow := h.subtree hs
      rw [toList_eq_cons] at hbelow
      exact (List.pairwise_cons.mp hbelow).2.sublist (map_value_sublist _)
    refine (hkids.filter _).imp_of_mem fun ha hb hab => ?_
    exact ⟨s.value, s.value, hunder s hs _ ha, hunder s hs _ hb, Or.inr ⟨rfl, hab⟩⟩
  · rw [← map_value_subtrees, Ordered, List.pairwise_map] at h
    refine h.imp_of_mem fun hs hs' hlt a ha b hb => ?_
    exact ⟨_, _, hunder _ hs a ha, hunder _ hs' b hb, Or.inl hlt⟩

/-- A widget inside of an earlier sibling is declared first and collected last. -/
theorem overtaken (h : Ordered n.toList) (hab : InsideElder n a b) :
    a.1 < b.1 ∧ ¬ Precedes n a b := by
  obtain ⟨u, hu, s, c, hsc, ha, rfl⟩ := hab
  have hboth : (s.toList ++ c.toList).Sublist (forestToList u.children) := by
    simpa using forestToList_sublist hsc
  have hbelow : Ordered (u.value :: forestToList u.children) := by
    rw [← toList_eq_cons]
    exact h.subtree hu
  have hs : s ∈ n.subtrees :=
    (subtrees_sublist_of_mem n u hu).subset (mem_subtrees_of_mem_children (hsc.subset (by simp)))
  constructor
  · have has : a ∈ s.toList := by
      rw [toList_eq_cons]
      exact List.mem_cons_of_mem _ ha
    have hpair := (List.singleton_sublist.mpr has).append
      (List.singleton_sublist.mpr (value_mem_toList c))
    exact Ordered.lt (List.pairwise_cons.mp hbelow).2 (hpair.trans hboth)
  · rintro ⟨p, q, hp, hq, hpq⟩
    obtain ⟨p', hp'⟩ := exists_under ha
    obtain rfl := under_unique h.distinct hp (hp'.mono (links_sublist_of_mem hs).subset)
    obtain rfl := under_unique h.distinct hq
      (under_iff_children.mpr ⟨u, hu, rfl, c, hsc.subset (by simp), rfl⟩)
    have hin : p ∈ forestToList u.children :=
      mem_forestToList.mpr ⟨s, hsc.subset (by simp), (mem_of_under hp').2⟩
    have hlt : u.value.1 < p.1 := (List.pairwise_cons.mp hbelow).1 p hin
    rcases hpq with hpq | ⟨rfl, -⟩
    · exact Nat.lt_asymm hlt hpq
    · exact Nat.lt_irrefl _ hlt

/-- Widgets collected one before the other are declared so, or the second one stands inside of an
earlier sibling of the first. -/
theorem lt_or_insideElder (h : Ordered n.toList) (hab : Precedes n a b) :
    a.1 < b.1 ∨ InsideElder n b a := by
  obtain ⟨p, q, hp, hq, hlt | ⟨-, hlt⟩⟩ := hab
  · rcases Nat.lt_or_ge a.1 b.1 with hab | hba
    · exact Or.inl hab
    right
    have hqb : q.1 < b.1 := h.lt (Under.sublist n b q hq)
    obtain ⟨u, hu, rfl, c, hc, rfl⟩ := under_iff_children.mp hp
    obtain ⟨s, hsc, hqs⟩ := mem_elder_of_between h hu hc (mem_of_under hq).2 hlt (by omega)
    have hs : s ∈ n.subtrees :=
      (subtrees_sublist_of_mem n u hu).subset (mem_subtrees_of_mem_children (hsc.subset (by simp)))
    exact ⟨u, hu, s, c, hsc, mem_of_under_mem h.distinct hs hqs hq, rfl⟩
  · exact Or.inl hlt

/-- Widgets in the order of collection are in the order of declaration unless one overtakes
another. -/
theorem ordered_iff {ws : List (Nat × Widget)} (h : Ordered n.toList)
    (hws : ws.Pairwise (Precedes n)) : Ordered ws ↔ ∀ a ∈ ws, ∀ b ∈ ws, ¬ InsideElder n a b := by
  constructor
  · intro hordered a ha b hb hab
    obtain ⟨hlt, hlate⟩ := overtaken h hab
    let Apart (a b : Nat × Widget) : Prop :=
      (Precedes n a b ∧ a.1 < b.1) ∨ (Precedes n b a ∧ b.1 < a.1)
    have : Std.Symm Apart := ⟨fun _ _ => Or.symm⟩
    have hapart : ws.Pairwise Apart := (hws.and hordered).imp Or.inl
    rcases hapart.forall ha hb (fun he => Nat.lt_irrefl _ (he ▸ hlt)) with ⟨hfirst, -⟩ | ⟨-, hgt⟩
    · exact hlate hfirst
    · exact Nat.lt_asymm hlt hgt
  · intro hnone
    refine hws.imp_of_mem fun ha hb hab => ?_
    exact (lt_or_insideElder h hab).resolve_right (hnone _ hb _ ha)

end

theorem named?_eq_some_iff {ws : List (Nat × Widget)} {name : String} {u : Nat × Widget}
    (h : Distinct ws) (hu : u ∈ ws) : named? ws name = some u.1 ↔ IsLast ws name u := by
  constructor
  · intro hk
    obtain ⟨w, hw, he⟩ := isLast_of_named? hk
    exact h.eq hw.mem hu he ▸ hw
  · rintro ⟨front, back, rfl, hname, hother⟩
    have hback : back.reverse.find? (fun w => w.2.name = name) = none := by
      rw [List.find?_eq_none]
      intro w hw
      simpa using hother w (List.mem_reverse.mp hw)
    simp [named?, List.find?_append, hback, hname]

end Resolve

open Resolve

/-- The widgets that move under a widget follow its other children: those whose parents are declared
earlier come first, and those with one parent come in their order. This is the order of declaration
exactly if none of them stands inside of an earlier sibling of another one. -/
theorem arrivals_in_order_iff {v r : View} (h : resolve v = .ok r) :
    ∃ n t : Numbered, n.map Prod.snd = v ∧ t.map Prod.snd = r ∧ Ordered n.toList ∧
      t.toList.Perm n.toList ∧
      ∀ u kids, (u, kids) ∈ n.links → ∃ moved,
        (u, (kids.filter fun w => w.2.parent.isNone) ++ moved) ∈ t.links ∧
        (∀ m, m ∈ moved ↔ m ∈ n.toList ∧ ∃ p, m.2.parent = some p ∧ IsLast n.toList p u) ∧
        moved.Pairwise (Precedes n) ∧
        (Ordered moved ↔ ∀ a ∈ moved, ∀ b ∈ moved, ¬ n.InsideElder a b) := by
  obtain ⟨hroot, t, hall, hr⟩ := resolve_eq_ok h
  have hordered := ordered_number v
  have hn := hordered.distinct
  have hcarried := carried_of_moveAll hn List.prefix_rfl hall
  refine ⟨(v.number 0).1, t, Tree.map_snd_number 0 v, hr, hordered, hcarried.toList_perm, ?_⟩
  intro u kids hk
  have hu : u ∈ (v.number 0).1.toList := (Tree.mem_of_mem_links hk).1
  let moved := (movers (v.number 0).1).filter fun m => target? (v.number 0).1.toList m = some u.1
  have hmoved : moved.Pairwise (Precedes (v.number 0).1) := (movers_precede hordered).filter _
  refine ⟨moved, ?_, fun m => ?_, hmoved, ordered_iff hordered hmoved⟩
  · have hlink := hcarried.links.mem_iff.mpr (List.mem_map_of_mem hk)
    rwa [settle, filter_unmoved hn hk] at hlink
  · rw [List.mem_filter, decide_eq_true_eq, mem_movers, target?]
    constructor
    · rintro ⟨⟨hm, -⟩, ht⟩
      obtain ⟨p, hp, hnamed⟩ := Option.bind_eq_some_iff.mp ht
      rw [Tree.toList_eq_cons]
      exact ⟨List.mem_cons_of_mem _ hm, p, hp,
        Tree.toList_eq_cons _ ▸ (named?_eq_some_iff hn hu).mp hnamed⟩
    · rintro ⟨hm, p, hp, hlast⟩
      rw [hp]
      refine ⟨⟨?_, rfl⟩, (named?_eq_some_iff hn hu).mpr hlast⟩
      rw [Tree.toList_eq_cons] at hm
      rcases List.mem_cons.mp hm with rfl | hm
      · cases v
        exact absurd (hroot.symm.trans hp) (by simp)
      · exact hm

/-- Two widgets arrive, in order, from parents that stand side by side. -/
theorem arrivals_in_order_sample :
    let w (name : String) (parent : Option String) : Widget :=
      ⟨name, ⟨[name], none, 1, 1⟩, .composed {}, [], {}, {}, none, parent, 1, 1⟩
    let v : View := .node (w "box" none) [.node (w "left" none) [.node (w "a" (some "c")) []],
      .node (w "right" none) [.node (w "b" (some "c")) []],
      .node (w "c" none) [.node (w "d" none) []]]
    let r : View := .node (w "box" none) [.node (w "left" none) [], .node (w "right" none) [],
      .node (w "c" none)
        [.node (w "d" none) [], .node (w "a" (some "c")) [], .node (w "b" (some "c")) []]]
    resolve v = .ok r ∧ ∃ n : Numbered, ∃ moved : List (Nat × Widget), n.map Prod.snd = v ∧
      moved.map Prod.snd = [w "a" (some "c"), w "b" (some "c")] ∧ moved.Pairwise (Precedes n) := by
  intro w v r
  have h : resolve v = .ok r := by rfl
  obtain ⟨n, t, hn, ht, -, -, hlinks⟩ := arrivals_in_order_iff h
  refine ⟨h, n, ?_⟩
  have hkids : n.links.map (fun l => (l.1.2, l.2.map Prod.snd)) = v.links := by
    rw [← hn, Tree.links_map]
  have hkids' : t.links.map (fun l => (l.1.2, l.2.map Prod.snd)) = r.links := by
    rw [← ht, Tree.links_map]
  have hmem : (w "c" none, [w "d" none]) ∈ v.links := by simp [v, Tree.value]
  rw [← hkids] at hmem
  obtain ⟨⟨u, kids⟩, hk, heq⟩ := List.mem_map.mp hmem
  obtain ⟨moved, hmoved, -, hprecedes, -⟩ := hlinks u kids hk
  obtain ⟨hu, hd⟩ := Prod.mk.inj heq
  obtain ⟨kid, rfl, hkid⟩ := List.map_eq_singleton_iff.mp hd
  have hlink : (w "c" none, w "d" none :: moved.map Prod.snd) ∈ r.links := by
    rw [← hkids']
    refine List.mem_map.mpr ⟨_, hmoved, Prod.ext hu ?_⟩
    simp [hkid, w]
  refine ⟨moved, hn, ?_, hprecedes⟩
  simpa [r, w, Tree.value] using hlink

/-- A widget is declared inside of another one, and a later sibling of the other one overtakes
it. -/
theorem later_sibling_overtakes :
    let w (name : String) (parent : Option String) : Widget :=
      ⟨name, ⟨[name], none, 1, 1⟩, .composed {}, [], {}, {}, none, parent, 1, 1⟩
    let v : View := .node (w "box" none) [.node (w "target" none) [],
      .node (w "row" none) [.node (w "first" (some "target")) []],
      .node (w "second" (some "target")) []]
    v.widgets.map Widget.name = ["box", "target", "row", "first", "second"] ∧
      resolve v = .ok (.node (w "box" none) [.node (w "target" none)
        [.node (w "second" (some "target")) [], .node (w "first" (some "target")) []],
        .node (w "row" none) []]) := by
  intro w v
  exact ⟨rfl, rfl⟩

end WidgetView
