import WidgetView.Proofs.Links

/-!
# What resolution does

What resolution of parents does to a view. The numbered widgets are never lost, doubled or changed,
and each move changes the links in two places only. After all moves a widget has the children it
had, less those that asked for a parent, and after them the widgets that asked for it.
-/
namespace WidgetView

namespace Tree

variable {α : Type}

mutual

theorem map_snd_number : (n : Nat) → (t : Tree α) → (number n t).1.map Prod.snd = t
  | n, node a ts => by rw [number, map, map_snd_numberForest (n + 1) ts]

theorem map_snd_numberForest : (n : Nat) → (ts : List (Tree α)) →
    forestMap Prod.snd (numberForest n ts).1 = ts
  | n, [] => by simp [numberForest, forestMap]
  | n, t :: ts => by
    rw [numberForest, forestMap, map_snd_number n t, map_snd_numberForest (number n t).2 ts]

end

mutual

/-- Nodes are numbered one after another in the order of `toList`. -/
theorem map_fst_number : (n : Nat) → (t : Tree α) →
    (number n t).1.toList.map Prod.fst = List.range' n t.toList.length ∧
      (number n t).2 = n + t.toList.length
  | n, node a ts => by
    obtain ⟨hids, hnext⟩ := map_fst_numberForest (n + 1) ts
    rw [number, toList_node, toList_node, List.map_cons, hids, List.length_cons,
      List.range'_succ, hnext]
    exact ⟨rfl, by omega⟩

theorem map_fst_numberForest : (n : Nat) → (ts : List (Tree α)) →
    (forestToList (numberForest n ts).1).map Prod.fst = List.range' n (forestToList ts).length ∧
      (numberForest n ts).2 = n + (forestToList ts).length
  | n, [] => by simp [numberForest]
  | n, t :: ts => by
    obtain ⟨hids, hnext⟩ := map_fst_number n t
    obtain ⟨hids', hnext'⟩ := map_fst_numberForest (number n t).2 ts
    rw [numberForest, forestToList_cons, forestToList_cons, List.map_append, hids, hids',
      List.length_append, hnext', hnext, List.range'_append_1]
    exact ⟨rfl, by omega⟩

end

theorem nodup_number (n : Nat) (t : Tree α) : ((number n t).1.toList.map Prod.fst).Nodup := by
  rw [(map_fst_number n t).1]
  exact List.nodup_range'

end Tree

namespace Resolve

open WidgetView.Tree

/-- Different widgets have different numbers. -/
abbrev Distinct (ws : List (Nat × Widget)) : Prop := (ws.map Prod.fst).Nodup

theorem Distinct.eq {ws : List (Nat × Widget)} (h : Distinct ws) {u w : Nat × Widget}
    (hu : u ∈ ws) (hw : w ∈ ws) (hk : u.1 = w.1) : u = w :=
  List.inj_on_of_nodup_map h hu hw hk

theorem Distinct.countP_eq_one {ws : List (Nat × Widget)} (h : Distinct ws) {w : Nat × Widget}
    (hw : w ∈ ws) : ws.countP (fun u => u.1 = w.1) = 1 := by
  have hc := List.count_eq_one_of_mem h (List.mem_map_of_mem (f := Prod.fst) hw)
  rw [List.count_eq_countP, List.countP_map] at hc
  rw [← hc]
  exact List.countP_congr fun u _ => by simp

theorem subtree?_eq_some {t : Numbered} (h : Distinct t.toList) {w : Nat × Widget}
    (hw : w ∈ t.toList) : ∃ s, subtree? t w.1 = some s ∧ s.value = w := by
  have hf : (subtree? t w.1).isSome := by
    rw [subtree?, List.find?_isSome]
    rw [← map_value_subtrees] at hw
    obtain ⟨s, hs, rfl⟩ := List.mem_map.mp hw
    exact ⟨s, hs, by simp⟩
  obtain ⟨s, hs⟩ := Option.isSome_iff_exists.mp hf
  have hk : s.value.1 = w.1 := by simpa using List.find?_some hs
  have hm : s.value ∈ t.toList := by
    rw [← map_value_subtrees]
    exact List.mem_map_of_mem (List.mem_of_find?_eq_some hs)
  exact ⟨s, hs, h.eq hm hw hk⟩

/-- The link of a widget after widget `m` has been put under widget `target`. -/
def relink (m : Nat × Widget) (target : Nat) (l : (Nat × Widget) × List (Nat × Widget)) :
    (Nat × Widget) × List (Nat × Widget) :=
  addKid (fun w => w.1 = target) m (dropKids (fun w => w.1 = m.1) l)

theorem relink_eq (m : Nat × Widget) (target : Nat) (l : (Nat × Widget) × List (Nat × Widget)) :
    relink m target l =
      (l.1, (l.2.filter fun u => !decide (u.1 = m.1)) ++ if l.1.1 = target then [m] else []) := by
  by_cases h : l.1.1 = target <;> simp [relink, addKid, dropKids, h]

theorem value_move (t : Numbered) (k target : Nat) : (move t k target).value = t.value := by
  unfold move
  cases subtree? t k <;> simp

/-- One move relinks the widget that moves and nothing else. -/
theorem links_move_eq {t : Numbered} {m w : Nat × Widget} (h : Distinct t.toList)
    (hm : m ∈ forestToList t.children) (hw : w ∈ t.toList) (hb : isBelow t m.1 w.1 = false) :
    (move t m.1 w.1).links.Perm (t.links.map (relink m w.1)) := by
  have hmt : m ∈ t.toList := by
    rw [toList_eq_cons]
    exact List.mem_cons_of_mem _ hm
  obtain ⟨s, hs, hv⟩ := subtree?_eq_some h hmt
  have hroot : t.value.1 ≠ m.1 := by
    have hn := h
    rw [Distinct, toList_eq_cons, List.map_cons, List.nodup_cons] at hn
    intro he
    exact hn.1 (he ▸ List.mem_map_of_mem hm)
  have hfree : s.toList.countP (fun u => u.1 = w.1) = 0 := by
    simp only [isBelow, hs, List.any_eq_false] at hb
    rw [List.countP_eq_zero]
    exact hb
  have hmove : move t m.1 w.1 = graft (fun u => u.1 = w.1) s (t.prune fun u => u.1 = m.1) := by
    rw [move, hs]
  rw [hmove, ← hv]
  refine links_move ?_ (by simpa [hv] using hroot) ?_ (h.countP_eq_one hw) hfree
  · rw [hv]
    exact Nat.le_of_eq (h.countP_eq_one hmt)
  · rw [hv]
    exact hs

/-- The widget that a request asks for, by number. -/
def target? (widgets : List (Nat × Widget)) (w : Nat × Widget) : Option Nat :=
  w.2.parent.bind (named? widgets)

/-- The link of a widget after all of some widgets have been moved. -/
def settle (widgets ms : List (Nat × Widget)) (l : (Nat × Widget) × List (Nat × Widget)) :
    (Nat × Widget) × List (Nat × Widget) :=
  (l.1, (l.2.filter fun u => u.1 ∉ ms.map Prod.fst) ++
    ms.filter fun m => target? widgets m = some l.1.1)

theorem settle_nil (widgets : List (Nat × Widget)) (l : (Nat × Widget) × List (Nat × Widget)) :
    settle widgets [] l = l := by
  simp [settle]

/-- Moving one widget and then the others is moving them all. -/
theorem settle_relink {widgets ms : List (Nat × Widget)} {m : Nat × Widget} {target : Nat}
    (h : Distinct (m :: ms)) (ht : target? widgets m = some target)
    (l : (Nat × Widget) × List (Nat × Widget)) :
    settle widgets ms (relink m target l) = settle widgets (m :: ms) l := by
  have hm : m.1 ∉ ms.map Prod.fst := (List.nodup_cons.mp h).1
  have hkept : (l.2.filter fun u => !decide (u.1 = m.1)).filter (fun u => u.1 ∉ ms.map Prod.fst) =
      l.2.filter fun u => u.1 ∉ (m :: ms).map Prod.fst := by
    rw [List.filter_filter]
    refine List.filter_congr fun u _ => ?_
    rw [Bool.eq_iff_iff]
    simp only [List.map_cons, List.mem_cons, Bool.and_eq_true, Bool.not_eq_true',
      decide_eq_true_eq, decide_eq_false_iff_not, not_or]
    exact and_comm
  have hmoved : (if l.1.1 = target then [m] else []).filter
      (fun u => u.1 ∉ ms.map Prod.fst) = if target = l.1.1 then [m] else [] := by
    by_cases he : target = l.1.1
    · subst he
      simpa using hm
    · have he' : ¬ l.1.1 = target := fun hc => he hc.symm
      simp [he, he']
  rw [relink_eq, settle, settle]
  dsimp only
  rw [List.filter_append, hkept, hmoved, List.filter_cons, ht, List.append_assoc]
  by_cases he : target = l.1.1
  · simp [he]
  · simp [he]

theorem mem_of_named? {widgets : List (Nat × Widget)} {name : String} {k : Nat}
    (h : named? widgets name = some k) : ∃ w ∈ widgets, w.1 = k := by
  obtain ⟨w, hw, rfl⟩ := Option.map_eq_some_iff.mp h
  exact ⟨w, List.mem_reverse.mp (List.mem_of_find?_eq_some hw), rfl⟩

theorem toList_perm_of_links {t u : Numbered}
    (f : (Nat × Widget) × List (Nat × Widget) → (Nat × Widget) × List (Nat × Widget))
    (hf : ∀ l, (f l).1 = l.1) (h : u.links.Perm (t.links.map f)) : u.toList.Perm t.toList := by
  have hp := h.map Prod.fst
  rw [List.map_map, map_fst_links] at hp
  refine hp.trans ?_
  rw [← map_fst_links t]
  exact List.Perm.of_eq (List.map_congr_left fun l _ => hf l)

theorem children_perm {t u : Numbered} (hv : u.value = t.value) (h : u.toList.Perm t.toList) :
    (forestToList u.children).Perm (forestToList t.children) := by
  rw [toList_eq_cons, toList_eq_cons t, hv] at h
  exact h.cons_inv

/-- All moves together: the root stays, every request names a widget, and each link is settled. -/
theorem links_moveAll {widgets ms : List (Nat × Widget)} {t t' : Numbered}
    (h : moveAll widgets t ms = .ok t') (ht : Distinct t.toList) (hms : Distinct ms)
    (hmem : ∀ m ∈ ms, m ∈ forestToList t.children) (hask : ∀ m ∈ ms, m.2.parent.isSome)
    (hw : widgets.Perm t.toList) :
    t'.value = t.value ∧ t'.links.Perm (t.links.map (settle widgets ms)) ∧
      ∀ m ∈ ms, (target? widgets m).isSome := by
  induction ms generalizing t with
  | nil =>
    obtain rfl := Except.ok.inj h
    refine ⟨rfl, ?_, by simp⟩
    rw [List.map_congr_left fun l _ => settle_nil widgets l]
    simp
  | cons m ms ih =>
    obtain ⟨k, w⟩ := m
    obtain ⟨p, hp⟩ := Option.isSome_iff_exists.mp (hask (k, w) List.mem_cons_self)
    simp only at hp
    cases hn : named? widgets p with
    | none => simp [moveAll, hp, hn] at h
    | some target =>
      have htarget : target? widgets (k, w) = some target := by simp [target?, hp, hn]
      cases hb : isBelow t k target with
      | true => simp [moveAll, hp, hn, hb] at h
      | false =>
        simp only [moveAll, hp, hn, hb] at h
        obtain ⟨u, hu, rfl⟩ := mem_of_named? hn
        -- one move: the nodes stay the same up to order, so the rest of the moves can go on from
        -- there
        have hlinks := links_move_eq ht (hmem (k, w) List.mem_cons_self) (hw.mem_iff.mp hu) hb
        have hvalue := value_move t k u.1
        have hall := toList_perm_of_links (relink (k, w) u.1) (fun l => rfl) hlinks
        have hkids := children_perm hvalue hall
        obtain ⟨hv, hl, hts⟩ := ih h ((hall.map Prod.fst).nodup_iff.mpr ht)
          (List.nodup_cons.mp hms).2
          (fun m hm => hkids.mem_iff.mpr (hmem m (List.mem_cons_of_mem _ hm)))
          (fun m hm => hask m (List.mem_cons_of_mem _ hm)) (hw.trans hall.symm)
        refine ⟨hv.trans hvalue, ?_, ?_⟩
        · refine hl.trans ((hlinks.map _).trans ?_)
          rw [List.map_map]
          exact List.Perm.of_eq (List.map_congr_left fun l _ => settle_relink hms htarget l)
        · intro m hm
          rcases List.mem_cons.mp hm with rfl | hm
          · rw [htarget]
            rfl
          · exact hts m hm

/-- The widgets to move are collected link by link. -/
theorem movers_eq (t : Numbered) :
    movers t = t.links.flatMap fun l => l.2.filter fun w => w.2.parent.isSome := by
  rw [movers, links, List.flatMap_map]
  rfl

/-- The widgets to move are those below the root that ask for a parent. -/
theorem movers_perm (t : Numbered) :
    (movers t).Perm ((forestToList t.children).filter fun w => w.2.parent.isSome) := by
  rw [movers_eq, ← List.filter_flatMap]
  exact (flatMap_snd_links t).filter _

theorem mem_movers {t : Numbered} {w : Nat × Widget} :
    w ∈ movers t ↔ w ∈ forestToList t.children ∧ w.2.parent.isSome := by
  rw [(movers_perm t).mem_iff, List.mem_filter]

theorem Distinct.children {t : Numbered} (h : Distinct t.toList) :
    Distinct (forestToList t.children) := by
  rw [Distinct, toList_eq_cons, List.map_cons] at h
  exact (List.nodup_cons.mp h).2

theorem Distinct.movers {t : Numbered} (h : Distinct t.toList) : Distinct (movers t) := by
  have hsub : ((forestToList t.children).filter fun w => w.2.parent.isSome).Sublist _ :=
    List.filter_sublist
  exact ((movers_perm t).map Prod.fst).nodup_iff.mpr (h.children.sublist (hsub.map Prod.fst))

/-- Among the children of a widget, those that are moved are those that ask for a parent. -/
theorem filter_unmoved {t : Numbered} (h : Distinct t.toList)
    {l : (Nat × Widget) × List (Nat × Widget)} (hl : l ∈ t.links) :
    (l.2.filter fun u => u.1 ∉ (movers t).map Prod.fst) =
      l.2.filter fun u => u.2.parent.isNone := by
  refine List.filter_congr fun u hu => ?_
  have hin := (mem_of_mem_links hl).2 u hu
  rw [← Option.not_isSome, Bool.eq_iff_iff]
  simp only [decide_eq_true_eq, Bool.not_eq_true', List.mem_map, not_exists, not_and]
  constructor
  · intro hno
    by_contra hp
    have hsome : u.2.parent.isSome := Option.isSome_iff_ne_none.mpr (by simpa using hp)
    exact hno u (mem_movers.mpr ⟨hin, hsome⟩) rfl
  · intro hp m hm hk
    obtain ⟨hmin, hmp⟩ := mem_movers.mp hm
    have he := h.children.eq hmin hin hk
    rw [he, hp] at hmp
    exact absurd hmp (by simp)

/-- The widget is the last one of its name in a list. -/
def IsLast (ws : List (Nat × Widget)) (name : String) (u : Nat × Widget) : Prop :=
  ∃ front back, ws = front ++ u :: back ∧ u.2.name = name ∧ ∀ w ∈ back, w.2.name ≠ name

theorem isLast_of_named? {ws : List (Nat × Widget)} {name : String} {k : Nat}
    (h : named? ws name = some k) : ∃ u, IsLast ws name u ∧ u.1 = k := by
  obtain ⟨u, hu, hk⟩ := Option.map_eq_some_iff.mp h
  obtain ⟨hname, back, front, hws, hother⟩ := List.find?_eq_some_iff_append.mp hu
  refine ⟨u, ⟨front.reverse, back.reverse, ?_, by simpa using hname, ?_⟩, hk⟩
  · rw [← List.reverse_reverse ws, hws]
    simp
  · intro w hw
    simpa using hother w (List.mem_reverse.mp hw)

theorem IsLast.mem {ws : List (Nat × Widget)} {name : String} {u : Nat × Widget}
    (h : IsLast ws name u) : u ∈ ws := by
  obtain ⟨front, back, rfl, -⟩ := h
  simp

/-- The second tree is the first one with every request for a parent carried out: the same widgets
under the same root, each request met by the last widget of that name, all other widgets where they
were and in their order, before the widgets that were moved there. -/
structure Realised (n t : Numbered) : Prop where
  distinct : Distinct n.toList
  root : t.value = n.value
  widgets : t.toList.Perm n.toList
  requested : ∀ w ∈ n.toList, ∀ p, w.2.parent = some p →
    ∃ u kids, IsLast n.toList p u ∧ (u, kids) ∈ t.links ∧ w ∈ kids
  unrequested : ∀ u kids, (u, kids) ∈ n.links → ∀ w ∈ kids, w.2.parent = none →
    ∃ kids', (u, kids') ∈ t.links ∧ w ∈ kids'
  order : ∀ u kids kids', (u, kids) ∈ n.links → (u, kids') ∈ t.links →
    ∃ moved, kids' = (kids.filter fun w => w.2.parent.isNone) ++ moved ∧
      ∀ w ∈ moved, w.2.parent.isSome

theorem link_unique {t : Numbered} (h : Distinct t.toList)
    {l l' : (Nat × Widget) × List (Nat × Widget)} (hl : l ∈ t.links) (hl' : l' ∈ t.links)
    (he : l.1 = l'.1) : l = l' := by
  have hn : (t.links.map Prod.fst).Nodup := by
    rw [map_fst_links]
    exact List.Nodup.of_map Prod.fst h
  exact List.inj_on_of_nodup_map hn hl hl' he

/-- Every widget has a link. -/
theorem exists_link {t : Numbered} {u : Nat × Widget} (h : u ∈ t.toList) :
    ∃ kids, (u, kids) ∈ t.links := by
  rw [← map_fst_links] at h
  obtain ⟨⟨u', kids⟩, hl, rfl⟩ := List.mem_map.mp h
  exact ⟨kids, hl⟩

/-- What the settled links say about the tree. -/
theorem realised_of_links {n t : Numbered} (hn : Distinct n.toList)
    (hroot : n.value.2.parent = none) (hv : t.value = n.value)
    (hl : t.links.Perm (n.links.map (settle n.toList (movers n))))
    (hts : ∀ m ∈ movers n, (target? n.toList m).isSome) : Realised n t := by
  have hwidgets := toList_perm_of_links (settle n.toList (movers n)) (fun _ => rfl) hl
  have hlink : ∀ u kids, (u, kids) ∈ n.links →
      (u, (kids.filter fun w => w.2.parent.isNone) ++
        (movers n).filter fun m => target? n.toList m = some u.1) ∈ t.links := by
    intro u kids hk
    have hs := hl.mem_iff.mpr (List.mem_map_of_mem (f := settle n.toList (movers n)) hk)
    rw [settle, filter_unmoved hn hk] at hs
    exact hs
  refine ⟨hn, hv, hwidgets, ?_, ?_, ?_⟩
  · intro w hw p hp
    have hm : w ∈ movers n := by
      rw [toList_eq_cons] at hw
      rcases List.mem_cons.mp hw with rfl | hw
      · rw [hroot] at hp
        cases hp
      · exact mem_movers.mpr ⟨hw, by rw [hp]; rfl⟩
    obtain ⟨k, hk⟩ := Option.isSome_iff_exists.mp (hts w hm)
    have hnamed : named? n.toList p = some k := by
      rw [target?, hp] at hk
      exact hk
    obtain ⟨u, hu, rfl⟩ := isLast_of_named? hnamed
    obtain ⟨kids, hkids⟩ := exists_link hu.mem
    refine ⟨u, _, hu, hlink u kids hkids, ?_⟩
    exact List.mem_append_right _ (List.mem_filter.mpr ⟨hm, by simpa using hk⟩)
  · intro u kids hk w hw hp
    refine ⟨_, hlink u kids hk, ?_⟩
    exact List.mem_append_left _ (List.mem_filter.mpr ⟨hw, by rw [hp]; rfl⟩)
  · intro u kids kids' hk hk'
    have ht : Distinct t.toList := (hwidgets.map Prod.fst).nodup_iff.mpr hn
    have he := link_unique ht hk' (hlink u kids hk) rfl
    refine ⟨_, congrArg Prod.snd he, ?_⟩
    intro w hw
    exact (mem_movers.mp (List.mem_filter.mp hw).1).2

end Resolve

open Resolve

/-- Resolution conserves the tree and carries out every request. -/
theorem resolve_realised {v r : View} (h : resolve v = .ok r) :
    ∃ n t : Numbered, n.map Prod.snd = v ∧ t.map Prod.snd = r ∧ Realised n t := by
  have hsnd := Tree.map_snd_number 0 v
  have hroot : (v.number 0).1.value.2 = v.value := by
    cases v
    rfl
  cases hp : v.value.parent with
  | some p => cases hf : named? (v.number 0).1.toList p <;> simp [resolve, hp, hf] at h
  | none =>
    simp only [resolve, hp] at h
    cases hm : moveAll (v.number 0).1.toList (v.number 0).1 (movers (v.number 0).1) with
    | error e =>
      rw [hm] at h
      cases h
    | ok t =>
      rw [hm] at h
      obtain rfl := Except.ok.inj h
      have hn : Distinct (v.number 0).1.toList := Tree.nodup_number 0 v
      obtain ⟨hv, hl, hts⟩ := links_moveAll hm hn hn.movers
        (fun m hm => (mem_movers.mp hm).1) (fun m hm => (mem_movers.mp hm).2) (List.Perm.refl _)
      refine ⟨(v.number 0).1, t, hsnd, rfl, ?_⟩
      exact realised_of_links hn (by rw [hroot]; exact hp) hv hl hts

/-- A widget moves, and one that it carries moves back out of it. -/
theorem resolve_realised_sample :
    let w (name : String) (parent : Option String) : Widget :=
      ⟨name, ⟨[name], none, 1, 1⟩, .composed {}, [], {}, {}, none, parent, 1, 1⟩
    let v : View := .node (w "box" none)
      [.node (w "a" (some "c")) [.node (w "b" (some "box")) []], .node (w "c" none) []]
    let r : View := .node (w "box" none)
      [.node (w "c" none) [.node (w "a" (some "c")) []], .node (w "b" (some "box")) []]
    resolve v = .ok r ∧
      ∃ n t : Numbered, n.map Prod.snd = v ∧ t.map Prod.snd = r ∧ Realised n t := by
  intro w v r
  have h : resolve v = .ok r := by rfl
  exact ⟨h, resolve_realised h⟩

end WidgetView
