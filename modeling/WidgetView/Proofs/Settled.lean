import WidgetView.Proofs.ParentCycles

/-!
# Resolved views

What a resolution leaves behind. Under every widget stand first the children that ask for no parent
and then those that ask for this widget. A tree of this shape is left alone: its requests are met in
the order in which they were carried out, so another resolution goes through and gives the same
tree.
-/
namespace WidgetView

namespace Tree

variable {α : Type} {ls : List (α × List α)}

mutual

/-- Where every node has one link, a tree is known by its root and its links. -/
theorem eq_of_links (h : ∀ l ∈ ls, ∀ l' ∈ ls, l.1 = l'.1 → l = l') : (t u : Tree α) →
    t.value = u.value → t.links ⊆ ls → u.links ⊆ ls → t = u
  | node a ts, node b us => by
    intro hvalue ht hu
    obtain rfl : a = b := hvalue
    rw [links_node, List.cons_subset] at ht hu
    have hlink := h _ ht.1 _ hu.1 rfl
    rw [eq_of_forestLinks h ts us (Prod.mk.inj hlink).2 ht.2 hu.2]

theorem eq_of_forestLinks (h : ∀ l ∈ ls, ∀ l' ∈ ls, l.1 = l'.1 → l = l') : (ts us : List (Tree α)) →
    ts.map value = us.map value → forestLinks ts ⊆ ls → forestLinks us ⊆ ls → ts = us
  | [], us => by
    intro hvalues _ _
    exact (List.map_eq_nil_iff.mp hvalues.symm).symm
  | t :: ts, us => by
    intro hvalues ht hu
    obtain ⟨u, us, rfl, hvalue, hvalues⟩ := List.map_eq_cons_iff.mp hvalues.symm
    rw [forestLinks_cons, List.append_subset] at ht hu
    rw [eq_of_links h t u hvalue.symm ht.1 hu.1, eq_of_forestLinks h ts us hvalues.symm ht.2 hu.2]

end

end Tree

open WidgetView.Tree

/-- Each list of children begins with those that ask for no parent, and goes on with those that ask
for the widget they stand under. -/
def Settled (v : View) : Prop :=
  ∀ l ∈ v.links, ∃ kept moved, l.2 = kept ++ moved ∧ (∀ w ∈ kept, w.parent = none) ∧
    ∀ w ∈ moved, w.parent = some l.1.name

namespace Resolve

/-- A name that no other widget has leads to its widget. -/
theorem named?_of_mem {ws : List (Nat × Widget)} {u : Nat × Widget} (h : Named ws) (hu : u ∈ ws) :
    named? ws u.2.name = some u.1 := by
  cases hfind : ws.reverse.find? fun w => w.2.name = u.2.name with
  | none => simpa using List.find?_eq_none.mp hfind u (List.mem_reverse.mpr hu)
  | some w =>
    have hw : w ∈ ws := List.mem_reverse.mp (List.mem_of_find?_eq_some hfind)
    have hname : w.2.name = u.2.name := by simpa using List.find?_some hfind
    rw [named?, hfind, h.eq hw hu hname]
    rfl

/-- The one list among several whose members are looked for. -/
theorem filter_flatMap_eq {α β : Type} {bs : List β} {f : β → List α} {p : α → Bool} {b : β}
    (hn : bs.Nodup) (hb : b ∈ bs) (hin : ∀ a ∈ f b, p a = true)
    (hout : ∀ b' ∈ bs, b' ≠ b → ∀ a ∈ f b', p a = false) : (bs.flatMap f).filter p = f b := by
  obtain ⟨front, back, rfl⟩ := List.append_of_mem hb
  rw [List.nodup_middle, List.nodup_cons] at hn
  have hnone : ∀ cs ⊆ front ++ back, (cs.flatMap f).filter p = [] := by
    intro cs hcs
    rw [List.filter_eq_nil_iff]
    intro a ha
    obtain ⟨c, hc, ha⟩ := List.mem_flatMap.mp ha
    have hne : c ≠ b := fun he => hn.1 (he ▸ hcs hc)
    have hmem : c ∈ front ++ b :: back :=
      List.perm_middle.mem_iff.mpr (List.mem_cons_of_mem _ (hcs hc))
    simp [hout c hmem hne a ha]
  rw [List.flatMap_append, List.flatMap_cons, List.filter_append, List.filter_append,
    hnone front (List.subset_append_left _ _), hnone back (List.subset_append_right _ _),
    List.filter_eq_self.mpr hin, List.nil_append, List.append_nil]

/-- Moves never concern the root. -/
theorem value_of_moveAll {widgets ms : List (Nat × Widget)} {t t' : Numbered}
    (h : moveAll widgets t ms = .ok t') : t'.value = t.value := by
  induction ms generalizing t with
  | nil => rw [Except.ok.inj h]
  | cons m ms ih =>
    obtain ⟨k, w⟩ := m
    simp only [moveAll] at h
    split at h
    · exact ih h
    · split at h
      · cases h
      · split at h
        · cases h
        · exact (ih h).trans (value_move _ _ _)

end Resolve

open Resolve

section

variable {v r : View} {n : Numbered} {l : (Nat × Widget) × List (Nat × Widget)}

/-- A resolved view is settled. -/
theorem settled_of_resolve (h : resolve v = .ok r) : Settled r := by
  obtain ⟨-, t, hall, rfl⟩ := resolve_eq_ok h
  have hn : Distinct (v.number 0).1.toList := Tree.nodup_number 0 v
  have hcarried := carried_of_moveAll hn List.prefix_rfl hall
  intro l hl
  rw [links_map] at hl
  obtain ⟨settled, hsettled, rfl⟩ := List.mem_map.mp hl
  obtain ⟨l, hwritten, rfl⟩ := List.mem_map.mp (hcarried.links.mem_iff.mp hsettled)
  refine ⟨_, _, by rw [settle, filter_unmoved hn hwritten, List.map_append], ?_, ?_⟩
  · intro w hw
    obtain ⟨m, hm, rfl⟩ := List.mem_map.mp hw
    exact Option.isNone_iff_eq_none.mp (List.mem_filter.mp hm).2
  · intro w hw
    obtain ⟨m, hm, rfl⟩ := List.mem_map.mp hw
    obtain ⟨hmover, htarget⟩ := List.mem_filter.mp hm
    obtain ⟨p, hp⟩ := Option.isSome_iff_exists.mp (mem_movers.mp hmover).2
    have hname := target?_eq_some hn hp (mem_of_mem_links hwritten).1 (of_decide_eq_true htarget)
    exact hp.trans (congrArg some hname.symm)

/-- The widgets of a resolved view are those of the view. -/
theorem widgets_perm_of_resolve (h : resolve v = .ok r) : r.widgets.Perm v.widgets := by
  obtain ⟨-, t, hall, rfl⟩ := resolve_eq_ok h
  have hcarried := carried_of_moveAll (Tree.nodup_number 0 v) List.prefix_rfl hall
  rw [View.widgets, Tree.toList_map, ← number_toList v]
  exact hcarried.toList_perm.map Prod.snd

/-- The root of a resolved view asks for nothing, as it did before. -/
theorem root_of_resolve (h : resolve v = .ok r) : r.value.parent = none := by
  obtain ⟨hroot, t, hall, rfl⟩ := resolve_eq_ok h
  have hvalue : (t.map Prod.snd).value = t.value.2 := by
    cases t
    rfl
  rw [hvalue, value_of_moveAll hall]
  cases v
  exact hroot

/-- In a settled view a request is met already. -/
theorem Settled.asked (h : Settled v) {l : Widget × List Widget} (hl : l ∈ v.links) {w : Widget}
    (hw : w ∈ l.2) {p : String} (hp : w.parent = some p) : p = l.1.name := by
  obtain ⟨kept, moved, hkids, hkept, hmoved⟩ := h l hl
  rw [hkids] at hw
  rcases List.mem_append.mp hw with hw | hw
  · cases (hkept w hw).symm.trans hp
  · exact Option.some.inj (hp.symm.trans (hmoved w hw))

theorem Settled.known (h : Settled v) (hroot : v.value.parent = none) {w : Widget}
    (hw : w ∈ v.widgets) {p : String} (hp : w.parent = some p) : p ∈ v.widgets.map (·.name) := by
  rw [View.widgets, toList_eq_cons] at hw
  rcases List.mem_cons.mp hw with rfl | hw
  · cases hroot.symm.trans hp
  · rw [← (flatMap_snd_links v).mem_iff] at hw
    obtain ⟨l, hl, hin⟩ := List.mem_flatMap.mp hw
    obtain rfl := h.asked hl hin hp
    exact List.mem_map_of_mem (mem_of_mem_links hl).1

/-- Whatever is carried out in a settled view, everyone stays where it is. -/
theorem Settled.not_cyclic (h : Settled v) (hnames : (v.widgets.map (·.name)).Nodup)
    {done : List (String × String)} (hd : done <+: requests v) : ¬Cyclic (Assigned v done) := by
  have hunder : ∀ name parent, Assigned v done name parent →
      Under (v.map Widget.name).links name parent := by
    rintro name parent (hdone | ⟨hwritten, -⟩)
    · obtain ⟨l, hl, hin⟩ := List.mem_flatMap.mp (hd.subset hdone)
      obtain ⟨w, hw, hask⟩ := List.mem_filterMap.mp hin
      obtain ⟨p, hp, hpair⟩ := Option.map_eq_some_iff.mp hask
      obtain ⟨rfl, rfl⟩ := Prod.mk.inj hpair
      obtain rfl := h.asked hl hw hp
      rw [links_map]
      exact ⟨l.2.map Widget.name, List.mem_map_of_mem hl, List.mem_map_of_mem hw⟩
    · exact hwritten
  refine not_cyclic_of_rank (v.widgets.map (·.name)).idxOf fun name parent hassigned => ?_
  have hsub := Under.sublist (v.map Widget.name) name parent (hunder name parent hassigned)
  rw [Tree.toList_map] at hsub
  exact idxOf_lt_of_sublist hnames hsub

theorem Settled.link (h : Settled (n.map Prod.snd)) (hl : l ∈ n.links) :
    ∃ kept moved, l.2 = kept ++ moved ∧ (∀ m ∈ kept, m.2.parent = none) ∧
      ∀ m ∈ moved, m.2.parent = some l.1.2.name := by
  have hmap : (l.1.2, l.2.map Prod.snd) ∈ (n.map Prod.snd).links := by
    rw [links_map]
    exact List.mem_map_of_mem (f := fun l => (l.1.2, l.2.map Prod.snd)) hl
  obtain ⟨kept, moved, hkids, hkept, hmoved⟩ := h _ hmap
  obtain ⟨ks, ms, hsplit, rfl, rfl⟩ := List.map_eq_append_iff.mp hkids
  refine ⟨ks, ms, hsplit, fun m hm => ?_, fun m hm => ?_⟩
  · exact hkept m.2 (List.mem_map_of_mem hm)
  · exact hmoved m.2 (List.mem_map_of_mem hm)

/-- The children that stay and the children that move make up the list, in this order. -/
theorem Settled.filter_append_filter (h : Settled (n.map Prod.snd)) (hl : l ∈ n.links) :
    (l.2.filter fun m => m.2.parent.isNone) ++ (l.2.filter fun m => m.2.parent.isSome) = l.2 := by
  obtain ⟨kept, moved, hkids, hkept, hmoved⟩ := h.link hl
  have hfirst : (l.2.filter fun m => m.2.parent.isNone) = kept := by
    rw [hkids, List.filter_append, List.filter_eq_self.mpr fun m hm => by simp [hkept m hm],
      List.filter_eq_nil_iff.mpr fun m hm => by simp [hmoved m hm], List.append_nil]
  have hsecond : (l.2.filter fun m => m.2.parent.isSome) = moved := by
    rw [hkids, List.filter_append, List.filter_eq_nil_iff.mpr fun m hm => by simp [hkept m hm],
      List.filter_eq_self.mpr fun m hm => by simp [hmoved m hm], List.nil_append]
  rw [hfirst, hsecond, ← hkids]

/-- Who asks for a parent asks for the widget it stands under. -/
theorem Settled.target?_eq (h : Settled (n.map Prod.snd)) (hnames : Named n.toList)
    (hl : l ∈ n.links) {m : Nat × Widget} (hm : m ∈ l.2.filter fun m => m.2.parent.isSome) :
    target? n.toList m = some l.1.1 := by
  obtain ⟨hin, hask⟩ := List.mem_filter.mp hm
  obtain ⟨kept, moved, hkids, hkept, hmoved⟩ := h.link hl
  rw [hkids] at hin
  rcases List.mem_append.mp hin with hin | hin
  · simp [hkept m hin] at hask
  · rw [target?, hmoved m hin]
    exact named?_of_mem hnames (mem_of_mem_links hl).1

/-- Carrying out all requests of a settled view leaves every list of children as it is. -/
theorem Settled.settle_eq (h : Settled (n.map Prod.snd)) (hn : Distinct n.toList)
    (hnames : Named n.toList) (hl : l ∈ n.links) : settle n.toList (movers n) l = l := by
  have hnodup : n.links.Nodup := by
    apply List.Nodup.of_map Prod.fst
    rw [map_fst_links]
    exact List.Nodup.of_map Prod.fst hn
  have harrived : ((movers n).filter fun m => target? n.toList m = some l.1.1) =
      l.2.filter fun m => m.2.parent.isSome := by
    rw [movers_eq]
    apply filter_flatMap_eq hnodup hl
    · intro m hm
      exact decide_eq_true (h.target?_eq hnames hl hm)
    · intro l' hl' hne m hm
      rw [h.target?_eq hnames hl' hm]
      have hdiff : l'.1.1 ≠ l.1.1 := by
        intro he
        exact hne
          (link_unique hn hl' hl (hn.eq (mem_of_mem_links hl').1 (mem_of_mem_links hl).1 he))
      simpa using hdiff
  rw [settle, filter_unmoved hn hl, harrived, h.filter_append_filter hl]

/-- A settled view with distinct names resolves to itself. -/
theorem Settled.resolve_eq (h : Settled v) (hnames : (v.widgets.map (·.name)).Nodup)
    (hroot : v.value.parent = none) : resolve v = .ok v := by
  cases hv : resolve v with
  | error e =>
    rcases resolve_fails hnames hroot hv with ⟨w, hw, p, hp, hunknown⟩ | ⟨-, done, hd, hcyclic⟩
    · exact absurd (h.known hroot hw hp) hunknown
    · exact absurd hcyclic (h.not_cyclic hnames hd)
  | ok r =>
    obtain ⟨-, t, hall, rfl⟩ := resolve_eq_ok hv
    have hn : Distinct (v.number 0).1.toList := Tree.nodup_number 0 v
    rw [← Tree.map_snd_number 0 v] at h
    have hlinks : t.links ⊆ (v.number 0).1.links := by
      intro l hl
      obtain ⟨l', hl', rfl⟩ :=
        List.mem_map.mp ((carried_of_moveAll hn List.prefix_rfl hall).links.mem_iff.mp hl)
      rwa [h.settle_eq hn (named_number hnames) hl']
    have htree : t = (v.number 0).1 :=
      eq_of_links (fun l hl l' hl' => link_unique hn hl hl') t _ (value_of_moveAll hall) hlinks
        (List.Subset.refl _)
    rw [htree, Tree.map_snd_number]

/-- Resolving a resolved view gives it back, with all children in their order. -/
theorem resolve_idempotent (hnames : (v.widgets.map (·.name)).Nodup) (h : resolve v = .ok r) :
    resolve r = .ok r := by
  have hnames' : (r.widgets.map (·.name)).Nodup :=
    ((widgets_perm_of_resolve h).map _).nodup_iff.mpr hnames
  exact (settled_of_resolve h).resolve_eq hnames' (root_of_resolve h)

end

/-- Two widgets have moved out of their order, and a third one out of one of them. -/
theorem resolve_idempotent_sample :
    let w (name : String) (parent : Option String) : Widget :=
      ⟨name, ⟨[name], none, 1, 1⟩, .composed {}, [], {}, {}, none, parent, 1, 1⟩
    let v : View := .node (w "box" none) [.node (w "target" none) [], .node (w "row" none)
      [.node (w "first" (some "target")) [.node (w "inner" (some "box")) []]],
      .node (w "second" (some "target")) []]
    let r : View := .node (w "box" none) [.node (w "target" none)
      [.node (w "second" (some "target")) [], .node (w "first" (some "target")) []],
      .node (w "row" none) [], .node (w "inner" (some "box")) []]
    (v.widgets.map (·.name)).Nodup ∧ resolve v = .ok r ∧ resolve r = .ok r := by
  intro w v r
  have hnames : (v.widgets.map (·.name)).Nodup := by decide
  have h : resolve v = .ok r := by rfl
  exact ⟨hnames, h, resolve_idempotent hnames h⟩

end WidgetView
