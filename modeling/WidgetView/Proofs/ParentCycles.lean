import WidgetView.Proofs.Reparenting
import WidgetView.Proofs.Violations
import WidgetView.Source

/-!
# Cycles of parents

When all requests for parents can be carried out. They are carried out one after another, and each
is checked against the tree that the earlier ones left behind. So it is not enough that the parents
asked for make a tree in the end: no assignment of parents on the way may have a cycle either.
-/
namespace WidgetView

open WidgetView.Tree

/-- The requests of a view in the order in which they are carried out: for every widget in order,
those of its children, each as the name of the child and the name of the parent it asks for. -/
def requests (v : View) : List (String × String) :=
  v.links.flatMap fun l => l.2.filterMap fun w => w.parent.map fun p => (w.name, p)

/-- The parents of widgets when some requests are carried out: a widget that made one of them is
under the parent it asked for, and any other one where it is written. -/
def Assigned (v : View) (done : List (String × String)) (name parent : String) : Prop :=
  (name, parent) ∈ done ∨
    Under (v.map Widget.name).links name parent ∧ name ∉ done.map Prod.fst

/-- Some widget is above itself. -/
def Cyclic (assigned : String → String → Prop) : Prop :=
  ∃ name, Relation.TransGen assigned name name

/-- Parents that all have a smaller rank than their children make no cycle. -/
theorem not_cyclic_of_rank {assigned : String → String → Prop} (rank : String → Nat)
    (h : ∀ name parent, assigned name parent → rank parent < rank name) : ¬ Cyclic assigned := by
  rintro ⟨name, hcycle⟩
  have hlt : ∀ a b, Relation.TransGen assigned a b → rank b < rank a := by
    intro a b hab
    induction hab with
    | single hstep => exact h _ _ hstep
    | tail _ hstep ih => exact Nat.lt_trans (h _ _ hstep) ih
  exact Nat.lt_irrefl _ (hlt name name hcycle)

theorem idxOf_lt_of_sublist {names : List String} {a b : String} (hn : names.Nodup)
    (h : [b, a].Sublist names) : names.idxOf b < names.idxOf a := by
  obtain ⟨front, back, rfl, hb, ha⟩ := List.cons_sublist_iff.mp h
  have hback : a ∈ back := List.singleton_sublist.mp ha
  have hfront : a ∉ front := by
    intro hmem
    exact (List.nodup_append.mp hn).2.2 a hmem a hback rfl
  rw [List.idxOf_append_of_mem hb, List.idxOf_append_of_notMem hfront]
  have hlt := List.idxOf_lt_length_iff.mpr hb
  omega

namespace Resolve

/-- A request as it is made by a numbered widget. -/
def ask? (m : Nat × Widget) : Option (String × String) :=
  m.2.parent.map fun p => (m.2.name, p)

theorem requests_eq (n : Numbered) : requests (n.map Prod.snd) = (movers n).filterMap ask? := by
  rw [requests, links_map, List.flatMap_map, movers_eq, List.filterMap_flatMap]
  refine List.flatMap_congr fun l _ => ?_
  rw [List.filterMap_map, List.filterMap_filter]
  refine List.filterMap_congr fun w _ => ?_
  cases hp : w.2.parent <;> simp [ask?, hp]

theorem mem_asked {ms : List (Nat × Widget)} {name parent : String} :
    (name, parent) ∈ ms.filterMap ask? ↔ ∃ m ∈ ms, m.2.name = name ∧ m.2.parent = some parent := by
  simp only [List.mem_filterMap, ask?, Option.map_eq_some_iff, Prod.mk.injEq]
  constructor
  · rintro ⟨m, hm, p, hp, rfl, rfl⟩
    exact ⟨m, hm, rfl, hp⟩
  · rintro ⟨m, hm, rfl, hp⟩
    exact ⟨m, hm, parent, hp, rfl, rfl⟩

theorem mem_askers {ms : List (Nat × Widget)} (hms : ∀ m ∈ ms, m.2.parent.isSome) {name : String} :
    name ∈ (ms.filterMap ask?).map Prod.fst ↔ ∃ m ∈ ms, m.2.name = name := by
  rw [List.mem_map]
  constructor
  · rintro ⟨⟨_, p⟩, hmem, rfl⟩
    obtain ⟨m, hm, hname, -⟩ := mem_asked.mp hmem
    exact ⟨m, hm, hname⟩
  · rintro ⟨m, hm, rfl⟩
    obtain ⟨p, hp⟩ := Option.isSome_iff_exists.mp (hms m hm)
    exact ⟨(m.2.name, p), mem_asked.mpr ⟨m, hm, rfl, hp⟩, rfl⟩

theorem moveAll_append (widgets : List (Nat × Widget)) (t : Numbered)
    (ms ns : List (Nat × Widget)) :
    moveAll widgets t (ms ++ ns) =
      match moveAll widgets t ms with
      | .error e => .error e
      | .ok u => moveAll widgets u ns := by
  induction ms generalizing t with
  | nil => rfl
  | cons m ms ih =>
    obtain ⟨k, w⟩ := m
    simp only [List.cons_append, moveAll]
    split
    · exact ih t
    · split
      · rfl
      · split
        · rfl
        · exact ih _

/-- Moves fail at a request for a parent that is not there, or for one that lies below the widget at
that time. -/
theorem moveAll_eq_error {widgets ms : List (Nat × Widget)} {t : Numbered} {e : ResolveFault}
    (h : moveAll widgets t ms = .error e) :
    ∃ done m rest u p, ms = done ++ m :: rest ∧ moveAll widgets t done = .ok u ∧
      m.2.parent = some p ∧
      (named? widgets p = none ∨
        e = .ownSubtree m.2.name ∧ ∃ k, named? widgets p = some k ∧ isBelow u m.1 k = true) := by
  induction ms generalizing t with
  | nil => cases h
  | cons m ms ih =>
    obtain ⟨k, w⟩ := m
    cases hp : w.parent with
    | none =>
      simp only [moveAll, hp] at h
      obtain ⟨done, m, rest, u, p, rfl, hdone, hm⟩ := ih h
      refine ⟨(k, w) :: done, m, rest, u, p, rfl, ?_, hm⟩
      simpa only [moveAll, hp] using hdone
    | some p =>
      cases hn : named? widgets p with
      | none => exact ⟨[], (k, w), ms, t, p, rfl, rfl, hp, Or.inl hn⟩
      | some target =>
        cases hb : isBelow t k target with
        | true =>
          simp only [moveAll, hp, hn, hb, if_true] at h
          exact ⟨[], (k, w), ms, t, p, rfl, rfl, hp,
            Or.inr ⟨(Except.error.inj h).symm, target, hn, hb⟩⟩
        | false =>
          simp only [moveAll, hp, hn, hb, Bool.false_eq_true, if_false] at h
          obtain ⟨done, m, rest, u, p', rfl, hdone, hm⟩ := ih h
          refine ⟨(k, w) :: done, m, rest, u, p', rfl, ?_, hm⟩
          simpa only [moveAll, hp, hn, hb, Bool.false_eq_true, if_false] using hdone

section

variable {n t : Numbered} {ms : List (Nat × Widget)}

/-- Names tell the widgets of a numbered view apart. -/
abbrev Named (ws : List (Nat × Widget)) : Prop := (ws.map fun w => w.2.name).Nodup

theorem Named.eq {ws : List (Nat × Widget)} (h : Named ws) {u w : Nat × Widget}
    (hu : u ∈ ws) (hw : w ∈ ws) (he : u.2.name = w.2.name) : u = w :=
  List.inj_on_of_nodup_map h hu hw he

/-- Requests that were carried out, one after another, from the first one on. -/
structure Carried (n t : Numbered) (ms : List (Nat × Widget)) : Prop where
  known : ∀ m ∈ ms, m ∈ movers n
  links : t.links.Perm (n.links.map (settle n.toList ms))
  targets : ∀ m ∈ ms, (target? n.toList m).isSome

theorem carried_of_moveAll (hn : Distinct n.toList) (hms : ms <+: movers n)
    (h : moveAll n.toList n ms = .ok t) : Carried n t ms := by
  have hsub := hms.sublist
  obtain ⟨-, hl, hts⟩ := links_moveAll h hn (hn.movers.sublist (hsub.map Prod.fst))
    (fun m hm => (mem_movers.mp (hsub.subset hm)).1)
    (fun m hm => (mem_movers.mp (hsub.subset hm)).2) (List.Perm.refl _)
  exact ⟨hsub.subset, hl, hts⟩

theorem Carried.toList_perm (h : Carried n t ms) : t.toList.Perm n.toList :=
  toList_perm_of_links (settle n.toList ms) (fun _ => rfl) h.links

theorem mem_of_under {a b : Nat × Widget} (h : Under t.links a b) :
    a ∈ t.toList ∧ b ∈ t.toList := by
  obtain ⟨kids, hl, ha⟩ := h
  obtain ⟨hb, hkids⟩ := mem_of_mem_links hl
  refine ⟨?_, hb⟩
  rw [toList_eq_cons]
  exact List.mem_cons_of_mem _ (hkids a ha)

/-- Who is under whom after some moves. -/
theorem Carried.under_iff (h : Carried n t ms) {a b : Nat × Widget} :
    Under t.links a b ↔
      (Under n.links a b ∧ a.1 ∉ ms.map Prod.fst) ∨
        (a ∈ ms ∧ b ∈ n.toList ∧ target? n.toList a = some b.1) := by
  constructor
  · rintro ⟨kids, hl, ha⟩
    obtain ⟨⟨b', kids'⟩, hl', he⟩ := List.mem_map.mp (h.links.mem_iff.mp hl)
    obtain ⟨rfl, rfl⟩ := Prod.mk.inj he
    rcases List.mem_append.mp ha with ha | ha
    · obtain ⟨hin, hout⟩ := List.mem_filter.mp ha
      exact Or.inl ⟨⟨kids', hl', hin⟩, by simpa using hout⟩
    · obtain ⟨hin, ht⟩ := List.mem_filter.mp ha
      exact Or.inr ⟨hin, (mem_of_mem_links hl').1, by simpa using ht⟩
  · rintro (⟨⟨kids, hl, ha⟩, hout⟩ | ⟨hin, hb, ht⟩)
    · refine ⟨_, h.links.mem_iff.mpr (List.mem_map_of_mem hl), ?_⟩
      exact List.mem_append_left _ (List.mem_filter.mpr ⟨ha, by simpa using hout⟩)
    · obtain ⟨kids, hl⟩ := exists_link hb
      refine ⟨_, h.links.mem_iff.mpr (List.mem_map_of_mem hl), ?_⟩
      exact List.mem_append_right _ (List.mem_filter.mpr ⟨hin, by simpa using ht⟩)

/-- The parent that a widget asks for, by its number and by its name. -/
theorem target?_eq_some (hn : Distinct n.toList) {m b : Nat × Widget} {p : String}
    (hp : m.2.parent = some p) (hb : b ∈ n.toList) (h : target? n.toList m = some b.1) :
    b.2.name = p := by
  have hnamed : named? n.toList p = some b.1 := by
    rw [target?, hp] at h
    exact h
  obtain ⟨u, hu, hk⟩ := isLast_of_named? hnamed
  obtain rfl := hn.eq hu.mem hb hk
  obtain ⟨front, back, -, hname, -⟩ := hu
  exact hname

theorem under_names_iff {name parent : String} :
    Under ((n.map Prod.snd).map Widget.name).links name parent ↔
      ∃ a b, Under n.links a b ∧ a.2.name = name ∧ b.2.name = parent := by
  rw [links_map, links_map, List.map_map]
  constructor
  · rintro ⟨kids, hl, ha⟩
    obtain ⟨⟨b, kids'⟩, hl', he⟩ := List.mem_map.mp hl
    obtain ⟨rfl, rfl⟩ := Prod.mk.inj he
    rw [List.map_map] at ha
    obtain ⟨a, hmem, rfl⟩ := List.mem_map.mp ha
    exact ⟨a, b, ⟨kids', hl', hmem⟩, rfl, rfl⟩
  · rintro ⟨a, b, ⟨kids, hl, ha⟩, rfl, rfl⟩
    refine ⟨_, List.mem_map.mpr ⟨(b, kids), hl, rfl⟩, ?_⟩
    rw [List.map_map]
    exact List.mem_map.mpr ⟨a, ha, rfl⟩

/-- The tree after some moves is the assignment of parents by the requests carried out. -/
theorem Carried.assigned_iff (h : Carried n t ms) (hn : Distinct n.toList) (hnames : Named n.toList)
    {name parent : String} :
    Assigned (n.map Prod.snd) (ms.filterMap ask?) name parent ↔
      ∃ a b, Under t.links a b ∧ a.2.name = name ∧ b.2.name = parent := by
  have hin : ∀ m ∈ ms, m ∈ n.toList := by
    intro m hm
    rw [toList_eq_cons]
    exact List.mem_cons_of_mem _ (mem_movers.mp (h.known m hm)).1
  have hask : ∀ m ∈ ms, m.2.parent.isSome := fun m hm => (mem_movers.mp (h.known m hm)).2
  rw [Assigned, mem_asked, mem_askers hask, under_names_iff]
  constructor
  · rintro (⟨m, hm, rfl, hp⟩ | ⟨⟨a, b, hab, rfl, rfl⟩, hout⟩)
    · obtain ⟨k, hk⟩ := Option.isSome_iff_exists.mp (h.targets m hm)
      obtain ⟨u, hu, rfl⟩ := mem_of_named? (by rwa [target?, hp] at hk)
      exact ⟨m, u, h.under_iff.mpr (Or.inr ⟨hm, hu, hk⟩), rfl, target?_eq_some hn hp hu hk⟩
    · refine ⟨a, b, h.under_iff.mpr (Or.inl ⟨hab, ?_⟩), rfl, rfl⟩
      intro hmem
      obtain ⟨m, hm, hk⟩ := List.mem_map.mp hmem
      obtain rfl := hn.eq (hin m hm) (mem_of_under hab).1 hk
      exact hout ⟨m, hm, rfl⟩
  · rintro ⟨a, b, hab, rfl, rfl⟩
    rcases h.under_iff.mp hab with ⟨hab, hout⟩ | ⟨ha, hb, ht⟩
    · refine Or.inr ⟨⟨a, b, hab, rfl, rfl⟩, ?_⟩
      rintro ⟨m, hm, hname⟩
      obtain rfl := hnames.eq (hin m hm) (mem_of_under hab).1 hname
      exact hout (List.mem_map_of_mem hm)
    · obtain ⟨p, hp⟩ := Option.isSome_iff_exists.mp (hask a ha)
      exact Or.inl ⟨a, ha, rfl, by rw [hp, target?_eq_some hn hp hb ht]⟩

/-- A tree has no cycle: parents come before their children. -/
theorem Carried.not_cyclic (h : Carried n t ms) (hn : Distinct n.toList)
    (hnames : Named n.toList) : ¬ Cyclic (Assigned (n.map Prod.snd) (ms.filterMap ask?)) := by
  have ht : Named t.toList := (h.toList_perm.map _).nodup_iff.mpr hnames
  refine not_cyclic_of_rank (t.toList.map fun w => w.2.name).idxOf ?_
  intro name parent hassigned
  obtain ⟨a, b, hab, rfl, rfl⟩ := (h.assigned_iff hn hnames).mp hassigned
  have hsub := (Under.sublist t a b hab).map fun w => w.2.name
  exact idxOf_lt_of_sublist ht hsub

/-- A request for a parent below the widget closes a cycle: from the parent one climbs to the
widget. -/
theorem Carried.cyclic_of_isBelow (h : Carried n t ms) (hn : Distinct n.toList)
    (hnames : Named n.toList) {m : Nat × Widget} {p : String} {k : Nat} (hm : m ∈ movers n)
    (hp : m.2.parent = some p) (hk : named? n.toList p = some k) (hb : isBelow t m.1 k = true) :
    Cyclic (Assigned (n.map Prod.snd) ((ms ++ [m]).filterMap ask?)) := by
  have hperm := h.toList_perm
  have ht : Distinct t.toList := (hperm.map Prod.fst).nodup_iff.mpr hn
  have hmn : m ∈ n.toList := by
    rw [toList_eq_cons]
    exact List.mem_cons_of_mem _ (mem_movers.mp hm).1
  obtain ⟨s, hs, rfl⟩ := subtree?_eq_some ht (hperm.mem_iff.mpr hmn)
  simp only [isBelow, hs, List.any_eq_true, decide_eq_true_eq] at hb
  obtain ⟨w, hw, rfl⟩ := hb
  have hsub : s ∈ t.subtrees := List.mem_of_find?_eq_some hs
  have hin : ∀ a ∈ s.toList, a ∈ n.toList := fun a ha =>
    hperm.mem_iff.mp ((toList_sublist_of_mem hsub).subset ha)
  have hname : w.2.name = p := by
    refine target?_eq_some hn hp (hin w hw) ?_
    rw [target?, hp]
    exact hk
  have hasked : (s.value.2.name, w.2.name) ∈ (ms ++ [s.value]).filterMap ask? := by
    rw [hname]
    exact mem_asked.mpr ⟨s.value, by simp, rfl, hp⟩
  refine ⟨s.value.2.name, Relation.TransGen.head' (Or.inl hasked) ?_⟩
  refine (climbs s w hw).lift (fun a => a.2.name) fun a b hab => ?_
  -- a step of the climb starts below the widget, so the new request is not about it
  have hne : a.2.name ≠ s.value.2.name := by
    obtain ⟨kids, hl, ha⟩ := hab
    have hbelow := (mem_of_mem_links hl).2 a ha
    have hnodup : Distinct s.toList := ht.sublist ((toList_sublist_of_mem hsub).map Prod.fst)
    intro he
    have has : a ∈ s.toList := by
      rw [toList_eq_cons]
      exact List.mem_cons_of_mem _ hbelow
    obtain rfl := hnames.eq (hin a has) hmn he
    rw [Distinct, toList_eq_cons, List.map_cons, List.nodup_cons] at hnodup
    exact hnodup.1 (List.mem_map_of_mem hbelow)
  have hstep : Assigned (n.map Prod.snd) (ms.filterMap ask?) a.2.name b.2.name :=
    (h.assigned_iff hn hnames).mpr ⟨a, b, hab.mono (links_sublist_of_mem hsub).subset, rfl, rfl⟩
  rw [List.filterMap_append]
  rcases hstep with hdone | ⟨hwritten, hout⟩
  · exact Or.inl (List.mem_append_left _ hdone)
  · refine Or.inr ⟨hwritten, ?_⟩
    rw [List.map_append, List.mem_append, not_or]
    refine ⟨hout, ?_⟩
    rw [mem_askers (by simp [hp])]
    simpa using fun he => hne he.symm

end

end Resolve

open Resolve

section

variable {v : View}

theorem number_toList (v : View) : (v.number 0).1.toList.map Prod.snd = v.widgets := by
  have h := congrArg Tree.toList (Tree.map_snd_number 0 v)
  rwa [Tree.toList_map] at h

theorem named_number (h : (v.widgets.map (·.name)).Nodup) : Named (v.number 0).1.toList := by
  rw [← number_toList, List.map_map] at h
  exact h

/-- What a resolution takes: the root asks for nothing, and all moves can be made. -/
theorem resolve_eq_ok {r : View} (h : resolve v = .ok r) :
    v.value.parent = none ∧
      ∃ t, moveAll (v.number 0).1.toList (v.number 0).1 (movers (v.number 0).1) = .ok t ∧
        t.map Prod.snd = r := by
  cases hp : v.value.parent with
  | some p => cases hf : named? (v.number 0).1.toList p <;> simp [resolve, hp, hf] at h
  | none =>
    simp only [resolve, hp] at h
    cases hm : moveAll (v.number 0).1.toList (v.number 0).1 (movers (v.number 0).1) with
    | error e =>
      rw [hm] at h
      cases h
    | ok t =>
      rw [hm] at h
      exact ⟨rfl, t, rfl, Except.ok.inj h⟩

theorem resolve_eq_error {e : ResolveFault} (h : resolve v = .error e)
    (hroot : v.value.parent = none) :
    moveAll (v.number 0).1.toList (v.number 0).1 (movers (v.number 0).1) = .error e := by
  simp only [resolve, hroot] at h
  cases hm : moveAll (v.number 0).1.toList (v.number 0).1 (movers (v.number 0).1) with
  | error e' =>
    rw [hm] at h
    rw [Except.error.inj h]
  | ok t =>
    rw [hm] at h
    cases h

/-- A prefix of the requests is made by a prefix of the widgets that ask. -/
theorem prefix_requests {done : List (String × String)} (h : done <+: requests v) :
    ∃ ms, ms <+: movers (v.number 0).1 ∧ done = ms.filterMap ask? := by
  rw [← Tree.map_snd_number 0 v, requests_eq] at h
  exact List.prefix_filterMap_iff.mp h

/-- If all requests can be carried out, no assignment of parents on the way has a cycle. -/
theorem not_cyclic_of_resolve {r : View} (hnames : (v.widgets.map (·.name)).Nodup)
    (h : resolve v = .ok r) {done : List (String × String)} (hd : done <+: requests v) :
    ¬ Cyclic (Assigned v done) := by
  obtain ⟨-, t, ht, -⟩ := resolve_eq_ok h
  obtain ⟨ms, ⟨rest, hms⟩, rfl⟩ := prefix_requests hd
  rw [← hms, moveAll_append] at ht
  cases hu : moveAll (v.number 0).1.toList (v.number 0).1 ms with
  | error e =>
    rw [hu] at ht
    cases ht
  | ok u =>
    have hn : Distinct (v.number 0).1.toList := Tree.nodup_number 0 v
    have hnot := (carried_of_moveAll hn ⟨rest, hms⟩ hu).not_cyclic hn (named_number hnames)
    rwa [Tree.map_snd_number] at hnot

/-- If all requests can be carried out, every parent asked for is there. -/
theorem known_of_resolve {r : View} (h : resolve v = .ok r) {w : Widget} (hw : w ∈ v.widgets)
    {p : String} (hp : w.parent = some p) : p ∈ v.widgets.map (·.name) := by
  obtain ⟨hroot, t, hall, -⟩ := resolve_eq_ok h
  have hcarried := carried_of_moveAll (Tree.nodup_number 0 v) List.prefix_rfl hall
  rw [← number_toList] at hw ⊢
  obtain ⟨m, hm, rfl⟩ := List.mem_map.mp hw
  rw [toList_eq_cons] at hm
  rcases List.mem_cons.mp hm with rfl | hm
  · cases v
    cases hroot.symm.trans hp
  have hmover : m ∈ movers (v.number 0).1 := mem_movers.mpr ⟨hm, Option.isSome_of_eq_some hp⟩
  obtain ⟨k, hk⟩ := Option.isSome_iff_exists.mp (hcarried.targets m hmover)
  rw [target?, hp] at hk
  obtain ⟨u, ⟨front, back, hws, hname, -⟩, -⟩ := isLast_of_named? hk
  rw [hws, List.map_map]
  exact List.mem_map.mpr ⟨u, by simp, hname⟩

/-- Requests fail for a parent that is not there, or for a cycle on the way. -/
theorem resolve_fails {e : ResolveFault} (hnames : (v.widgets.map (·.name)).Nodup)
    (hroot : v.value.parent = none) (h : resolve v = .error e) :
    (∃ w ∈ v.widgets, ∃ p, w.parent = some p ∧ p ∉ v.widgets.map (·.name)) ∨
      (∃ w ∈ v.widgets, e = .ownSubtree w.name) ∧
        ∃ done, done <+: requests v ∧ Cyclic (Assigned v done) := by
  have hn : Distinct (v.number 0).1.toList := Tree.nodup_number 0 v
  obtain ⟨ms, m, rest, u, p, hms, hu, hp, hcause⟩ := moveAll_eq_error (resolve_eq_error h hroot)
  have hm : m ∈ movers (v.number 0).1 := by
    rw [hms]
    simp
  have hw : m.2 ∈ v.widgets := by
    rw [← number_toList, toList_eq_cons]
    exact List.mem_map_of_mem (List.mem_cons_of_mem _ (mem_movers.mp hm).1)
  rcases hcause with hnone | ⟨he, k, hk, hb⟩
  · refine Or.inl ⟨m.2, hw, p, hp, ?_⟩
    intro hin
    rw [← number_toList, List.map_map] at hin
    obtain ⟨w, hmem, hname⟩ := List.mem_map.mp hin
    have hfind := List.find?_eq_none.mp (Option.map_eq_none_iff.mp hnone)
    exact hfind w (List.mem_reverse.mpr hmem) (by simpa using hname)
  · have hcarried := carried_of_moveAll hn ⟨m :: rest, hms.symm⟩ hu
    have hcyclic := hcarried.cyclic_of_isBelow hn (named_number hnames) hm hp hk hb
    rw [Tree.map_snd_number] at hcyclic
    refine Or.inr ⟨⟨m.2, hw, he⟩, _, ?_, hcyclic⟩
    have hrequests := requests_eq (v.number 0).1
    rw [Tree.map_snd_number] at hrequests
    rw [hrequests]
    exact List.prefix_filterMap_iff.mpr ⟨ms ++ [m], ⟨rest, by rw [hms]; simp⟩, rfl⟩

/-- With distinct names, resolution fails exactly if the root asks for a parent, if some parent
asked for is not there, or if an assignment of parents on the way has a cycle. -/
theorem resolve_refuses_iff (hnames : (v.widgets.map (·.name)).Nodup) :
    (∃ e, resolve v = .error e) ↔
      v.value.parent.isSome ∨
        (∃ w ∈ v.widgets, ∃ p, w.parent = some p ∧ p ∉ v.widgets.map (·.name)) ∨
          ∃ done, done <+: requests v ∧ Cyclic (Assigned v done) := by
  constructor
  · rintro ⟨e, h⟩
    cases hroot : v.value.parent with
    | some p => exact Or.inl rfl
    | none =>
      rcases resolve_fails hnames hroot h with hunknown | ⟨-, hcyclic⟩
      · exact Or.inr (Or.inl hunknown)
      · exact Or.inr (Or.inr hcyclic)
  · intro hcause
    cases h : resolve v with
    | error e => exact ⟨e, rfl⟩
    | ok r =>
      rcases hcause with hroot | ⟨w, hw, p, hp, hunknown⟩ | ⟨done, hd, hcyclic⟩
      · rw [(resolve_eq_ok h).1] at hroot
        cases hroot
      · exact absurd (known_of_resolve h hw hp) hunknown
      · exact absurd hcyclic (not_cyclic_of_resolve hnames h hd)

end

/-- Widgets that ask for each other. -/
theorem resolve_refuses_sample :
    let w (name : String) (parent : Option String) : Widget :=
      ⟨name, ⟨[name], none, 1, 1⟩, .composed {}, [], {}, {}, none, parent, 1, 1⟩
    let v : View := .node (w "box" none) [.node (w "a" (some "b")) [], .node (w "b" (some "a")) []]
    (v.widgets.map (·.name)).Nodup ∧ (∃ e, resolve v = .error e) ∧
      ∃ done, done <+: requests v ∧ Cyclic (Assigned v done) := by
  intro w v
  have hnames : (v.widgets.map (·.name)).Nodup := by decide
  have h : resolve v = .error (.ownSubtree "b") := by rfl
  refine ⟨hnames, ⟨_, h⟩, ?_⟩
  rcases (resolve_refuses_iff hnames).mp ⟨_, h⟩ with hroot | ⟨u, hu, p, hp, hunknown⟩ | hcyclic
  · cases hroot
  · have hknown : ∀ u ∈ v.widgets, ∀ p ∈ u.parent, p ∈ v.widgets.map (·.name) := by decide
    exact absurd (hknown u hu p hp) hunknown
  · exact hcyclic

/-- A widget that asks for one inside it is refused, although what lies between them moves out later
and the parents asked for make a tree. In the other order the requests can be carried out. -/
theorem resolve_refuses_exchange :
    let w (name : String) (parent : Option String) : Widget :=
      ⟨name, ⟨[name], none, 1, 1⟩, .composed {}, [], {}, {}, none, parent, 1, 1⟩
    let v : View := .node (w "box" none)
      [.node (w "a" (some "c")) [.node (w "b" (some "box")) [.node (w "c" none) []]]]
    let n := (v.number 0).1
    (v.widgets.map (·.name)).Nodup ∧ v.value.parent = none ∧
      (∀ u ∈ v.widgets, ∀ p ∈ u.parent, p ∈ v.widgets.map (·.name)) ∧
      ¬ Cyclic (Assigned v (requests v)) ∧ resolve v = .error (.ownSubtree "a") ∧
      (Resolve.moveAll n.toList n (Resolve.movers n).reverse).toOption.isSome := by
  intro w v n
  refine ⟨by decide, rfl, by decide, ?_, by rfl, by rfl⟩
  -- in the end the widgets stand under each other in this order
  refine not_cyclic_of_rank ["box", "b", "c", "a"].idxOf ?_
  have hdone : ∀ r ∈ requests v,
      ["box", "b", "c", "a"].idxOf r.2 < ["box", "b", "c", "a"].idxOf r.1 := by decide
  have hwritten : ∀ l ∈ (v.map Widget.name).links, ∀ name ∈ l.2,
      name ∉ (requests v).map Prod.fst →
        ["box", "b", "c", "a"].idxOf l.1 < ["box", "b", "c", "a"].idxOf name := by decide
  rintro name parent (hmem | ⟨⟨kids, hl, hin⟩, hout⟩)
  · exact hdone _ hmem
  · exact hwritten _ hl name hin hout

/-- A view without errors has distinct names, the parents asked for are there, and the root asks for
none. -/
theorem validate_clean {v : View} (h : (validate v).errors = []) :
    (v.widgets.map (·.name)).Nodup ∧ v.value.parent = none ∧
      ∀ w ∈ v.widgets, ∀ p, w.parent = some p → p ∈ v.widgets.map (·.name) := by
  obtain ⟨hnames, hroot, hparents, -⟩ := (errors_eq_nil_iff v).mp h
  exact ⟨hnames, hroot, fun w hw p hp => (hparents w hw p hp).1⟩

/-- A view without errors can be resolved exactly if no assignment of parents on the way has a
cycle, and it fails for no other reason. -/
theorem clean_view_resolves_iff {v : View} (h : (validate v).errors = []) :
    ((∃ r, resolve v = .ok r) ↔ ∀ done, done <+: requests v → ¬ Cyclic (Assigned v done)) ∧
      ∀ e, resolve v = .error e → ∃ w ∈ v.widgets, e = .ownSubtree w.name := by
  obtain ⟨hnames, hroot, hknown⟩ := validate_clean h
  have hcause : ∀ e, resolve v = .error e → (∃ w ∈ v.widgets, e = .ownSubtree w.name) ∧
      ∃ done, done <+: requests v ∧ Cyclic (Assigned v done) := by
    intro e he
    rcases resolve_fails hnames hroot he with ⟨w, hw, p, hp, hunknown⟩ | hcycle
    · exact absurd (hknown w hw p hp) hunknown
    · exact hcycle
  refine ⟨⟨?_, ?_⟩, fun e he => (hcause e he).1⟩
  · rintro ⟨r, hr⟩ done hd
    exact not_cyclic_of_resolve hnames hr hd
  · intro hacyclic
    cases hr : resolve v with
    | ok r => exact ⟨r, rfl⟩
    | error e =>
      obtain ⟨-, done, hd, hcyclic⟩ := hcause e hr
      exact absurd hcyclic (hacyclic done hd)

/-- A widget moves, and one that it carries moves back out of it. -/
theorem clean_view_resolves_sample :
    let w (name : String) (parent : Option String) : Widget :=
      ⟨name, ⟨[name], none, 1, 1⟩, .composed {}, [], {}, {}, none, parent, 1, 1⟩
    let v : View := .node (w "box" none)
      [.node (w "a" (some "c")) [.node (w "b" (some "box")) []], .node (w "c" none) []]
    (validate v).errors = [] ∧ (∃ r, resolve v = .ok r) ∧
      ∀ done, done <+: requests v → ¬ Cyclic (Assigned v done) := by
  intro w v
  have h : (validate v).errors = [] := by decide +kernel
  have hr : ∃ r, resolve v = .ok r := ⟨_, rfl⟩
  exact ⟨h, hr, (clean_view_resolves_iff h).1.mp hr⟩

/-- The view of a source has no errors, and still it cannot be resolved. -/
def CleanButRefused (source : String) : Prop :=
  ∃ v, (Source.viewOfText {} {} source.toList {}).1.toOption = some v ∧
    (validate v).errors = [] ∧ (resolve v).toOption.isNone = true

instance (source : String) : Decidable (CleanButRefused source) :=
  decidable_of_iff ((Source.viewOfText {} {} source.toList {}).1.toOption.any
      (fun v => (validate v).errors = [] ∧ (resolve v).toOption.isNone = true) = true) <| by
    simp [CleanButRefused, Option.any_eq_true]

/-- Validation looks at one request at a time. It passes widgets that ask for each other, a widget
that asks for one inside it, and one that asks for a widget that leaves it only later. -/
theorem clean_views_refused :
    CleanButRefused
        "Box \x7b #[name=\"a\"] #[parent=\"b\"] A, #[name=\"b\"] #[parent=\"a\"] B \x7d" ∧
      CleanButRefused "Box \x7b #[name=\"a\"] #[parent=\"b\"] A \x7b #[name=\"b\"] B \x7d \x7d" ∧
      CleanButRefused "Box \x7b #[name=\"a\"] #[parent=\"c\"] A \x7b
        #[name=\"b\"] #[parent=\"_box1\"] B \x7b #[name=\"c\"] C \x7d \x7d \x7d" := by
  decide +kernel

end WidgetView
