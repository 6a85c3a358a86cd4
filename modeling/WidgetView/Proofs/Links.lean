import Mathlib
import WidgetView.Resolve

/-!
# Trees as lists of links

Trees as lists of links. The link of a node is its value with the values of its children in order. A
tree that loses a subtree and takes it up again in another place has the same links, except that the
value of the subtree has left one list of children and joined the end of another.
-/
namespace WidgetView

namespace Tree

variable {α β : Type}

def link (t : Tree α) : α × List α := (t.value, t.children.map value)

/-- The links of all nodes, in the order of `toList`. -/
def links (t : Tree α) : List (α × List α) := t.subtrees.map link

def forestLinks (ts : List (Tree α)) : List (α × List α) := (forestSubtrees ts).map link

@[simp] theorem links_node (a : α) (ts : List (Tree α)) :
    (node a ts).links = (a, ts.map value) :: forestLinks ts := by
  simp [links, forestLinks, subtrees, link, value, children]

@[simp] theorem forestLinks_nil : forestLinks ([] : List (Tree α)) = [] := by
  simp [forestLinks, forestSubtrees]

@[simp] theorem forestLinks_cons (t : Tree α) (ts : List (Tree α)) :
    forestLinks (t :: ts) = t.links ++ forestLinks ts := by
  simp [forestLinks, links, forestSubtrees]

/-- The inner two of four lists may change places. -/
theorem perm_shuffle (as bs cs ds : List α) :
    ((as ++ bs) ++ (cs ++ ds)).Perm ((as ++ cs) ++ (bs ++ ds)) := by
  rw [List.append_assoc, List.append_assoc]
  refine List.Perm.append_left as ?_
  rw [← List.append_assoc, ← List.append_assoc]
  exact List.perm_append_comm.append_right ds

theorem forestLinks_append (ts us : List (Tree α)) :
    forestLinks (ts ++ us) = forestLinks ts ++ forestLinks us := by
  induction ts with
  | nil => simp
  | cons t ts ih => simp [ih]

theorem map_value_forestMap (f : α → β) (ts : List (Tree α)) :
    (forestMap f ts).map value = (ts.map value).map f := by
  induction ts with
  | nil => simp [forestMap]
  | cons t ts ih =>
    cases t
    simp [forestMap, map, value, ih]

mutual

theorem links_map (f : α → β) : (t : Tree α) →
    (t.map f).links = t.links.map fun l => (f l.1, l.2.map f)
  | node a ts => by
    rw [map, links_node, links_node, List.map_cons, map_value_forestMap, forestLinks_map f ts]

theorem forestLinks_map (f : α → β) : (ts : List (Tree α)) →
    forestLinks (forestMap f ts) = (forestLinks ts).map fun l => (f l.1, l.2.map f)
  | [] => by simp [forestMap]
  | t :: ts => by
    rw [forestMap, forestLinks_cons, forestLinks_cons, List.map_append, links_map f t,
      forestLinks_map f ts]

end

mutual

theorem map_fst_links : (t : Tree α) → t.links.map Prod.fst = t.toList
  | node a ts => by simp [map_fst_forestLinks ts]

theorem map_fst_forestLinks : (ts : List (Tree α)) →
    (forestLinks ts).map Prod.fst = forestToList ts
  | [] => by simp
  | t :: ts => by simp [map_fst_links t, map_fst_forestLinks ts]

end

mutual

/-- Every node but the root is in one list of children. -/
theorem flatMap_snd_links : (t : Tree α) →
    (t.links.flatMap Prod.snd).Perm (forestToList t.children)
  | node a ts => by
    rw [links_node, List.flatMap_cons]
    exact flatMap_snd_forestLinks ts

theorem flatMap_snd_forestLinks : (ts : List (Tree α)) →
    (ts.map value ++ (forestLinks ts).flatMap Prod.snd).Perm (forestToList ts)
  | [] => by simp
  | t :: ts => by
    have ht := flatMap_snd_links t
    have hts := flatMap_snd_forestLinks ts
    have hvalue : t.value :: forestToList t.children = t.toList := by
      cases t
      simp [value, children]
    rw [forestLinks_cons, List.flatMap_append, List.map_cons, List.cons_append, forestToList_cons,
      ← hvalue, List.cons_append]
    refine List.Perm.cons _ ?_
    refine List.Perm.trans ?_ (ht.append hts)
    rw [← List.append_assoc, ← List.append_assoc]
    exact List.perm_append_comm.append_right _

end

/-- Take the values that satisfy `p` out of the children. -/
def dropKids (p : α → Bool) (l : α × List α) : α × List α := (l.1, l.2.filter fun a => !p a)

/-- Put a value at the end of the children if the node satisfies `p`. -/
def addKid (p : α → Bool) (b : α) (l : α × List α) : α × List α :=
  (l.1, l.2 ++ if p l.1 then [b] else [])

mutual

/-- The subtrees that pruning takes out. -/
def cut (p : α → Bool) : Tree α → List (Tree α)
  | node _ ts => cutForest p ts

def cutForest (p : α → Bool) : List (Tree α) → List (Tree α)
  | [] => []
  | t :: ts => (if p t.value then [t] else t.cut p) ++ cutForest p ts

end

@[simp] theorem value_prune (p : α → Bool) (t : Tree α) : (t.prune p).value = t.value := by
  cases t
  rfl

@[simp] theorem value_graft (p : α → Bool) (u t : Tree α) : (graft p u t).value = t.value := by
  cases t
  rfl

theorem map_value_pruneForest (p : α → Bool) (ts : List (Tree α)) :
    (pruneForest p ts).map value = (ts.map value).filter fun a => !p a := by
  induction ts with
  | nil => simp [pruneForest]
  | cons t ts ih =>
    by_cases h : p t.value
    · simp [pruneForest, h, ih]
    · simp [pruneForest, h, ih]

theorem map_value_graftForest (p : α → Bool) (u : Tree α) (ts : List (Tree α)) :
    (graftForest p u ts).map value = ts.map value := by
  induction ts with
  | nil => simp [graftForest]
  | cons t ts ih => simp [graftForest, ih]

mutual

/-- What pruning keeps and what it takes out, together, are the links without the values taken
out. -/
theorem links_prune (p : α → Bool) : (t : Tree α) →
    (t.links.map (dropKids p)).Perm
      ((t.prune p).links ++ ((t.cut p).flatMap links).map (dropKids p))
  | node a ts => by
    rw [prune, cut, links_node, links_node, List.map_cons, List.cons_append, map_value_pruneForest]
    exact List.Perm.cons _ (forestLinks_prune p ts)

theorem forestLinks_prune (p : α → Bool) : (ts : List (Tree α)) →
    ((forestLinks ts).map (dropKids p)).Perm
      (forestLinks (pruneForest p ts) ++ ((cutForest p ts).flatMap links).map (dropKids p))
  | [] => by simp [pruneForest, cutForest]
  | t :: ts => by
    have ht := links_prune p t
    have hts := forestLinks_prune p ts
    rw [forestLinks_cons, List.map_append, cutForest, List.flatMap_append, List.map_append]
    by_cases h : p t.value
    · rw [pruneForest, if_pos h, if_pos h, List.flatMap_singleton, ← List.append_assoc]
      refine (List.Perm.append_left _ hts).trans ?_
      rw [← List.append_assoc]
      exact List.perm_append_comm.append_right _
    · rw [pruneForest, if_neg h, if_neg h, forestLinks_cons]
      exact (ht.append hts).trans (perm_shuffle _ _ _ _)

end

mutual

/-- Grafting puts the links of the new tree in once for every node that takes it. -/
theorem links_graft (p : α → Bool) (u : Tree α) : (t : Tree α) →
    (graft p u t).links.Perm
      (t.links.map (addKid p u.value) ++ (t.toList.filter p).flatMap fun _ => u.links)
  | node a ts => by
    have hts := forestLinks_graft p u ts
    rw [graft, links_node, links_node, List.map_cons, List.cons_append, List.map_append,
      map_value_graftForest, forestLinks_append, toList_node, List.filter_cons]
    by_cases h : p a
    · simp only [h, addKid, if_true, List.map_cons, List.map_nil, forestLinks_cons,
        forestLinks_nil, List.append_nil, List.flatMap_cons]
      refine List.Perm.cons _ ?_
      refine (hts.append_right _).trans ?_
      rw [List.append_assoc]
      exact List.Perm.append_left _ List.perm_append_comm
    · simp only [h, addKid, if_false, Bool.false_eq_true, List.map_nil, forestLinks_nil,
        List.append_nil]
      exact List.Perm.cons _ hts

theorem forestLinks_graft (p : α → Bool) (u : Tree α) : (ts : List (Tree α)) →
    (forestLinks (graftForest p u ts)).Perm
      ((forestLinks ts).map (addKid p u.value) ++
        ((forestToList ts).filter p).flatMap fun _ => u.links)
  | [] => by simp [graftForest]
  | t :: ts => by
    have ht := links_graft p u t
    have hts := forestLinks_graft p u ts
    rw [graftForest, forestLinks_cons, forestLinks_cons, forestToList_cons, List.map_append,
      List.filter_append, List.flatMap_append]
    exact (ht.append hts).trans (perm_shuffle _ _ _ _)

end

theorem toList_eq_cons (t : Tree α) : t.toList = t.value :: forestToList t.children := by
  cases t
  simp [value, children]

theorem subtrees_eq_cons (t : Tree α) : t.subtrees = t :: forestSubtrees t.children := by
  cases t
  simp [subtrees, children]

mutual

theorem map_value_subtrees : (t : Tree α) → t.subtrees.map value = t.toList
  | node a ts => by
    rw [subtrees, List.map_cons, map_value_forestSubtrees ts, toList_node]
    rfl

theorem map_value_forestSubtrees : (ts : List (Tree α)) →
    (forestSubtrees ts).map value = forestToList ts
  | [] => by simp [forestSubtrees]
  | t :: ts => by simp [forestSubtrees, map_value_subtrees t, map_value_forestSubtrees ts]

end

mutual

theorem subtrees_sublist_of_mem : (t : Tree α) → ∀ s ∈ t.subtrees, s.subtrees.Sublist t.subtrees
  | node a ts => by
    intro s hs
    rw [subtrees] at hs
    rcases List.mem_cons.mp hs with rfl | hs
    · exact List.Sublist.refl _
    · rw [subtrees]
      exact (subtrees_sublist_of_mem_forest ts s hs).cons (node a ts)

theorem subtrees_sublist_of_mem_forest : (ts : List (Tree α)) →
    ∀ s ∈ forestSubtrees ts, s.subtrees.Sublist (forestSubtrees ts)
  | [] => by simp [forestSubtrees]
  | t :: ts => by
    intro s hs
    rw [forestSubtrees] at hs ⊢
    rcases List.mem_append.mp hs with hs | hs
    · exact (subtrees_sublist_of_mem t s hs).trans (List.sublist_append_left _ _)
    · exact (subtrees_sublist_of_mem_forest ts s hs).trans (List.sublist_append_right _ _)

end

theorem toList_sublist_of_mem {t s : Tree α} (h : s ∈ t.subtrees) : s.toList.Sublist t.toList := by
  rw [← map_value_subtrees, ← map_value_subtrees]
  exact (subtrees_sublist_of_mem t s h).map value

theorem toList_sublist_of_mem_forest {ts : List (Tree α)} {s : Tree α}
    (h : s ∈ forestSubtrees ts) : s.toList.Sublist (forestToList ts) := by
  rw [← map_value_subtrees, ← map_value_forestSubtrees]
  exact (subtrees_sublist_of_mem_forest ts s h).map value

theorem links_sublist_of_mem {t s : Tree α} (h : s ∈ t.subtrees) : s.links.Sublist t.links :=
  (subtrees_sublist_of_mem t s h).map link

section

variable {p : α → Bool}

mutual

theorem cut_eq_nil : (t : Tree α) → (forestToList t.children).countP p = 0 → t.cut p = []
  | node _ ts => cutForest_eq_nil ts

theorem cutForest_eq_nil : (ts : List (Tree α)) → (forestToList ts).countP p = 0 →
    cutForest p ts = []
  | [] => by simp [cutForest]
  | t :: ts => by
    intro h
    rw [forestToList_cons, toList_eq_cons, List.cons_append, List.countP_cons,
      List.countP_append] at h
    have hroot : ¬ p t.value := by
      intro hp
      simp [hp] at h
    rw [cutForest, if_neg hroot, cut_eq_nil t (by omega), cutForest_eq_nil ts (by omega)]
    rfl

end

theorem find?_subtrees_of_pos {t : Tree α} (h : p t.value) :
    t.subtrees.find? (fun s => p s.value) = some t := by
  simp [subtrees_eq_cons, h]

theorem find?_subtrees_of_neg {t : Tree α} (h : ¬ p t.value) :
    t.subtrees.find? (fun s => p s.value) =
      (forestSubtrees t.children).find? fun s => p s.value := by
  simp [subtrees_eq_cons, h]

theorem find?_forestSubtrees_eq_none {ts : List (Tree α)} (h : (forestToList ts).countP p = 0) :
    (forestSubtrees ts).find? (fun s => p s.value) = none := by
  rw [List.find?_eq_none]
  intro s hs
  rw [← map_value_forestSubtrees, List.countP_map, List.countP_eq_zero] at h
  exact h s hs

mutual

/-- Where one node at most satisfies `p`, what is cut is the first subtree found. -/
theorem cut_eq_find : (t : Tree α) → (forestToList t.children).countP p ≤ 1 →
    t.cut p = ((forestSubtrees t.children).find? fun s => p s.value).toList
  | node _ ts => cutForest_eq_find ts

theorem cutForest_eq_find : (ts : List (Tree α)) → (forestToList ts).countP p ≤ 1 →
    cutForest p ts = ((forestSubtrees ts).find? fun s => p s.value).toList
  | [] => by simp [cutForest, forestSubtrees]
  | t :: ts => by
    intro h
    rw [forestToList_cons, toList_eq_cons, List.cons_append, List.countP_cons,
      List.countP_append] at h
    rw [cutForest, forestSubtrees, List.find?_append]
    by_cases hroot : p t.value
    · simp only [hroot, if_true] at h
      rw [find?_subtrees_of_pos hroot, if_pos hroot, cutForest_eq_nil ts (by omega)]
      rfl
    · simp only [hroot] at h
      have ht := cut_eq_find t (by omega)
      rw [find?_subtrees_of_neg hroot, if_neg hroot, ht]
      -- one of the two parts has no such node
      rcases Nat.eq_zero_or_pos ((forestToList t.children).countP p) with hz | hpos
      · rw [find?_forestSubtrees_eq_none hz, cutForest_eq_find ts (by omega)]
        rfl
      · have hz : (forestToList ts).countP p = 0 := by omega
        rw [cutForest_eq_nil ts hz, find?_forestSubtrees_eq_none hz, Option.or_none,
          List.append_nil]

end

end

/-- A link of a tree has one of its nodes, and nodes below the root as children. -/
theorem mem_of_mem_links {t : Tree α} {l : α × List α} (h : l ∈ t.links) :
    l.1 ∈ t.toList ∧ ∀ a ∈ l.2, a ∈ forestToList t.children := by
  refine ⟨?_, fun a ha => ?_⟩
  · rw [← map_fst_links]
    exact List.mem_map_of_mem h
  · exact (flatMap_snd_links t).mem_iff.mp (List.mem_flatMap.mpr ⟨l, h, ha⟩)

/-- The first node stands directly under the second one. -/
def Under (ls : List (α × List α)) (a b : α) : Prop := ∃ kids, (b, kids) ∈ ls ∧ a ∈ kids

theorem Under.mono {ls ls' : List (α × List α)} {a b : α} (h : Under ls a b) (hs : ls ⊆ ls') :
    Under ls' a b := by
  obtain ⟨kids, hl, ha⟩ := h
  exact ⟨kids, hs hl, ha⟩

theorem Under.chain_mono {ls ls' : List (α × List α)} {a b : α}
    (h : Relation.ReflTransGen (Under ls) a b) (hs : ls ⊆ ls') :
    Relation.ReflTransGen (Under ls') a b :=
  h.lift id fun _ _ hab => hab.mono hs

mutual

/-- A node comes before those under it. -/
theorem Under.sublist : (t : Tree α) → ∀ a b, Under t.links a b → [b, a].Sublist t.toList
  | node c ts => by
    rintro a b ⟨kids, hl, ha⟩
    have hin := (mem_of_mem_links hl).2 a ha
    rw [links_node] at hl
    rw [toList_node]
    rcases List.mem_cons.mp hl with he | hl
    · obtain ⟨rfl, -⟩ := Prod.mk.inj he
      exact (List.singleton_sublist.mpr hin).cons_cons b
    · exact (Under.sublist_forest ts a b ⟨kids, hl, ha⟩).cons c

theorem Under.sublist_forest : (ts : List (Tree α)) →
    ∀ a b, Under (forestLinks ts) a b → [b, a].Sublist (forestToList ts)
  | [] => by simp [Under]
  | t :: ts => by
    rintro a b ⟨kids, hl, ha⟩
    rw [forestLinks_cons] at hl
    rw [forestToList_cons]
    rcases List.mem_append.mp hl with hl | hl
    · exact (Under.sublist t a b ⟨kids, hl, ha⟩).trans (List.sublist_append_left _ _)
    · exact (Under.sublist_forest ts a b ⟨kids, hl, ha⟩).trans (List.sublist_append_right _ _)

end

mutual

/-- From every node one climbs to the root. -/
theorem climbs : (t : Tree α) → ∀ a ∈ t.toList, Relation.ReflTransGen (Under t.links) a t.value
  | node c ts => by
    intro a ha
    rw [toList_node] at ha
    rcases List.mem_cons.mp ha with rfl | ha
    · exact Relation.ReflTransGen.refl
    · obtain ⟨t, ht, hup⟩ := climbs_forest ts a ha
      have hsub : forestLinks ts ⊆ (node c ts).links := by
        rw [links_node]
        exact List.subset_cons_self _ _
      have hlast : Under (node c ts).links t.value c :=
        ⟨ts.map value, by rw [links_node]; exact List.mem_cons_self, List.mem_map_of_mem ht⟩
      exact (Under.chain_mono hup hsub).tail hlast

theorem climbs_forest : (ts : List (Tree α)) → ∀ a ∈ forestToList ts,
    ∃ t ∈ ts, Relation.ReflTransGen (Under (forestLinks ts)) a t.value
  | [] => by simp
  | t :: ts => by
    intro a ha
    rw [forestToList_cons] at ha
    rw [forestLinks_cons]
    rcases List.mem_append.mp ha with ha | ha
    · have hup := climbs t a ha
      exact ⟨t, List.mem_cons_self, Under.chain_mono hup (List.subset_append_left _ _)⟩
    · obtain ⟨u, hu, hup⟩ := climbs_forest ts a ha
      exact ⟨u, List.mem_cons_of_mem _ hu, Under.chain_mono hup (List.subset_append_right _ _)⟩

end

theorem map_dropKids_links {p : α → Bool} {t : Tree α}
    (h : ∀ a ∈ forestToList t.children, p a = false) : t.links.map (dropKids p) = t.links := by
  have hid : ∀ l ∈ t.links, dropKids p l = id l := by
    intro l hl
    have hkids : ∀ a ∈ l.2, (!p a) = true := by
      intro a ha
      rw [h a ((mem_of_mem_links hl).2 a ha)]
      rfl
    rw [dropKids, List.filter_eq_self.mpr hkids]
    rfl
  rw [List.map_congr_left hid, List.map_id]

theorem map_addKid_links {p : α → Bool} {b : α} {t : Tree α}
    (h : ∀ a ∈ t.toList, p a = false) : t.links.map (addKid p b) = t.links := by
  have hid : ∀ l ∈ t.links, addKid p b l = id l := by
    intro l hl
    simp [addKid, h l.1 (mem_of_mem_links hl).1]
  rw [List.map_congr_left hid, List.map_id]

/-- A subtree moves under another node: its value leaves one list of children and joins another, and
all other links stay. -/
theorem links_move {p q : α → Bool} {t s : Tree α} (hp : t.toList.countP p ≤ 1)
    (hroot : ¬ p t.value) (hs : (t.subtrees.find? fun s => p s.value) = some s)
    (hq : t.toList.countP q = 1) (hsq : s.toList.countP q = 0) :
    (graft q s (t.prune p)).links.Perm (t.links.map fun l => addKid q s.value (dropKids p l)) := by
  have hps : p s.value := by simpa using List.find?_some hs
  rw [find?_subtrees_of_neg hroot] at hs
  rw [toList_eq_cons, List.countP_cons_of_neg hroot] at hp
  have hcut : t.cut p = [s] := by
    rw [cut_eq_find t hp, hs]
    rfl
  have hmem := List.mem_of_find?_eq_some hs
  have hsub : s.toList.countP p ≤ (forestToList t.children).countP p :=
    (toList_sublist_of_mem_forest hmem).countP_le
  have hbelow : ∀ a ∈ forestToList s.children, p a = false := by
    rw [toList_eq_cons, List.countP_cons_of_pos hps] at hsub
    have hz : (forestToList s.children).countP p = 0 := by omega
    intro a ha
    simpa using List.countP_eq_zero.mp hz a ha
  have hsplit : (t.links.map (dropKids p)).Perm ((t.prune p).links ++ s.links) := by
    have h := links_prune p t
    rwa [hcut, List.flatMap_singleton, map_dropKids_links hbelow] at h
  have hwhole : t.toList.Perm ((t.prune p).toList ++ s.toList) := by
    have h := hsplit.map Prod.fst
    rw [List.map_map, List.map_append, map_fst_links, map_fst_links] at h
    rw [← map_fst_links t]
    exact h
  have hone : ((t.prune p).toList.filter q).length = 1 := by
    have h := hwhole.countP_eq q
    rw [List.countP_append, hq, hsq] at h
    rw [← List.countP_eq_length_filter]
    omega
  obtain ⟨target, htarget⟩ := List.length_eq_one_iff.mp hone
  have hfree : ∀ a ∈ s.toList, q a = false := by
    intro a ha
    simpa using List.countP_eq_zero.mp hsq a ha
  have hgraft := links_graft q s (t.prune p)
  rw [htarget, List.flatMap_singleton] at hgraft
  have hadd := hsplit.map (addKid q s.value)
  rw [List.map_append, map_addKid_links hfree, List.map_map] at hadd
  exact hgraft.trans hadd.symm

end Tree

end WidgetView
