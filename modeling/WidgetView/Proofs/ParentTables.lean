import WidgetView.Proofs.Bodies
import WidgetView.Proofs.Origins
import WidgetView.Resolve

/-!
# Tables of parents

The parents noted while a view is read, and the table of parents of the view. The one is filled
widget by widget, every widget after its children; the other lists the widgets of the finished tree,
every widget before its children. They name the same widgets, and agree wherever no two of these
have one name.
-/
namespace WidgetView

namespace Tree

variable {α : Type}

mutual

/-- The values of a tree, every node after its children. -/
def postorder : Tree α → List α
  | node a ts => forestPostorder ts ++ [a]

def forestPostorder : List (Tree α) → List α
  | [] => []
  | t :: ts => t.postorder ++ forestPostorder ts

end

theorem postorder_eq (t : Tree α) : t.postorder = forestPostorder t.children ++ [t.value] := by
  cases t
  rw [postorder]
  rfl

mutual

/-- Both orders list the same nodes. -/
theorem postorder_perm : (t : Tree α) → t.postorder.Perm t.toList
  | node a ts => by
    rw [postorder, toList_node]
    exact List.perm_append_comm.trans ((forestPostorder_perm ts).cons a)

theorem forestPostorder_perm : (ts : List (Tree α)) → (forestPostorder ts).Perm (forestToList ts)
  | [] => by
    rw [forestPostorder, forestToList_nil]
  | t :: ts => by
    rw [forestPostorder, forestToList_cons]
    exact (postorder_perm t).append (forestPostorder_perm ts)

end

end Tree

namespace Table

variable {κ α : Type} [DecidableEq κ] {t t' : Table κ α} {bs bs' : List (κ × α)}

theorem insertAll_append (t : Table κ α) (bs bs' : List (κ × α)) :
    t.insertAll (bs ++ bs') = (t.insertAll bs).insertAll bs' := List.foldl_append

theorem mem_boundTo {k : κ} {v : α} : v ∈ boundTo k bs ↔ (k, v) ∈ bs := by
  simp only [boundTo, List.mem_map, List.mem_filter, decide_eq_true_eq]
  constructor
  · rintro ⟨⟨_, _⟩, ⟨hmem, rfl⟩, rfl⟩
    exact hmem
  · intro hmem
    exact ⟨(k, v), ⟨hmem, rfl⟩, rfl⟩

theorem KeepsLast.mem_keys (h : t.KeepsLast bs) {k : κ} : k ∈ t.keys ↔ k ∈ bs.map Prod.fst := by
  rw [h.keys, keysOf, List.mem_eraseDups]

/-- Where every key is bound once, a table is its bindings. -/
theorem KeepsLast.get?_eq_some_iff (h : t.KeepsLast bs) (hn : (bs.map Prod.fst).Nodup) {k : κ}
    {v : α} : t.get? k = some v ↔ (k, v) ∈ bs := by
  rw [h.value, ← mem_boundTo]
  constructor
  · exact List.mem_of_getLast?
  · intro hv
    cases hlast : (boundTo k bs).getLast? with
    | none =>
      rw [List.getLast?_eq_none_iff.mp hlast] at hv
      cases hv
    | some u =>
      have hu := mem_boundTo.mp (List.mem_of_getLast? hlast)
      have heq := List.inj_on_of_nodup_map hn hu (mem_boundTo.mp hv) rfl
      rw [(Prod.mk.inj heq).2]

/-- The order of bindings plays no part for the keys. -/
theorem KeepsLast.mem_keys_perm (h : t.KeepsLast bs) (h' : t'.KeepsLast bs') (hp : bs.Perm bs')
    {k : κ} : k ∈ t.keys ↔ k ∈ t'.keys := by
  rw [h.mem_keys, h'.mem_keys, (hp.map Prod.fst).mem_iff]

/-- Where every key is bound once, the order of bindings plays no part. -/
theorem KeepsLast.get?_perm (h : t.KeepsLast bs) (h' : t'.KeepsLast bs') (hp : bs.Perm bs')
    (hn : (bs.map Prod.fst).Nodup) (k : κ) : t.get? k = t'.get? k := by
  have hn' : (bs'.map Prod.fst).Nodup := (hp.map Prod.fst).nodup_iff.mp hn
  apply Option.ext
  intro v
  rw [h.get?_eq_some_iff hn, h'.get?_eq_some_iff hn', hp.mem_iff]

end Table

/-- The parent that a widget asks for, under the name of the widget. -/
def Widget.asks? (w : Widget) : Option (String × String) := w.parent.map fun p => (w.name, p)

namespace Parse

theorem noteParent_eq (w : Widget) (st : Session) :
    noteParent w st = .ok () { st with parents := st.parents.insertAll w.asks?.toList } := by
  cases hp : w.parent with
  | none =>
    simp [noteParent, Widget.asks?, hp, Table.insertAll, modify, modifyGet, MonadStateOf.modifyGet,
      EStateM.modifyGet]
  | some p =>
    simp [noteParent, Widget.asks?, hp, Table.insertAll, modify, modifyGet, MonadStateOf.modifyGet,
      EStateM.modifyGet]

mutual

/-- While a declaration is read, the parents that its widgets ask for are noted, children first. -/
theorem declared_notes (d : Declaration) (st st' : Session) (v : View)
    (h : declared d st = .ok v st') :
    st'.parents = st.parents.insertAll (v.postorder.filterMap Widget.asks?) := by
  obtain ⟨shell, found, st₁, -, hf, rfl, hnote⟩ := declared_steps h
  have hbody := entries_note d.path.sort shell.bodyStop d.body _ _ found hf
  rw [noteParent_eq] at hnote
  obtain ⟨-, rfl⟩ := EStateM.Result.ok.inj hnote
  rw [Tree.postorder_eq, Declaration.children_view, List.filterMap_append,
    Table.insertAll_append, ← hbody]
  rfl
termination_by 2 * sizeOf d.body + 1

theorem entries_note (sort : WidgetSort) (stop : Nat × Nat) (ts : List Token) (st st' : Session)
    (found : List Entry) (h : entries sort stop ts st = .ok found st') :
    st'.parents = st.parents.insertAll
      ((Tree.forestPostorder (found.filterMap Entry.child?)).filterMap Widget.asks?) := by
  match ts, h with
  | [], h =>
    rw [entries] at h
    obtain ⟨rfl, rfl⟩ := Step.pure_eq_ok.mp h
    rfl
  | t :: ts, h =>
    rcases entries_cons_eq_ok h with ⟨hc, d, v, st₁, more, hd, hv, hm, rfl⟩ |
      ⟨hc, name, e, rest, more, hi, hp, hm, rfl⟩
    · have hfirst := declared_notes d st st₁ v hv
      have hmore := entries_note sort stop (skipComma d.rest) st₁ st' more hm
      have hchildren : (Entry.child v :: more).filterMap Entry.child? = v ::
          more.filterMap Entry.child? := rfl
      rw [hchildren, Tree.forestPostorder, List.filterMap_append, Table.insertAll_append, ← hfirst]
      exact hmore
    · have hmore := entries_note sort stop (skipComma rest) st st' more hm
      rw [List.filterMap_cons_none (plainEntry_child? hp)]
      exact hmore
termination_by 2 * sizeOf ts
decreasing_by
  · have := (declaration_skipComma_within ‹_›).1
    omega
  · have := (declaration_skipComma_within ‹_›).2
    omega
  · have := plainEntry_skipComma_within ‹_› t
    omega

end

end Parse

namespace Source

variable {fs : FileSystem} {base : Pathname} {ts : List Token} {names : NameIndex} {v : View}
    {st : Session}

/-- The parents noted for a view, with none noted before. -/
theorem parents_keepLast (h : view fs base ts ⟨names, {}⟩ = (.ok v, st)) :
    st.parents.KeepsLast (v.postorder.filterMap Widget.asks?) := by
  obtain ⟨us, -, hroot⟩ := view_eq_ok h
  obtain ⟨d, -, hd⟩ := Parse.root_eq_ok hroot
  rw [Parse.declared_notes d _ _ v hd]
  exact Table.keepsLast_insertAll _

theorem parentTable_keepsLast (v : View) :
    (parentTable v).KeepsLast (v.widgets.filterMap Widget.asks?) :=
  Table.keepsLast_insertAll _

theorem map_fst_asks (ws : List Widget) :
    (ws.filterMap Widget.asks?).map Prod.fst =
      (ws.filter fun w => w.parent.isSome).map (·.name) := by
  induction ws with
  | nil => rfl
  | cons w ws ih => cases hp : w.parent <;> simp [Widget.asks?, hp, ih]

theorem mem_asks {ws : List Widget} {name p : String} :
    (name, p) ∈ ws.filterMap Widget.asks? ↔ ∃ w ∈ ws, w.name = name ∧ w.parent = some p := by
  simp only [List.mem_filterMap, Widget.asks?, Option.map_eq_some_iff, Prod.mk.injEq]
  grind

/-- The table that is filled while a view is read and the table of the finished view have the same
names. If no two widgets that ask for a parent have one name, both have for each name the parent
that its widget asks for. -/
theorem parents_agree (h : view fs base ts ⟨names, {}⟩ = (.ok v, st)) :
    (∀ name, name ∈ st.parents.keys ↔ name ∈ (parentTable v).keys) ∧
      (((v.widgets.filter fun w => w.parent.isSome).map (·.name)).Nodup →
        (∀ name, st.parents.get? name = (parentTable v).get? name) ∧
          ∀ name p, (parentTable v).get? name = some p ↔
            ∃ w ∈ v.widgets, w.name = name ∧ w.parent = some p) := by
  have hnoted := parents_keepLast h
  have htable := parentTable_keepsLast v
  have hperm := (Tree.postorder_perm v).filterMap Widget.asks?
  refine ⟨fun name => hnoted.mem_keys_perm htable hperm, fun hdistinct => ?_⟩
  rw [← map_fst_asks] at hdistinct
  refine ⟨?_, fun name p => ?_⟩
  · exact hnoted.get?_perm htable hperm ((hperm.map Prod.fst).nodup_iff.mpr hdistinct)
  · rw [htable.get?_eq_some_iff hdistinct, mem_asks]

/-- A widget with a written name asks for a parent, and so does the label in it, which is noted
first. The tables have another order, and the same parents. -/
theorem parents_agree_sample :
    let source := "gtk::Box \x7b #[name = \"a\"] gtk::Box \x7b \x7d, " ++
      "#[name = \"b\"] #[parent = \"a\"] gtk::Box \x7b " ++
      "#[parent = \"box1\"] gtk::Label \x7b \x7d \x7d \x7d"
    let ts := (tokenize source.toList).toOption.getD []
    ∃ v st, view {} {} ts {} = (.ok v, st) ∧ st.parents.entries = [("label1", "box1"), ("b", "a")] ∧
      (parentTable v).entries = [("b", "a"), ("label1", "box1")] ∧
      ∀ name, st.parents.get? name = (parentTable v).get? name := by
  intro source ts
  obtain ⟨v, hv, hpred⟩ : ∃ v, (view {} {} ts {}).1 = .ok v ∧
      decide ((parentTable v).entries = [("b", "a"), ("label1", "box1")] ∧
        ((v.widgets.filter fun w => w.parent.isSome).map (·.name)).Nodup) = true :=
    exists_ok_of_any (by decide +kernel)
  obtain ⟨htable, hdistinct⟩ := of_decide_eq_true hpred
  have h : view {} {} ts {} = (.ok v, (view {} {} ts {}).2) := by rw [← hv]
  obtain ⟨hsame, -⟩ := (parents_agree h).2 hdistinct
  exact ⟨v, _, h, by decide +kernel, htable, hsame⟩

end Source

end WidgetView
