import WidgetView.Proofs.DeclarationSites
import WidgetView.Proofs.Origins

/-!
# Names in order of declaration

Names in the order of declaration. Whatever is written on the widgets of a view, one name is drawn
for each of them, a widget before those in its body. So the number of a widget tells how many
widgets with its stem have been declared up to it, and the index counts all of them in the end.
-/
namespace WidgetView

namespace NameIndex

/-- The names that are drawn for some paths one after another, and the index after them. -/
def nextAll (n : NameIndex) : List WidgetPath → List String × NameIndex
  | [] => ([], n)
  | p :: ps =>
    let r := nextAll (n.next p).2 ps
    ((n.next p).1 :: r.1, r.2)

/-- The number that is drawn for the widget at a position: one more than those of its stem before
it. -/
def numberAt (n : NameIndex) (ws : List Widget) (i : Nat) (stem : String) : Nat :=
  n.count stem + (ws.take (i + 1)).countP fun u => u.path.stem = stem

theorem count_next (n : NameIndex) (p : WidgetPath) (stem : String) :
    (n.next p).2.count stem = n.count stem + if p.stem = stem then 1 else 0 := by
  by_cases h : p.stem = stem
  · subst h
    simp
  · simp [count_next_other n p stem (Ne.symm h), h]

theorem count_next_add (n : NameIndex) (p : WidgetPath) (ps : List WidgetPath) (stem : String) :
    (n.next p).2.count stem + (ps.countP fun q => q.stem = stem) =
      n.count stem + (p :: ps).countP fun q => q.stem = stem := by
  rw [count_next, List.countP_cons]
  simp only [decide_eq_true_eq]
  omega

theorem count_nextAll (n : NameIndex) (ps : List WidgetPath) (stem : String) :
    (n.nextAll ps).2.count stem = n.count stem + ps.countP fun p => p.stem = stem := by
  induction ps generalizing n with
  | nil => rfl
  | cons p ps ih => rw [nextAll, ih, count_next_add]

theorem getElem?_nextAll (n : NameIndex) (ps : List WidgetPath) (i : Nat) :
    (n.nextAll ps).1[i]? = ps[i]?.map fun p =>
      p.stem ++ toString (n.count p.stem + (ps.take (i + 1)).countP fun q => q.stem = p.stem) := by
  induction ps generalizing n i with
  | nil => rfl
  | cons p ps ih =>
    cases i with
    | zero => simp [nextAll, next]
    | succ i =>
      rw [nextAll, List.getElem?_cons_succ, List.getElem?_cons_succ, ih]
      simp only [count_next_add, List.take_succ_cons]

end NameIndex

/-- A widget has the name that is written at its site, and else one with a number. -/
structure Widget.NamedAs (w : Widget) (site : Site) (number : Nat) : Prop where
  path : w.path = site.path
  name : w.name = (site.valueOf "name").getD
    ((if w.isComposed then "_" else "") ++ (w.path.stem ++ toString number))
  save : ∀ (events : Table String Event) (save : Bool), w.kind = .toolkit events save →
    save = (site.valueOf "name").isSome

/-- The widgets of some sites are named in their order, and one name is drawn for each. -/
structure NamedInOrder (n n' : NameIndex) (sites : List Site) (ws : List Widget) : Prop where
  length : sites.length = ws.length
  widget : ∀ (i : Nat) (w : Widget), ws[i]? = some w → ∃ site, sites[i]? = some site ∧
    w.NamedAs site (n.numberAt ws i w.path.stem)
  drawn : ∀ (i : Nat) (w : Widget), ws[i]? = some w → (n.nextAll (ws.map Widget.path)).1[i]? =
    some (w.path.stem ++ toString (n.numberAt ws i w.path.stem))
  index : n' = (n.nextAll (ws.map Widget.path)).2
  counts : ∀ stem, n'.count stem = n.count stem + ws.countP fun w => w.path.stem = stem

namespace Parse

theorem nextAll_paths (n : NameIndex) (ds : List Declaration) :
    n.nextAll (ds.map Declaration.path) =
      ((drawAll n ds).1.map fun r => r.path.stem ++ toString r.number, (drawAll n ds).2) := by
  induction ds generalizing n with
  | nil => rfl
  | cons d ds ih =>
    rw [List.map_cons, NameIndex.nextAll, ih]
    rfl

theorem drawAll_declarations (n : NameIndex) (ds : List Declaration) :
    (drawAll n ds).1.map Draw.declaration = ds := by
  induction ds generalizing n with
  | nil => rfl
  | cons d ds ih => rw [drawAll, List.map_cons, ih]

namespace Draw.Makes

variable {r : Draw} {w : Widget}

theorem path_eq (h : r.Makes w) : w.path = r.path := by
  obtain ⟨init, es, rfl⟩ := h
  rfl

theorem generated_eq (h : r.Makes w) :
    r.generated = (if w.isComposed then "_" else "") ++ (r.path.stem ++ toString r.number) := by
  obtain ⟨init, es, rfl⟩ := h
  have hkind := (r.declaration.view_kind_records (r.path.stem ++ toString r.number) init es).1
  rw [Widget.isComposed, hkind, generated, label, Draw.path]
  cases r.declaration.path.sort with
  | toolkit => simp
  | composed => simp [String.append_assoc]

/-- A widget of a toolkit type is to be saved if a name is written on it. -/
theorem save_eq (h : r.Makes w) {events : Table String Event} {save : Bool}
    (hk : w.kind = .toolkit events save) : save = (r.declaration.valueOf "name").isSome := by
  obtain ⟨init, es, rfl⟩ := h
  simp only [Declaration.view, Tree.value, Body.addAll_eq] at hk
  cases hsort : r.declaration.path.sort with
  | toolkit =>
    rw [hsort, Body.start, Body.foldl_addEvent_toolkit] at hk
    exact (WidgetKind.toolkit.inj hk).2.symm
  | composed =>
    rw [hsort, Body.start, Body.foldl_addEvent_composed] at hk
    cases hk

end Draw.Makes

theorem forall₂_getElem? {α β : Type} {R : α → β → Prop} {as : List α} {bs : List β} {i : Nat}
    {b : β} (h : List.Forall₂ R as bs) (hb : bs[i]? = some b) : ∃ a, as[i]? = some a ∧ R a b := by
  obtain ⟨hi, rfl⟩ := List.getElem?_eq_some_iff.mp hb
  have ha : i < as.length := h.length_eq ▸ hi
  exact ⟨as[i], List.getElem?_eq_getElem ha, h.get ha hi⟩

/-- The widgets that declarations give are named in the order of the sites. -/
theorem namedInOrder_of_carries {n n' : NameIndex} {sites : List Site} {ds : List Declaration}
    {ws : List Widget} (hs : List.Forall₂ Site.ReadAs sites ds) (hc : Carries n n' ds ws) :
    NamedInOrder n n' sites ws := by
  obtain ⟨hmade, hindex⟩ := hc
  have hdraws := drawAll_declarations n ds
  have hpaths : ds.map Declaration.path = ws.map Widget.path := by
    rw [← hdraws, List.map_map, ← List.forall₂_eq_eq_eq, List.forall₂_map_left_iff,
      List.forall₂_map_right_iff]
    exact hmade.imp fun _ _ h => h.path_eq.symm
  have hdrawn : ∀ (i : Nat) (w : Widget), ws[i]? = some w → (n.nextAll (ws.map Widget.path)).1[i]? =
      some (w.path.stem ++ toString (n.numberAt ws i w.path.stem)) := by
    intro i w hw
    rw [NameIndex.getElem?_nextAll, List.getElem?_map, hw, NameIndex.numberAt, ← List.map_take]
    simp only [Option.map_some, List.countP_map]
    rfl
  have hlast : n' = (n.nextAll (ws.map Widget.path)).2 := by
    rw [hindex, ← hpaths, nextAll_paths]
  refine ⟨?_, ?_, hdrawn, hlast, ?_⟩
  · rw [hs.length_eq, ← hmade.length_eq, ← List.length_map Draw.declaration, hdraws]
  · intro i w hw
    obtain ⟨r, hr, hmakes⟩ := forall₂_getElem? hmade hw
    have hd : ds[i]? = some r.declaration := by
      rw [← hdraws, List.getElem?_map, hr, Option.map_some]
    obtain ⟨site, hsite, hread⟩ := forall₂_getElem? hs hd
    have hsame : w.path.stem ++ toString (n.numberAt ws i w.path.stem) =
        r.path.stem ++ toString r.number := by
      have hdraw := hdrawn i w hw
      rw [← hpaths, nextAll_paths, List.getElem?_map, hr] at hdraw
      exact (Option.some.inj hdraw).symm
    refine ⟨site, hsite, hmakes.path_eq.trans hread.path, ?_, fun events save hk => ?_⟩
    · rw [hmakes.name_eq, hmakes.generated_eq, hread.valueOf, hsame]
    · rw [hmakes.save_eq hk, hread.valueOf]
  · intro stem
    rw [hlast, NameIndex.count_nextAll, List.countP_map]
    rfl

end Parse

/-- The widgets of a view are named in the order of its sites, whatever names have been drawn
before. -/
theorem names_in_order {fs : FileSystem} {base : Pathname} {ts : List Token} {st st' : Session}
    {v : View} (h : Source.view fs base ts st = (.ok v, st')) :
    ∃ us, Source.follow fs base ts = .ok us ∧ (∃ sites, Grammar.ViewSites us sites) ∧
      ∀ sites, Grammar.ViewSites us sites → NamedInOrder st.names st'.names sites v.widgets := by
  obtain ⟨us, hfollow, hroot⟩ := Source.view_eq_ok h
  have hview : Grammar.View us := Parse.root_accepts.mp ⟨v, st', hroot⟩
  refine ⟨us, hfollow, hview.exists_sites, fun sites hsites => ?_⟩
  exact Parse.namedInOrder_of_carries (Parse.declarations_of_sites hsites)
    (Parse.root_carries hroot)

/-- Labels with and without a written name, where four have been drawn before. The first one has the
string of its first attribute replaced by none. -/
theorem names_in_order_sample :
    let source := "gtk::Box \x7b #[name = \"a\"] #[name] gtk::Label \x7b \x7d, " ++
      "#[name] #[name = \"b\"] gtk::Label \x7b \x7d, Counter \x7b gtk::Label \x7b \x7d \x7d \x7d"
    let ts := (tokenize source.toList).toOption.getD []
    let st : Session := { names := ⟨⟨[("label", 4)]⟩⟩ }
    ∃ v st' us sites, Source.view {} {} ts st = (.ok v, st') ∧
      v.widgets.map Widget.name = ["box1", "label5", "b", "_counter1", "label7"] ∧
      Source.follow {} {} ts = .ok us ∧ Grammar.ViewSites us sites ∧
      NamedInOrder st.names st'.names sites v.widgets := by
  intro source ts st
  obtain ⟨v, hv, hnames⟩ : ∃ v, (Source.view {} {} ts st).1 = .ok v ∧
      decide (v.widgets.map Widget.name = ["box1", "label5", "b", "_counter1", "label7"]) = true :=
    exists_ok_of_any (by decide +kernel)
  have h : Source.view {} {} ts st = (.ok v, (Source.view {} {} ts st).2) := by rw [← hv]
  obtain ⟨us, hfollow, ⟨sites, hsites⟩, hall⟩ := names_in_order h
  exact ⟨v, _, us, sites, h, of_decide_eq_true hnames, hfollow, hsites, hall sites hsites⟩

end WidgetView
