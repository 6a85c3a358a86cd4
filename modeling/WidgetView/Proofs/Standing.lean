import WidgetView.Proofs.Carving
import WidgetView.Proofs.QualifiedNames
import WidgetView.Proofs.Rendering

/-!
# Where the parts of a view stand

Where the parts of a view stand among the tokens that it was read from. The name of every widget is
a run of tokens, and so is every expression; an event stands where its signal does. So every
position in a view is that of a token.
-/
namespace WidgetView

/-! ### Runs and their tokens -/

/-- The positions of tokens and of all tokens inside them. -/
def positions (ts : List Token) : List (Nat × Nat) := (descendants ts).map fun t => t.span.position

theorem descendants_append (ts us : List Token) :
    descendants (ts ++ us) = descendants ts ++ descendants us := by
  induction ts with
  | nil => rfl
  | cons t ts ih => rw [List.cons_append, descendants, descendants, ih, List.append_assoc]

theorem Within.descendants_subset {ts us : List Token} (h : Within ts us) :
    descendants us ⊆ descendants ts := by
  induction h with
  | whole => exact List.Subset.refl _
  | tail _ ih => exact List.Subset.trans (List.subset_append_right _ _) ih
  | inside _ ih =>
    refine List.Subset.trans ?_ ih
    rw [descendants, Token.descendants]
    exact List.Subset.trans (List.subset_cons_self _ _) (List.subset_append_left _ _)

theorem Within.positions_subset {ts us : List Token} (h : Within ts us) :
    positions us ⊆ positions ts :=
  List.map_subset _ h.descendants_subset

/-- The first token of a run is one of the tokens. -/
theorem Within.position_mem {ts us : List Token} {t : Token} (h : Within ts (t :: us)) :
    t.span.position ∈ positions ts := by
  refine h.positions_subset (List.mem_map_of_mem ?_)
  rw [descendants]
  exact List.mem_append_left _ (mem_descendants_self t)

/-- What is carved out of tokens stands there as a run. -/
theorem Carved.within {ts us : List Token} {es : List Expr} (h : Carved us es) (hw : Within ts us) :
    ∀ e ∈ es, ∃ more, Within ts (e.tokens ++ more) := by
  induction h with
  | nil => simp
  | skip _ ih => exact ih hw.tail
  | inside _ _ ihin ih => exact List.forall_mem_append.mpr ⟨ihin hw.inside, ih hw.tail⟩
  | @expr e rest es _ _ _ ih =>
    exact List.forall_mem_cons.mpr ⟨⟨rest, hw⟩, ih (hw.suffix (List.suffix_append _ _))⟩

/-! ### Widgets -/

/-- An event that has the position of a token. -/
def Event.Standing (ts : List Token) (e : Event) : Prop :=
  ∃ t us, Within ts (t :: us) ∧ t.span.position = (e.line, e.column)

/-- A widget whose name, and the signals of whose events, stand among tokens. -/
structure Widget.Standing (ts : List Token) (w : Widget) : Prop where
  path : ∃ ns more, Within ts (ns ++ more) ∧ Grammar.Name ns w.path
  place : (w.line, w.column) = (w.path.line, w.path.column)
  events : ∀ h ∈ w.kind.handlers, h.2.Standing ts

def Entry.Standing (ts : List Token) : Entry → Prop
  | child v => ∀ w ∈ v.widgets, w.Standing ts
  | event _ e => e.Standing ts
  | _ => True

namespace Parse

theorem event_place {stop place : Nat × Nat} {sort : WidgetSort} {signal : String}
    {ts rest : List Token} {e : Event} (h : event stop sort signal place ts = .ok (e, rest)) :
    place = (e.line, e.column) := by
  unfold event at h
  split at h
  · cases h
  · split at h
    · cases h
    · split at h
      · split at h
        · cases h
        · obtain ⟨rfl, -⟩ := Prod.mk.inj (Except.ok.inj h)
          rfl
      · cases h

theorem plainEntry_standing {stop : Nat × Nat} {sort : WidgetSort} {name : String} {t : Token}
    {ts us rest : List Token} {e : Entry} (hw : Within ts (t :: us))
    (h : plainEntry stop sort name t.span.position us = .ok (e, rest)) : e.Standing ts := by
  unfold plainEntry at h
  split at h
  · cases h
  · next u r =>
    split at h
    · split at h
      · next cs s r' =>
        obtain ⟨es, -, heq⟩ := map_eq_ok h
        obtain ⟨rfl, -⟩ := Prod.mk.inj heq
        trivial
      · obtain ⟨v, -, heq⟩ := map_eq_ok h
        obtain ⟨rfl, -⟩ := Prod.mk.inj heq
        trivial
    · split at h
      · obtain ⟨v, he, heq⟩ := map_eq_ok h
        obtain ⟨rfl, -⟩ := Prod.mk.inj heq
        exact ⟨t, _, hw, event_place he⟩
      · cases h

/-- The name of a declaration stands in front of the rest of it. -/
theorem declaration_name {stop : Nat × Nat} {ts us : List Token} {d : Declaration}
    (hw : Within ts us) (h : declaration stop us = .ok d) : ∃ ns more, Within ts (ns ++ more) ∧
      Grammar.Name ns d.path := by
  unfold declaration at h
  split at h
  · cases h
  · next found r hattrs =>
    split at h
    · cases h
    · next path n hscan =>
      obtain rfl := Except.ok.inj h
      obtain ⟨ns, more, rfl, -, hname, -⟩ := QualifiedName.scan?_eq_some_iff.mp hscan
      exact ⟨ns, more, hw.suffix (attributes_suffix hattrs), hname⟩

/-- The widgets of a declaration: its own, and those of its children. -/
theorem view_standing {ts : List Token} {d : Declaration} {found : List Entry} (generated : String)
    (init : List Expr) (hname : ∃ ns more, Within ts (ns ++ more) ∧ Grammar.Name ns d.path)
    (h : ∀ e ∈ found, e.Standing ts) :
    ∀ w ∈ (d.view generated init found).widgets, w.Standing ts := by
  intro w hw
  rw [View.widgets, Declaration.view, Tree.toList_node, Body.children_addAll, Body.children_start,
    List.nil_append] at hw
  rcases List.mem_cons.mp hw with rfl | hw
  · refine ⟨hname, rfl, fun e he => ?_⟩
    rcases Body.mem_handlers_addAll he with hstart | hfound
    · cases hsort : d.path.sort <;> simp [hsort, Body.start, WidgetKind.handlers] at hstart
    · exact h _ hfound
  · obtain ⟨v, hv, hw⟩ := mem_forestToList_children hw
    exact h _ hv w hw

/-- The widgets of a view that was read from tokens stand there. -/
theorem root_standing {ts us : List Token} {st st' : Session} {v : View} (hw : Within ts us)
    (h : root us st = .ok v st') : ∀ w ∈ v.widgets, w.Standing ts := by
  have hdescends : Descends fun us found => Within ts us → ∀ e ∈ found, e.Standing ts := by
    refine ⟨fun _ => by simp, ?_, ?_⟩
    · intro stop us d sh generated found more hd hs hbody hmore hw
      obtain ⟨hbodyWithin, hrest⟩ := within_declaration hw hd
      rw [Declaration.body, hs] at hbodyWithin
      rw [Declaration.rest, hs] at hrest
      refine List.forall_mem_cons.mpr ⟨?_, hmore (hrest.suffix (skipComma_suffix _))⟩
      exact view_standing generated sh.init (declaration_name hw hd) (hbody hbodyWithin)
    · intro stop sort t us rest name e more _ he hmore hw
      refine List.forall_mem_cons.mpr ⟨plainEntry_standing hw he, hmore ?_⟩
      exact hw.tail.suffix ((skipComma_suffix rest).trans (plainEntry_suffix he))
  exact List.forall_mem_singleton.mp (hdescends.root h hw)

/-- The expressions of a view that was read from tokens stand there. -/
theorem root_exprs_within {ts us : List Token} {st st' : Session} {v : View} (hw : Within ts us)
    (h : root us st = .ok v st') : ∀ e ∈ View.exprs v, ∃ more, Within ts (e.tokens ++ more) := by
  obtain ⟨es, hcarved, hle⟩ := root_carved h
  exact fun e he => hcarved.within hw e (Multiset.subset_of_le hle he)

end Parse

/-! ### Positions -/

/-- The positions that an event is given: its own, and that of its target. -/
def Event.places (e : Event) : List (Nat × Nat) :=
  (e.line, e.column) :: (e.target.map fun t => (t.line, t.column)).toList

/-- All positions of a widget, those of the tokens in its expressions as well. -/
def Widget.places (w : Widget) : List (Nat × Nat) :=
  (w.line, w.column) :: (w.path.line, w.path.column) ::
    (w.events.flatMap fun h => h.2.places) ++ w.exprs.flatMap fun e => positions e.tokens

def View.places (v : View) : List (Nat × Nat) := v.widgets.flatMap Widget.places

theorem Grammar.Name.place {ns : List Token} {path : WidgetPath} (h : Name ns path) :
    ∃ t us, ns = t :: us ∧ t.span.position = (path.line, path.column) := by
  cases h with
  | plain _ => exact ⟨_, _, rfl, rfl⟩
  | generic _ _ => exact ⟨_, _, rfl, rfl⟩

theorem Event.places_subset {ts : List Token} {e : Event} (h : e.Standing ts) (ht : e.ReadFrom ts) :
    e.places ⊆ positions ts := by
  obtain ⟨t, us, hw, hplace⟩ := h
  refine List.cons_subset.mpr ⟨hplace ▸ hw.position_mem, fun place hmem => ?_⟩
  obtain ⟨target, htarget, rfl⟩ := Option.map_eq_some_iff.mp (Option.mem_toList.mp hmem)
  obtain ⟨l, rest, ⟨-, s, hl⟩, -, hline, hcolumn⟩ := ht target htarget
  rw [← hline, ← hcolumn]
  exact hl.position_mem

namespace Parse

/-- Every position in a view is that of a token. -/
theorem root_places {ts : List Token} {st st' : Session} {v : View} (h : root ts st = .ok v st') :
    View.places v ⊆ positions ts := by
  intro place hplace
  obtain ⟨w, hw, hplace⟩ := List.mem_flatMap.mp hplace
  obtain ⟨⟨ns, more, hns, hname⟩, hline, hevents⟩ := root_standing .whole h w hw
  obtain ⟨t, us, rfl, hpath⟩ := hname.place
  have hstart : (w.path.line, w.path.column) ∈ positions ts := hpath ▸ hns.position_mem
  simp only [Widget.places, List.cons_append, List.mem_cons, List.mem_append] at hplace
  rcases hplace with rfl | rfl | hplace | hplace
  · rw [hline]
    exact hstart
  · exact hstart
  · obtain ⟨e, he, hplace⟩ := List.mem_flatMap.mp hplace
    rw [Widget.events_eq] at he
    exact Event.places_subset (hevents e he) ((root_readFrom h w hw).events e he) hplace
  · obtain ⟨e, he, hplace⟩ := List.mem_flatMap.mp hplace
    obtain ⟨more, hw⟩ := root_exprs_within .whole h e (List.mem_flatMap.mpr ⟨w, hw, he⟩)
    refine hw.positions_subset ?_
    rw [positions, descendants_append, List.map_append]
    exact List.mem_append_left _ hplace

end Parse

end WidgetView
