import WidgetView.Proofs.Declarations
import WidgetView.Proofs.Renaming

/-!
# Targets and child properties

Where the parts of a view come from. The target of every event and the name of every child property
of a view that was read is an identifier of the token trees, with its mark right behind it.
-/
namespace WidgetView

namespace Within

theorem trans {ts us vs : List Token} (h : Within ts us) (h' : Within us vs) : Within ts vs := by
  induction h' with
  | whole => exact h
  | tail _ ih => exact ih.tail
  | inside _ ih => exact ih.inside

theorem suffix {ts us vs : List Token} (h : Within ts us) (hs : vs <:+ us) : Within ts vs := by
  obtain ⟨front, rfl⟩ := hs
  induction front with
  | nil => exact h
  | cons t front ih => exact ih h.tail

theorem nil {ts us : List Token} (h : Within ts us) : Within ts [] := h.suffix (List.nil_suffix)

end Within

/-- A name of the token trees with a mark right behind it, and what follows the mark. -/
def Marked (ts : List Token) (l : Lexeme) (mark : String) (rest : List Token) : Prop :=
  l.kind = .ident ∧ ∃ span, Within ts (.leaf l :: .leaf ⟨.punct, mark, span⟩ :: rest)

theorem Token.ident?_eq_some {t : Token} {name : String} (h : t.ident? = some name) :
    ∃ span, t = .leaf ⟨.ident, name, span⟩ := by
  unfold ident? at h
  split at h
  · next span =>
    obtain rfl := Option.some.inj h
    exact ⟨span, rfl⟩
  · cases h

theorem Token.isPunctOf_eq_true {t : Token} {mark : String} (h : t.isPunctOf mark = true) :
    ∃ span, t = .leaf ⟨.punct, mark, span⟩ := by
  rw [isPunctOf, beq_iff_eq] at h
  unfold punct? at h
  split at h
  · next span =>
    obtain rfl := Option.some.inj h
    exact ⟨span, rfl⟩
  · cases h

/-- A target that was read from token trees. -/
def Target.ReadFrom (ts : List Token) (t : Target) : Prop :=
  ∃ l rest, Marked ts l "@" rest ∧ l.text = t.name ∧ l.span.line = t.line ∧ l.span.column = t.column

/-- An event whose target, if it has one, was read from token trees. -/
def Event.ReadFrom (ts : List Token) (e : Event) : Prop := ∀ t ∈ e.target, t.ReadFrom ts

/-- A child property that was read from token trees. -/
def PropertyReadFrom (ts : List Token) (p : String × Expr) : Prop :=
  ∃ l rest, Marked ts l ":" (p.2.first :: rest) ∧ l.text = p.1

def WidgetKind.handlers : WidgetKind → List (String × Event)
  | toolkit events _ => events.entries
  | composed events => events.entries.flatMap fun (signal, handlers) =>
      handlers.map fun e => (signal, e)

theorem Widget.events_eq (w : Widget) : w.events = w.kind.handlers := by
  unfold Widget.events
  cases w.kind <;> rfl

/-- A widget whose targets and child properties were read from token trees. -/
structure Widget.ReadFrom (ts : List Token) (w : Widget) : Prop where
  events : ∀ h ∈ w.kind.handlers, h.2.ReadFrom ts
  properties : ∀ p ∈ w.childProperties.entries, PropertyReadFrom ts p

def Entry.ReadFrom (ts : List Token) : Entry → Prop
  | child v => ∀ w ∈ v.widgets, w.ReadFrom ts
  | property _ _ => True
  | childProperties es => ∀ p ∈ es, PropertyReadFrom ts p
  | event _ e => e.ReadFrom ts

namespace Body

variable {ts : List Token}

/-- The handlers after an event are those from before, and the new one. -/
theorem mem_handlers_addEvent {kind : WidgetKind} {signal : String} {e : Event} {h : String × Event}
    (hh : h ∈ (addEvent kind signal e).handlers) : h ∈ kind.handlers ∨ h = (signal, e) := by
  cases kind with
  | toolkit events save => exact (Table.mem_of_mem_place hh).symm
  | composed events =>
    simp only [addEvent, WidgetKind.handlers, Table.update, Table.insert, List.mem_flatMap] at hh ⊢
    obtain ⟨⟨s, es⟩, hes, hh⟩ := hh
    obtain ⟨e', he', rfl⟩ := List.mem_map.mp hh
    have hold : ∀ es, (s, es) ∈ events.entries → e' ∈ es → ∃ a ∈ events.entries,
        (s, e') ∈ a.2.map (a.1, ·) :=
      fun es hmem hin => ⟨(s, es), hmem, List.mem_map_of_mem hin⟩
    -- the handlers of this signal are those from before and the new one
    rcases Table.mem_of_mem_place hes with hnew | hes
    · obtain ⟨rfl, rfl⟩ := Prod.mk.inj hnew
      rcases List.mem_append.mp he' with hin | hin
      · cases hg : events.get? s with
        | none => simp [hg] at hin
        | some es =>
          rw [hg] at hin
          exact .inl (hold es (Table.mem_of_lookup hg) hin)
      · exact .inr (by rw [List.mem_singleton.mp hin])
    · exact .inl (hold es hes he')

theorem mem_handlers_addAll {b : Body} {es : List Entry} {h : String × Event}
    (hh : h ∈ (b.addAll es).kind.handlers) : h ∈ b.kind.handlers ∨ Entry.event h.1 h.2 ∈ es := by
  induction es generalizing b with
  | nil => exact .inl hh
  | cons e es ih =>
    rcases ih hh with hb | hes
    · cases e with
      | event signal e =>
        rcases mem_handlers_addEvent hb with hb | rfl
        · exact .inl hb
        · exact .inr List.mem_cons_self
      | child _ => exact .inl hb
      | property _ _ => exact .inl hb
      | childProperties _ => exact .inl hb
    · exact .inr (List.mem_cons_of_mem _ hes)

theorem readFrom_addEvent {kind : WidgetKind} (hk : ∀ h ∈ kind.handlers, h.2.ReadFrom ts)
    (signal : String) {e : Event} (he : e.ReadFrom ts) :
    ∀ h ∈ (addEvent kind signal e).handlers, h.2.ReadFrom ts := by
  intro h hh
  rcases mem_handlers_addEvent hh with hh | rfl
  · exact hk h hh
  · exact he

/-- A body that was read from token trees still is after more entries that were. -/
theorem readFrom_addAll {b : Body} {es : List Entry}
    (hk : ∀ h ∈ b.kind.handlers, h.2.ReadFrom ts)
    (hp : ∀ p ∈ b.childProperties.entries, PropertyReadFrom ts p)
    (hes : ∀ e ∈ es, e.ReadFrom ts) :
    (∀ h ∈ (b.addAll es).kind.handlers, h.2.ReadFrom ts) ∧
      ∀ p ∈ (b.addAll es).childProperties.entries, PropertyReadFrom ts p := by
  induction es generalizing b with
  | nil => exact ⟨hk, hp⟩
  | cons e es ih =>
    have he := hes e List.mem_cons_self
    have hrest : ∀ e ∈ es, e.ReadFrom ts := fun e h => hes e (List.mem_cons_of_mem _ h)
    rw [addAll_cons]
    cases e with
    | child v => exact ih hk hp hrest
    | property name e => exact ih hk hp hrest
    | childProperties ps =>
      refine ih hk ?_ hrest
      intro p hmem
      rcases Table.mem_of_mem_insertAll hmem with hmem | hmem
      · exact hp p hmem
      · exact he p hmem
    | event signal e => exact ih (readFrom_addEvent hk signal he) hp hrest

end Body

namespace Parse

theorem eventTarget_readFrom {ts us : List Token} (h : Within ts us) :
    ∀ t ∈ (eventTarget us).1, t.ReadFrom ts := by
  intro t ht
  unfold eventTarget at ht
  split at ht
  · next x y rest =>
    split at ht
    · next name hname hmark =>
      obtain rfl := Option.some.inj ht
      obtain ⟨span, rfl⟩ := Token.ident?_eq_some hname
      obtain ⟨span', rfl⟩ := Token.isPunctOf_eq_true hmark
      exact ⟨_, rest, ⟨rfl, span', h⟩, rfl, rfl, rfl⟩
    · cases ht
  · cases ht

theorem event_readFrom {stop : Nat × Nat} {sort : WidgetSort} {signal : String}
    {place : Nat × Nat} {ts us rest : List Token} {e : Event} (hw : Within ts us)
    (h : event stop sort signal place us = .ok (e, rest)) : e.ReadFrom ts := by
  unfold event at h
  split at h
  · cases h
  · next names r hp =>
    split at h
    · cases h
    · next t r' hm =>
      split at h
      · split at h
        · cases h
        · next eff rest' he =>
          obtain ⟨rfl, -⟩ := Prod.mk.inj (Except.ok.inj h)
          have hr : Within ts r := hw.suffix (eventParams_suffix hp)
          have hm' : Within ts (t :: r') := by
            rw [← hm]
            exact hr.suffix (eventModel_suffix r)
          exact eventTarget_readFrom hm'.tail
      · cases h

/-- The tokens of a value start where the value is read. -/
theorem value_eq_ok {stop : Nat × Nat} {wanted : Wanted} {ts rest : List Token} {e : Expr}
    (h : value stop wanted ts = .ok (e, rest)) : ∃ more, ts = e.first :: more := by
  unfold value at h
  split at h
  · cases h
  · next t more heq =>
    obtain ⟨rfl, -⟩ := Prod.mk.inj (Except.ok.inj h)
    cases ts with
    | nil => cases heq
    | cons u us =>
      rw [List.takeWhile_cons] at heq
      split at heq
      · obtain ⟨rfl, -⟩ := List.cons.inj heq
        exact ⟨us, rfl⟩
      · cases heq

theorem childProperties_readFrom {stop : Nat × Nat} {ts us : List Token}
    {es : List (String × Expr)} (hw : Within ts us)
    (h : Parse.childProperties stop us = .ok es) : ∀ p ∈ es, PropertyReadFrom ts p := by
  fun_induction Parse.childProperties stop us generalizing es with
  | case1 =>
    obtain rfl := Except.ok.inj h
    simp
  | case2 => cases h
  | case3 => cases h
  | case4 => cases h
  | case5 => cases h
  | case6 t name u us hname hu e rest hv es' hes ih =>
    obtain rfl := Except.ok.inj h
    obtain ⟨span, rfl⟩ := Token.ident?_eq_some hname
    obtain ⟨span', rfl⟩ := Token.isPunctOf_eq_true hu
    obtain ⟨more, rfl⟩ := value_eq_ok hv
    intro p hp
    rcases List.mem_cons.mp hp with rfl | hp
    · exact ⟨_, more, ⟨rfl, span', hw⟩, rfl⟩
    · have hrest := hw.tail.tail.suffix ((skipComma_suffix rest).trans (value_suffix hv))
      exact ih hrest hes p hp
  | case7 => cases h

theorem plainEntry_readFrom {stop place : Nat × Nat} {sort : WidgetSort} {name : String}
    {ts us rest : List Token} {e : Entry} (hw : Within ts us)
    (h : plainEntry stop sort name place us = .ok (e, rest)) : e.ReadFrom ts := by
  unfold plainEntry at h
  split at h
  · cases h
  · next t r =>
    split at h
    · split at h
      · next cs s r' =>
        obtain ⟨es, hc, heq⟩ := map_eq_ok h
        obtain ⟨rfl, -⟩ := Prod.mk.inj heq
        exact childProperties_readFrom hw.tail.inside hc
      · obtain ⟨v, -, heq⟩ := map_eq_ok h
        obtain ⟨rfl, -⟩ := Prod.mk.inj heq
        trivial
    · split at h
      · obtain ⟨v, he, heq⟩ := map_eq_ok h
        obtain ⟨rfl, -⟩ := Prod.mk.inj heq
        exact event_readFrom hw he
      · cases h

/-- The body of a declaration and what follows it stand in the token trees. -/
theorem within_declaration {stop : Nat × Nat} {ts us : List Token} {d : Declaration}
    (hw : Within ts us) (h : declaration stop us = .ok d) :
    Within ts d.body ∧ Within ts d.rest := by
  unfold declaration at h
  split at h
  · cases h
  · next found r ha =>
    split at h
    · cases h
    · next path n hs =>
      obtain rfl := Except.ok.inj h
      have hr : Within ts (r.drop n) :=
        hw.suffix ((List.drop_suffix n r).trans (attributes_suffix ha))
      simp only [Declaration.body, Declaration.rest]
      split
      · next s heq =>
        unfold Parse.shell at heq
        split at heq
        · cases heq
        · next init r' hi =>
          have hr' := hr.suffix (initParams_suffix hi)
          split at heq
          · obtain rfl := Except.ok.inj heq
            exact ⟨hr'.inside, hr'.tail⟩
          · split at heq
            · cases heq
            · obtain rfl := Except.ok.inj heq
              exact ⟨hr'.nil, hr'⟩
      · exact ⟨hr.nil, hr.nil⟩

/-- The widgets of a forest of children are those of the children. -/
theorem mem_forestToList_children {found : List Entry} {w : Widget}
    (hw : w ∈ Tree.forestToList (found.filterMap Entry.child?)) :
    ∃ v, Entry.child v ∈ found ∧ w ∈ View.widgets v := by
  induction found with
  | nil => simp at hw
  | cons e found ih =>
    cases e with
    | child v =>
      change w ∈ Tree.forestToList (v :: found.filterMap Entry.child?) at hw
      rw [Tree.forestToList_cons] at hw
      rcases List.mem_append.mp hw with hw | hw
      · exact ⟨v, List.mem_cons_self, hw⟩
      · obtain ⟨v', hv', hw⟩ := ih hw
        exact ⟨v', List.mem_cons_of_mem _ hv', hw⟩
    | property _ _ =>
      obtain ⟨v', hv', hw⟩ := ih hw
      exact ⟨v', List.mem_cons_of_mem _ hv', hw⟩
    | childProperties _ =>
      obtain ⟨v', hv', hw⟩ := ih hw
      exact ⟨v', List.mem_cons_of_mem _ hv', hw⟩
    | event _ _ =>
      obtain ⟨v', hv', hw⟩ := ih hw
      exact ⟨v', List.mem_cons_of_mem _ hv', hw⟩

/-- The widgets of a declaration whose entries were read from token trees. -/
theorem view_readFrom {ts : List Token} {found : List Entry} (h : ∀ e ∈ found, e.ReadFrom ts)
    (d : Declaration) (generated : String) (init : List Expr) :
    ∀ w ∈ (d.view generated init found).widgets, w.ReadFrom ts := by
  intro w hw
  rw [View.widgets, Declaration.view, Tree.toList_node, Body.children_addAll,
    Body.children_start, List.nil_append] at hw
  rcases List.mem_cons.mp hw with rfl | hw
  · have hstart : ∀ sort save, (∀ h ∈ (Body.start sort save).kind.handlers, h.2.ReadFrom ts) ∧
        ∀ p ∈ (Body.start sort save).childProperties.entries, PropertyReadFrom ts p := by
      intro sort save
      cases sort <;> exact ⟨by simp [Body.start, WidgetKind.handlers], by simp [Body.start]⟩
    obtain ⟨hk, hp⟩ := Body.readFrom_addAll (hstart _ _).1 (hstart _ _).2 h
    exact ⟨hk, hp⟩
  · obtain ⟨v, hv, hw⟩ := mem_forestToList_children hw
    exact h _ hv w hw

mutual

theorem declared_readFrom (ts : List Token) (d : Declaration) (st st' : Session) (v : View)
    (hw : Within ts d.body) (h : declared d st = .ok v st') : ∀ w ∈ v.widgets, w.ReadFrom ts := by
  obtain ⟨shell, found, st₁, hs, hf, rfl, -⟩ := declared_eq_ok h
  have hfound := entries_readFrom ts d.path.sort shell.bodyStop d.body _ _ found hw hf
  exact view_readFrom hfound d _ shell.init
termination_by 2 * sizeOf d.body + 1

theorem entries_readFrom (ts : List Token) (sort : WidgetSort) (stop : Nat × Nat)
    (us : List Token) (st st' : Session) (found : List Entry) (hw : Within ts us)
    (h : entries sort stop us st = .ok found st') : ∀ e ∈ found, e.ReadFrom ts := by
  match us, hw, h with
  | [], hw, h =>
    rw [entries] at h
    obtain ⟨rfl, rfl⟩ := Step.pure_eq_ok.mp h
    simp
  | t :: us, hw, h =>
    rcases entries_cons_eq_ok h with ⟨hc, d, v, st₁, more, hd, hv, hm, rfl⟩ |
      ⟨hc, name, e, rest, more, hi, hp, hm, rfl⟩
    · obtain ⟨hbody, hrest⟩ := within_declaration hw hd
      have h₁ := declared_readFrom ts d st st₁ v hbody hv
      have h₂ := entries_readFrom ts sort stop (skipComma d.rest) st₁ st' more
        (hrest.suffix (skipComma_suffix _)) hm
      exact List.forall_mem_cons.mpr ⟨h₁, h₂⟩
    · have h₁ := plainEntry_readFrom hw.tail hp
      have h₂ := entries_readFrom ts sort stop (skipComma rest) st st' more
        (hw.tail.suffix ((skipComma_suffix _).trans (plainEntry_suffix hp))) hm
      exact List.forall_mem_cons.mpr ⟨h₁, h₂⟩
termination_by 2 * sizeOf us
decreasing_by
  · have := (declaration_skipComma_within ‹_›).1
    omega
  · have := (declaration_skipComma_within ‹_›).2
    omega
  · have := plainEntry_skipComma_within ‹_› t
    omega

end

/-- The targets and child properties of a view were read from the token trees of the view. -/
theorem root_readFrom {ts : List Token} {st st' : Session} {v : View}
    (h : root ts st = .ok v st') : ∀ w ∈ v.widgets, w.ReadFrom ts := by
  obtain ⟨d, hd, hv⟩ := root_eq_ok h
  exact declared_readFrom ts d st st' v (within_declaration Within.whole hd).1 hv

end Parse

end WidgetView
