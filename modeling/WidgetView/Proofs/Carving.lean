import WidgetView.Proofs.Descent

/-!
# How expressions are carved

The expressions of a view are carved out of its tokens. Whatever is read of a run of tokens passes
each token over, or opens it if it is a group, or takes it for an expression that reaches up to the
next comma or to the end. A widget keeps some of the expressions that were carved for it, and each
of them once.
-/
namespace WidgetView

/-! ### The expressions of a view -/

def Table.values {κ α : Type} (t : Table κ α) : List α := t.entries.map Prod.snd

theorem Table.mem_values_iff {κ α : Type} {t : Table κ α} {a : α} :
    a ∈ t.values ↔ ∃ key, (key, a) ∈ t.entries := by
  simp [values]

/-- The expressions of a widget: its parameters, its properties, and what its events send and
answer. -/
def Widget.exprs (w : Widget) : List Expr :=
  w.init ++ w.properties.values ++ w.childProperties.values ++
    w.events.flatMap fun h => h.2.effect.exprs

/-- The expressions of all widgets of a view. -/
def View.exprs (v : View) : List Expr := v.widgets.flatMap Widget.exprs

/-- What an entry adds to the expressions of its widget. -/
def Entry.exprs : Entry → List Expr
  | child v => View.exprs v
  | property _ e => [e]
  | childProperties es => es.map Prod.snd
  | event _ e => e.effect.exprs

/-! ### Carving -/

/-- Expressions that are carved out of a run of tokens, in order. -/
inductive Carved : List Token → List Expr → Prop where
  | nil : Carved [] []
  | skip {t : Token} {ts : List Token} {es : List Expr} (h : Carved ts es) : Carved (t :: ts) es
  | inside {d : Delimiter} {cs ts : List Token} {s : Span} {es es' : List Expr} (hin : Carved cs es)
      (h : Carved ts es') : Carved (.group d cs s :: ts) (es ++ es')
  | expr {e : Expr} {rest : List Token} {es : List Expr} (hno : ∀ t ∈ e.tokens, ¬t.isPunctOf ",")
      (hends : Grammar.Ends rest) (h : Carved rest es) : Carved (e.tokens ++ rest) (e :: es)

theorem Carved.none (ts : List Token) : Carved ts [] := by
  induction ts with
  | nil => exact .nil
  | cons t ts ih => exact .skip ih

/-- Expressions are carved out of the front of a run, up to `rest`. -/
def Takes (ts rest : List Token) (es : List Expr) : Prop :=
  ∀ more, Carved rest more → Carved ts (es ++ more)

namespace Takes

variable {ts us rest : List Token} {es es' : List Expr}

theorem carved (h : Takes ts rest es) : Carved ts es := by
  have hcarved := h [] (.none rest)
  rwa [List.append_nil] at hcarved

theorem trans (h : Takes ts us es) (h' : Takes us rest es') : Takes ts rest (es ++ es') := by
  intro more hmore
  rw [List.append_assoc]
  exact h _ (h' more hmore)

theorem of_suffix (h : rest <:+ ts) : Takes ts rest [] := by
  obtain ⟨front, rfl⟩ := h
  intro more hmore
  induction front with
  | nil => exact hmore
  | cons t front ih => exact .skip ih

/-- Tokens before an expression are passed over. -/
theorem after (hs : us <:+ ts) (h : Takes us rest es) : Takes ts rest es := (of_suffix hs).trans h

/-- Tokens behind an expression are passed over. -/
theorem before (h : Takes ts us es) (hs : rest <:+ us) : Takes ts rest es := by
  have htrans := h.trans (of_suffix hs)
  rwa [List.append_nil] at htrans

theorem group {d : Delimiter} {cs : List Token} {s : Span} (h : Carved cs es) :
    Takes (.group d cs s :: rest) rest es :=
  fun _ hmore => .inside h hmore

end Takes

namespace Parse

variable {stop : Nat × Nat} {ts rest : List Token}

/-! ### What reading carves -/

theorem value_takes {wanted : Wanted} {e : Expr} (h : value stop wanted ts = .ok (e, rest)) :
    Takes ts rest [e] := by
  have hends := ends_of_expression (value_accepts.mp ⟨e, h⟩)
  unfold value at h
  split at h
  · cases h
  · next t more htake =>
    obtain ⟨rfl, rfl⟩ := Prod.mk.inj (Except.ok.inj h)
    intro es hes
    have hno : ∀ u ∈ (⟨t, more⟩ : Expr).tokens, ¬u.isPunctOf "," := by
      intro u hu
      rw [Expr.tokens, ← htake] at hu
      simpa [isComma] using List.mem_takeWhile_imp hu
    have hcarved := Carved.expr hno hends hes
    rwa [Expr.tokens, ← htake, List.takeWhile_append_dropWhile] at hcarved

theorem exprs_carved {es : List Expr} (h : exprs stop ts = .ok es) : Carved ts es := by
  fun_induction exprs stop ts generalizing es with
  | case1 =>
    obtain rfl := Except.ok.inj h
    exact .none _
  | case2 => cases h
  | case3 => cases h
  | case4 ts _ e rest hv es' hes ih =>
    obtain rfl := Except.ok.inj h
    exact (value_takes hv).before (skipComma_suffix rest) _ (ih hes)

theorem childProperties_carved {es : List (String × Expr)} (h : childProperties stop ts = .ok es) :
    Carved ts (es.map Prod.snd) := by
  fun_induction childProperties stop ts generalizing es with
  | case1 =>
    obtain rfl := Except.ok.inj h
    exact .nil
  | case2 => cases h
  | case3 => cases h
  | case4 => cases h
  | case5 => cases h
  | case6 t name u us ht hu e rest hv es' hes ih =>
    obtain rfl := Except.ok.inj h
    exact .skip (.skip ((value_takes hv).before (skipComma_suffix rest) _ (ih hes)))
  | case7 => cases h

theorem initParams_takes {es : List Expr} (h : initParams ts = .ok (es, rest)) :
    Takes ts rest es := by
  unfold initParams at h
  split at h
  · next cs s us =>
    obtain ⟨es', he, heq⟩ := map_eq_ok h
    obtain ⟨rfl, rfl⟩ := Prod.mk.inj heq
    exact .group (exprs_carved he)
  · obtain ⟨rfl, rfl⟩ := Prod.mk.inj (Except.ok.inj h)
    exact .of_suffix List.suffix_rfl

theorem map_value_takes {α : Type} {wanted : Wanted} {f : Expr → α} {a : α}
    (h : (value stop wanted ts).map (fun r => (f r.1, r.2)) = .ok (a, rest)) :
    ∃ e, a = f e ∧ Takes ts rest [e] := by
  obtain ⟨r, hv, heq⟩ := map_eq_ok h
  obtain ⟨rfl, rfl⟩ := Prod.mk.inj heq
  exact ⟨r.1, rfl, value_takes hv⟩

theorem effect_takes {eff : Effect} (h : effect stop ts = .ok (eff, rest)) :
    Takes ts rest eff.exprs := by
  cases ts with
  | nil => cases h
  | cons t ts =>
    by_cases hgroup : t.isGroupOf .paren
    · obtain ⟨cs, s, rfl⟩ := Token.isGroupOf_eq_true hgroup
      rw [effect] at h
      split at h
      · cases h
      · next message r hmessage =>
        split at h
        · split at h
          · cases h
          · next answer left hanswer =>
            obtain ⟨rfl, rfl⟩ := Prod.mk.inj (Except.ok.inj h)
            have hboth :=
              (value_takes hmessage).trans ((value_takes hanswer).after (List.tail_suffix r))
            exact .group hboth.carved
        · cases h
    · rw [effect_cons hgroup] at h
      split at h
      · obtain ⟨e, rfl, he⟩ := map_value_takes h
        exact he.after (List.suffix_cons t ts)
      · obtain ⟨e, rfl, he⟩ := map_value_takes h
        exact he

theorem event_takes {sort : WidgetSort} {signal : String} {place : Nat × Nat} {e : Event}
    (h : event stop sort signal place ts = .ok (e, rest)) : Takes ts rest e.effect.exprs := by
  unfold event at h
  split at h
  · cases h
  · next names r hp =>
    split at h
    · cases h
    · next t us hm =>
      split at h
      · split at h
        · cases h
        · next eff left heff =>
          obtain ⟨rfl, rfl⟩ := Prod.mk.inj (Except.ok.inj h)
          have hmodel : us <:+ r := by
            have hcons : t :: us <:+ r := hm ▸ eventModel_suffix r
            exact (List.suffix_cons t us).trans hcons
          exact (effect_takes heff).after
            ((eventTarget_suffix us).trans (hmodel.trans (eventParams_suffix hp)))
      · cases h

theorem plainEntry_takes {sort : WidgetSort} {name : String} {place : Nat × Nat} {e : Entry}
    (h : plainEntry stop sort name place ts = .ok (e, rest)) : Takes ts rest e.exprs := by
  unfold plainEntry at h
  split at h
  · cases h
  · next t r =>
    split at h
    · split at h
      · next cs s us =>
        obtain ⟨es, hc, heq⟩ := map_eq_ok h
        obtain ⟨rfl, rfl⟩ := Prod.mk.inj heq
        exact (Takes.group (childProperties_carved hc)).after (List.suffix_cons t _)
      · obtain ⟨e, rfl, he⟩ := map_value_takes h
        exact he.after (List.suffix_cons t r)
    · split at h
      · obtain ⟨v, he, heq⟩ := map_eq_ok h
        obtain ⟨rfl, rfl⟩ := Prod.mk.inj heq
        exact event_takes he
      · cases h

theorem shell_takes {path : WidgetPath} {sh : Shell} {es : List Expr}
    (h : shell path stop ts = .ok sh) (hbody : Carved sh.body es) :
    Takes ts sh.rest (sh.init ++ es) := by
  unfold shell at h
  split at h
  · cases h
  · next init r hinit =>
    split at h
    · next cs s us =>
      obtain rfl := Except.ok.inj h
      exact (initParams_takes hinit).trans (.group hbody)
    · split at h
      · cases h
      · obtain rfl := Except.ok.inj h
        cases hbody with
        | nil =>
          rw [List.append_nil]
          exact initParams_takes hinit

theorem declaration_takes {d : Declaration} {sh : Shell} {es : List Expr}
    (hd : declaration stop ts = .ok d) (hs : d.shell = .ok sh) (hbody : Carved sh.body es) :
    Takes ts sh.rest (sh.init ++ es) := by
  unfold declaration at hd
  split at hd
  · cases hd
  · next found r hattrs =>
    split at hd
    · cases hd
    · next path n hscan =>
      obtain rfl := Except.ok.inj hd
      exact (shell_takes hs hbody).after ((List.drop_suffix n r).trans (attributes_suffix hattrs))

end Parse

/-! ### What a widget keeps -/

/-- What stood under the key before an insertion is what the table loses by it. -/
theorem Table.flatMap_place {κ α β : Type} [DecidableEq κ] (g : α → List β) (k : κ) (v : α)
    (l : List (κ × α)) :
    (((place k v l).flatMap fun e => g e.2 : List β) : Multiset β) +
      ((lookup k l).elim [] g : List β) =
      (g v : Multiset β) + (l.flatMap fun e => g e.2 : List β) := by
  induction l with
  | nil => simp [place]
  | cons e l ih =>
    simp only [place, lookup]
    split
    · simp only [List.flatMap_cons, ← Multiset.coe_add, Option.elim_some]
      ac_rfl
    · simp only [List.flatMap_cons, ← Multiset.coe_add] at ih ⊢
      rw [add_assoc, ih]
      ac_rfl

/-- An insertion adds the new value at most. -/
theorem Table.flatMap_place_le {κ α β : Type} [DecidableEq κ] (g : α → List β) (k : κ) (v : α)
    (l : List (κ × α)) :
    (((place k v l).flatMap fun e => g e.2 : List β) : Multiset β) ≤
      (g v : Multiset β) + (l.flatMap fun e => g e.2 : List β) := by
  rw [← flatMap_place g k v l]
  exact Multiset.le_add_right _ _

namespace WidgetKind

/-- The expressions of the events of a widget. -/
def exprs (kind : WidgetKind) : List Expr := kind.handlers.flatMap fun h => h.2.effect.exprs

theorem exprs_toolkit (events : Table String Event) (save : Bool) :
    (toolkit events save).exprs = events.entries.flatMap fun e => e.2.effect.exprs := rfl

theorem exprs_composed (events : Table String (List Event)) :
    (composed events).exprs =
      events.entries.flatMap fun e => e.2.flatMap fun e => e.effect.exprs := by
  simp only [exprs, handlers, List.flatMap_assoc, List.flatMap_map]

end WidgetKind

namespace Body

/-- The expressions that the entries of a body have added up to. -/
def exprs (b : Body) : Multiset Expr :=
  (b.kind.exprs : Multiset Expr) + (b.properties.values : List Expr) +
    (b.childProperties.values : List Expr) +
    ((Tree.forestToList b.children).flatMap Widget.exprs : List Expr)

theorem exprs_addEvent_le (kind : WidgetKind) (signal : String) (e : Event) :
    ((addEvent kind signal e).exprs : Multiset Expr) ≤ kind.exprs +
      (e.effect.exprs : Multiset Expr) := by
  cases kind with
  | toolkit events save =>
    rw [addEvent, WidgetKind.exprs_toolkit, WidgetKind.exprs_toolkit, add_comm]
    exact Table.flatMap_place_le (fun e : Event => e.effect.exprs) signal e events.entries
  | composed events =>
    rw [addEvent, WidgetKind.exprs_composed, WidgetKind.exprs_composed, Table.update, Table.insert]
    have hplace :=
      Table.flatMap_place (fun es : List Event => es.flatMap fun e => e.effect.exprs) signal
      ((events.get? signal).getD [] ++ [e]) events.entries
    -- the handlers from before are written back with the new one
    cases hold : Table.lookup signal events.entries with
    | none =>
      rw [Table.get?, hold] at hplace ⊢
      simp only [Option.getD_none, List.nil_append, List.flatMap_singleton, Option.elim_none,
        Multiset.coe_nil, add_zero] at hplace ⊢
      rw [hplace, add_comm]
    | some es =>
      rw [Table.get?, hold] at hplace ⊢
      simp only [Option.getD_some, Option.elim_some, List.flatMap_append, List.flatMap_singleton,
        ← Multiset.coe_add] at hplace ⊢
      refine le_of_eq (add_right_cancel (hplace.trans ?_))
      ac_rfl

theorem values_insert_le (t : Table String Expr) (name : String) (e : Expr) :
    ((t.insert name e).values : Multiset Expr) ≤ t.values + ([e] : List Expr) := by
  have hplace := Table.flatMap_place_le (fun e : Expr => [e]) name e t.entries
  simp only [← List.map_eq_flatMap] at hplace
  rw [add_comm]
  exact hplace

theorem values_insertAll_le (t : Table String Expr) (es : List (String × Expr)) :
    ((t.insertAll es).values : Multiset Expr) ≤ t.values + (es.map Prod.snd : List Expr) := by
  induction es generalizing t with
  | nil => simp [Table.insertAll]
  | cons e es ih =>
    calc ((t.insertAll (e :: es)).values : Multiset Expr)
        ≤ (t.insert e.1 e.2).values + (es.map Prod.snd : List Expr) := ih (t.insert e.1 e.2)
      _ ≤ t.values + ([e.2] : List Expr) + (es.map Prod.snd : List Expr) :=
          add_le_add_left (values_insert_le t e.1 e.2) _
      _ = t.values + ((e :: es).map Prod.snd : List Expr) := by
          rw [add_assoc, Multiset.coe_add, List.singleton_append, List.map_cons]

theorem exprs_add_le (b : Body) (e : Entry) :
    (b.add e).exprs ≤ b.exprs + (e.exprs : Multiset Expr) := by
  cases e with
  | child v =>
    simp only [add, exprs, Entry.exprs, View.exprs, View.widgets, Tree.forestToList_append,
      Tree.forestToList_cons, Tree.forestToList_nil, List.append_nil, List.flatMap_append,
      ← Multiset.coe_add, add_assoc, le_refl]
  | property name e =>
    have hinsert := values_insert_le b.properties name e
    simp only [add, exprs, Entry.exprs]
    calc _ ≤ (b.kind.exprs : Multiset Expr) + (b.properties.values + ([e] : List Expr)) +
            b.childProperties.values + _ := by gcongr
      _ = _ := by ac_rfl
  | childProperties es =>
    have hinsert := values_insertAll_le b.childProperties es
    simp only [add, exprs, Entry.exprs]
    calc _ ≤ (b.kind.exprs : Multiset Expr) + b.properties.values +
            (b.childProperties.values + (es.map Prod.snd : List Expr)) + _ := by gcongr
      _ = _ := by ac_rfl
  | event signal e =>
    have hadd := exprs_addEvent_le b.kind signal e
    simp only [add, exprs, Entry.exprs]
    calc _ ≤ (b.kind.exprs : Multiset Expr) + (e.effect.exprs : Multiset Expr) +
            b.properties.values + b.childProperties.values + _ := by gcongr
      _ = _ := by ac_rfl

theorem exprs_addAll_le (b : Body) (es : List Entry) :
    (b.addAll es).exprs ≤ b.exprs + (es.flatMap Entry.exprs : List Expr) := by
  induction es generalizing b with
  | nil => simp
  | cons e es ih =>
    calc (b.addAll (e :: es)).exprs
        ≤ (b.add e).exprs + (es.flatMap Entry.exprs : List Expr) := ih (b.add e)
      _ ≤ b.exprs + (e.exprs : Multiset Expr) + (es.flatMap Entry.exprs : List Expr) :=
          add_le_add_left (exprs_add_le b e) _
      _ = b.exprs + ((e :: es).flatMap Entry.exprs : List Expr) := by
          rw [List.flatMap_cons, ← Multiset.coe_add, add_assoc]

theorem exprs_start (sort : WidgetSort) (save : Bool) : (start sort save).exprs = 0 := by
  cases sort <;> rfl

end Body

namespace Parse

/-- The widgets of a declaration keep of the expressions read for them. -/
theorem exprs_view_le (d : Declaration) (generated : String) (init : List Expr) (es : List Entry) :
    ((d.view generated init es).exprs : Multiset Expr) ≤
      (init ++ es.flatMap Entry.exprs : List Expr) := by
  have hbody := Body.exprs_addAll_le (Body.start d.path.sort (d.valueOf "name").isSome) es
  rw [Body.exprs_start, zero_add] at hbody
  calc ((d.view generated init es).exprs : Multiset Expr)
      = init + ((Body.start d.path.sort (d.valueOf "name").isSome).addAll es).exprs := by
        simp only [View.exprs, View.widgets, Declaration.view, Tree.toList_node, List.flatMap_cons,
          Widget.exprs, Widget.events_eq, Body.exprs, WidgetKind.exprs, ← Multiset.coe_add]
        ac_rfl
    _ ≤ init + (es.flatMap Entry.exprs : List Expr) := add_le_add_right hbody _
    _ = (init ++ es.flatMap Entry.exprs : List Expr) := rfl

/-- Of what was carved out of its tokens, a view keeps each expression once at most. -/
theorem root_carved {ts : List Token} {st st' : Session} {v : View} (h : root ts st = .ok v st') :
    ∃ es, Carved ts es ∧ (v.exprs : Multiset Expr) ≤ es := by
  have hdescends : Descends fun ts found =>
      ∃ es, Carved ts es ∧ ((found.flatMap Entry.exprs : List Expr) : Multiset Expr) ≤ es := by
    refine ⟨⟨[], .nil, le_refl _⟩, ?_, ?_⟩
    · rintro stop ts d sh generated found more hd hs ⟨es, hes, hle⟩ ⟨es', hes', hle'⟩
      have htakes := (declaration_takes hd hs hes).before (skipComma_suffix sh.rest)
      refine ⟨_, htakes _ hes', ?_⟩
      rw [List.flatMap_cons, ← Multiset.coe_add, ← Multiset.coe_add]
      refine add_le_add ((exprs_view_le d generated sh.init found).trans ?_) hle'
      rw [← Multiset.coe_add, ← Multiset.coe_add]
      exact add_le_add_right hle _
    · rintro stop sort t ts rest name e more - he ⟨es, hes, hle⟩
      have htakes := (plainEntry_takes he).before (skipComma_suffix rest)
      refine ⟨_, .skip (htakes _ hes), ?_⟩
      rw [List.flatMap_cons, ← Multiset.coe_add, ← Multiset.coe_add]
      exact add_le_add_right hle _
  obtain ⟨es, hes, hle⟩ := hdescends.root h
  rw [List.flatMap_singleton] at hle
  exact ⟨es, hes, hle⟩

end Parse

end WidgetView
