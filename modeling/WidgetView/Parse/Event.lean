import WidgetView.Parse.Value

/-!
# Events

Events: `signal(params) with model => target@effect`, where parameters, model and target may be left
out. The signal itself has been read when an event begins here.
-/
namespace WidgetView

/-- The two sorts of widgets, by the type that stands behind them. -/
inductive WidgetSort where
  | toolkit | composed
  deriving DecidableEq, Repr

/-- Parameters of an event that lists none: a toolkit signal has one that is ignored. -/
def WidgetSort.defaultParams : WidgetSort → List String
  | toolkit => ["_"]
  | composed => []

namespace Parse

def effect (stop : Nat × Nat) (ts : List Token) : Except ParseError (Effect × List Token) :=
  match ts with
  | .group .paren cs s :: rest =>
    match value s.position .message cs with
    | .error e => .error e
    | .ok (message, r) =>
      if (r.head?.map isComma).getD false then
        match value s.position .answer r.tail with
        | .error e => .error e
        | .ok (answer, _) => .ok (.paired message answer, rest)
      else .error (ParseError.expected s.position r .answerComma)
  | t :: rest =>
    if t.isIdentOf "return" then (value stop .returned rest).map fun r => (.callReturn r.1, r.2)
    else (value stop .effect (t :: rest)).map fun r => (.fire r.1, r.2)
  | [] => .error (ParseError.expected stop [] .effect)

/-- The parameter list in front of an event, or the parameters used without one. -/
def eventParams (sort : WidgetSort) (ts : List Token) :
    Except ParseError (List String × List Token) :=
  match ts with
  | .group .paren cs s :: rest => (params s.position cs).map fun names => (names, rest)
  | _ => .ok (sort.defaultParams, ts)

/-- `with model`, if it stands here. -/
def eventModel (ts : List Token) : Option String × List Token :=
  match ts with
  | t :: u :: rest =>
    match t.isIdentOf "with", u.ident? with
    | true, some model => (some model, rest)
    | _, _ => (none, ts)
  | _ => (none, ts)

/-- `target@`, if it stands here. -/
def eventTarget (ts : List Token) : Option Target × List Token :=
  match ts with
  | t :: u :: rest =>
    match t.ident?, u.isPunctOf "@" with
    | some name, true => (some ⟨name, t.span.line, t.span.column⟩, rest)
    | _, _ => (none, ts)
  | _ => (none, ts)

/-- The rest of an event whose signal stood at `place`. -/
def event (stop : Nat × Nat) (sort : WidgetSort) (signal : String) (place : Nat × Nat)
    (ts : List Token) : Except ParseError (Event × List Token) :=
  match eventParams sort ts with
  | .error e => .error e
  | .ok (names, r) =>
    match (eventModel r).2 with
    | [] => .error (ParseError.expected stop [] (.arrow signal))
    | t :: ts =>
      if t.isPunctOf "=>" then
        match effect stop (eventTarget ts).2 with
        | .error e => .error e
        | .ok (eff, rest) =>
          .ok (⟨names, (eventModel r).1, (eventTarget ts).1, eff, place.1, place.2⟩, rest)
      else .error (ParseError.expected stop (t :: ts) (.arrow signal))

theorem effect_suffix {stop : Nat × Nat} {ts rest : List Token} {eff : Effect}
    (h : effect stop ts = .ok (eff, rest)) : rest <:+ ts := by
  unfold effect at h
  split at h
  · split at h
    · simp at h
    · split at h
      · split at h
        · simp at h
        · simp only [Except.ok.injEq, Prod.mk.injEq] at h
          rw [← h.2]
          exact List.suffix_cons _ _
      · simp at h
  · next t r _ =>
    split at h
    · cases hv : value stop .returned r with
      | error e => simp [hv, Except.map] at h
      | ok v =>
        obtain ⟨e, r⟩ := v
        simp only [hv, Except.map, Except.ok.injEq, Prod.mk.injEq] at h
        rw [← h.2]
        exact (value_suffix hv).trans (List.suffix_cons _ _)
    · cases hv : value stop .effect (t :: r) with
      | error e => simp [hv, Except.map] at h
      | ok v =>
        obtain ⟨e, r⟩ := v
        simp only [hv, Except.map, Except.ok.injEq, Prod.mk.injEq] at h
        rw [← h.2]
        exact value_suffix hv
  · simp at h

theorem eventParams_suffix {sort : WidgetSort} {ts rest : List Token} {names : List String}
    (h : eventParams sort ts = .ok (names, rest)) : rest <:+ ts := by
  unfold eventParams at h
  split at h
  · next cs s r =>
    cases hp : params s.position cs with
    | error e => simp [hp, Except.map] at h
    | ok v =>
      simp only [hp, Except.map, Except.ok.injEq, Prod.mk.injEq] at h
      rw [← h.2]
      exact List.suffix_cons _ _
  · simp only [Except.ok.injEq, Prod.mk.injEq] at h
    exact h.2 ▸ List.suffix_rfl

theorem eventModel_suffix (ts : List Token) : (eventModel ts).2 <:+ ts := by
  unfold eventModel
  split
  · split
    · exact (List.suffix_cons _ _).trans (List.suffix_cons _ _)
    · exact List.suffix_rfl
  · exact List.suffix_rfl

theorem eventTarget_suffix (ts : List Token) : (eventTarget ts).2 <:+ ts := by
  unfold eventTarget
  split
  · split
    · exact (List.suffix_cons _ _).trans (List.suffix_cons _ _)
    · exact List.suffix_rfl
  · exact List.suffix_rfl

theorem event_suffix {stop : Nat × Nat} {sort : WidgetSort} {signal : String} {place : Nat × Nat}
    {ts rest : List Token} {e : Event} (h : event stop sort signal place ts = .ok (e, rest)) :
    rest <:+ ts := by
  unfold event at h
  split at h
  · simp at h
  · next names r hp =>
    have h₁ := eventParams_suffix hp
    have h₂ := eventModel_suffix r
    split at h
    · simp at h
    · next t r' hm =>
      split at h
      · split at h
        · simp at h
        · next eff rest' he =>
          simp only [Except.ok.injEq, Prod.mk.injEq] at h
          rw [← h.2]
          have h₃ := (effect_suffix he).trans (eventTarget_suffix r')
          have h₄ : r' <:+ (eventModel r).2 := by
            rw [hm]; exact List.suffix_cons _ _
          exact ((h₃.trans h₄).trans h₂).trans h₁
      · simp at h

end Parse

end WidgetView
