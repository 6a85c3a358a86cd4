import WidgetView.Proofs.Declarations

/-!
# Outcomes that agree

Outcomes that agree. Two readings agree if both fail, or if both give values that are related; steps
also leave sessions that are related. A step takes nothing but the names from its session: the
parents are noted there and never looked at.
-/
namespace WidgetView

/-- Two outcomes agree: both are errors, or both are values that are related. -/
inductive Agree {ε α β : Type} (R : α → β → Prop) : Except ε α → Except ε β → Prop where
  | error {e e' : ε} : Agree R (.error e) (.error e')
  | ok {a : α} {b : β} (h : R a b) : Agree R (.ok a) (.ok b)

namespace Agree

variable {ε α β α' β' : Type} {R : α → β → Prop} {S : α' → β' → Prop}

theorem refl (x : Except ε α) : Agree Eq x x := by
  cases x with
  | error e => exact .error
  | ok a => exact .ok rfl

/-- To show something of two outcomes that agree, show it of two errors and of two related
values. -/
@[elab_as_elim]
theorem elim {motive : Except ε α → Except ε β → Prop} {x : Except ε α} {y : Except ε β}
    (h : Agree R x y) (error : ∀ e e', motive (.error e) (.error e'))
    (ok : ∀ a b, R a b → motive (.ok a) (.ok b)) :
    motive x y := by
  cases h with
  | error => exact error _ _
  | ok h => exact ok _ _ h

/-- The same, with the outcomes at hand. -/
theorem cases {x : Except ε α} {y : Except ε β} (h : Agree R x y) :
    (∃ e e', x = .error e ∧ y = .error e') ∨ ∃ a b, x = .ok a ∧ y = .ok b ∧ R a b := by
  cases h with
  | error => exact .inl ⟨_, _, rfl, rfl⟩
  | ok h => exact .inr ⟨_, _, rfl, rfl, h⟩

theorem map {x : Except ε α} {y : Except ε β} (h : Agree R x y) {f : α → α'} {g : β → β'}
    (hfg : ∀ a b, R a b → S (f a) (g b)) : Agree S (x.map f) (y.map g) := by
  cases h with
  | error => exact .error
  | ok h => exact .ok (hfg _ _ h)

end Agree

namespace Parse

/-- Two results agree: both are errors, or both are values that are related. The sessions are
related either way. -/
inductive AgreeAt {α β : Type} (Q : Session → Session → Prop) (R : α → β → Prop) :
    EStateM.Result ParseError Session α → EStateM.Result ParseError Session β → Prop where
  | error {e e' : ParseError} {st st' : Session} (hst : Q st st') :
      AgreeAt Q R (.error e st) (.error e' st')
  | ok {a : α} {b : β} {st st' : Session} (hst : Q st st') (h : R a b) :
      AgreeAt Q R (.ok a st) (.ok b st')

/-- Two steps agree from any sessions that are related. -/
def Step.Agree {α β : Type} (Q : Session → Session → Prop) (R : α → β → Prop) (x : Step α)
    (y : Step β) : Prop :=
  ∀ st st', Q st st' → AgreeAt Q R (x st) (y st')

namespace Step

variable {α β α' β' : Type} {Q : Session → Session → Prop} {R : α → β → Prop} {S : α' → β' → Prop}

theorem agree_throw (e e' : ParseError) : Step.Agree Q R (throw e : Step α) (throw e' : Step β) :=
  fun _ _ hst => .error hst

theorem agree_pure {a : α} {b : β} (h : R a b) : Step.Agree Q R (pure a) (pure b) :=
  fun _ _ hst => .ok hst h

theorem agree_refl (x : Step α) : Step.Agree Eq Eq x x := by
  rintro st _ rfl
  cases x st with
  | error e st => exact .error rfl
  | ok a st => exact .ok rfl rfl

theorem agree_ofExcept {x : Except ParseError α} {y : Except ParseError β}
    (h : WidgetView.Agree R x y) : Step.Agree Q R (ofExcept x) (ofExcept y) := by
  cases h with
  | error => exact agree_throw _ _
  | ok h => exact agree_pure h

/-- Steps agree one after another. -/
theorem Agree.bind {x : Step α} {y : Step β} {f : α → Step α'} {g : β → Step β'}
    (h : Step.Agree Q R x y) (hfg : ∀ a b, R a b → Step.Agree Q S (f a) (g b)) :
    Step.Agree Q S (x >>= f) (y >>= g) := by
  intro st st' hst
  have hxy := h st st' hst
  simp only [Bind.bind, EStateM.bind]
  generalize x st = r, y st' = r' at hxy
  cases hxy with
  | error hst => exact .error hst
  | ok hst h => exact hfg _ _ h _ _ hst

end Step

/-! ### Names and parents -/

def SameNames (st st' : Session) : Prop := st.names = st'.names

theorem drawName_sameNames (path : WidgetPath) :
    Step.Agree SameNames Eq (drawName path) (drawName path) := by
  intro st st' hst
  rw [drawName_eq, drawName_eq, hst]
  exact .ok rfl rfl

theorem noteParent_sameNames (w : Widget) :
    Step.Agree SameNames Eq (noteParent w) (noteParent w) := by
  intro st st' hst
  have hnote : ∀ st₀ : Session, ∃ st₁, noteParent w st₀ = .ok () st₁ ∧ st₁.names = st₀.names :=
    fun st₀ =>
    ⟨_, rfl, noteParent_eq_ok rfl⟩
  obtain ⟨st₁, h, hnames⟩ := hnote st
  obtain ⟨st₁', h', hnames'⟩ := hnote st'
  rw [h, h']
  exact .ok (hnames.trans (hst.trans hnames'.symm)) rfl

mutual

/-- Of its session a declaration reads the names only. -/
theorem declared_sameNames (d : Declaration) :
    Step.Agree SameNames Eq (declared d) (declared d) := by
  rw [declared]
  refine (drawName_sameNames d.path).bind ?_
  rintro name _ rfl
  refine (Step.agree_ofExcept (.refl d.shell)).bind ?_
  rintro sh _ rfl
  refine (entries_sameNames d.path.sort sh.bodyStop d.body).bind ?_
  rintro found _ rfl
  refine (noteParent_sameNames _).bind fun _ _ _ => ?_
  exact Step.agree_pure rfl
termination_by 2 * sizeOf d.body + 1

theorem entries_sameNames (sort : WidgetSort) (stop : Nat × Nat) (ts : List Token) :
    Step.Agree SameNames Eq (entries sort stop ts) (entries sort stop ts) := by
  cases ts with
  | nil =>
    rw [entries]
    exact Step.agree_pure rfl
  | cons t ts =>
    cases hc : startsChild sort (t :: ts) with
    | true =>
      rw [entries_child hc]
      cases hd : declaration stop (t :: ts) with
      | error e => exact Step.agree_throw _ _
      | ok d =>
        refine (declared_sameNames d).bind ?_
        rintro v _ rfl
        refine (entries_sameNames sort stop (skipComma d.rest)).bind ?_
        rintro more _ rfl
        exact Step.agree_pure rfl
    | false =>
      rw [entries_plain hc]
      cases ht : t.ident? with
      | none => exact Step.agree_throw _ _
      | some name =>
        dsimp only
        cases hp : plainEntry stop sort name t.span.position ts with
        | error e => exact Step.agree_throw _ _
        | ok r =>
          refine (entries_sameNames sort stop (skipComma r.2)).bind ?_
          rintro more _ rfl
          exact Step.agree_pure rfl
termination_by 2 * sizeOf ts
decreasing_by
  · have := plainEntry_skipComma_within hp t
    omega
  · have := (declaration_skipComma_within hd).1
    omega
  · have := (declaration_skipComma_within hd).2
    omega

end

end Parse

end WidgetView
