import Mathlib
import WidgetView.Parse.Widget

/-!
# The declarations behind a view

The declarations behind a view. They form a tree that depends on the tokens only, and names are
drawn for them in the order of that tree. A view that is read is the tree of its declarations,
widget by widget.
-/
namespace WidgetView

open Parse

namespace Entry

def child? : Entry → Option View
  | child v => some v
  | _ => none

end Entry

namespace Body

theorem children_add (b : Body) (e : Entry) :
    (b.add e).children = b.children ++ e.child?.toList := by
  cases e <;> simp [add, Entry.child?]

theorem children_addAll (b : Body) (es : List Entry) :
    (b.addAll es).children = b.children ++ es.filterMap Entry.child? := by
  induction es generalizing b with
  | nil => simp
  | cons e es ih =>
    rw [addAll_cons, ih, children_add]
    cases he : e.child? <;> simp [he]

@[simp] theorem children_start (sort : WidgetSort) (save : Bool) :
    (start sort save).children = [] := by
  cases sort <;> rfl

end Body

namespace Parse

@[simp] theorem Declaration.children_view (d : Declaration) (g : String) (init : List Expr)
    (es : List Entry) : (d.view g init es).children = es.filterMap Entry.child? := by
  simp [Declaration.view, Tree.children, Body.children_addAll]

theorem map_eq_ok {α β : Type} {x : Except ParseError α} {f : α → β} {b : β} (h : x.map f = .ok b) :
    ∃ a, x = .ok a ∧ f a = b := by
  cases x with
  | error e => cases h
  | ok a => exact ⟨a, rfl, Except.ok.inj h⟩

theorem map_eq_error {α β : Type} {x : Except ParseError α} {f : α → β} {e : ParseError}
    (h : x.map f = .error e) : x = .error e := by
  cases x with
  | error e' => exact congrArg Except.error (Except.error.inj h)
  | ok a => cases h

/-- An entry that starts with a plain name is no child. -/
theorem plainEntry_child? {stop place : Nat × Nat} {sort : WidgetSort} {name : String}
    {ts rest : List Token} {e : Entry}
    (h : plainEntry stop sort name place ts = .ok (e, rest)) : e.child? = none := by
  unfold plainEntry at h
  split at h
  · simp at h
  · next t r =>
    split at h
    · split at h
      · next cs s r' =>
        obtain ⟨es, -, heq⟩ := map_eq_ok h
        obtain ⟨rfl, -⟩ := Prod.mk.inj heq
        rfl
      · obtain ⟨v, -, heq⟩ := map_eq_ok h
        obtain ⟨rfl, -⟩ := Prod.mk.inj heq
        rfl
    · split at h
      · obtain ⟨v, -, heq⟩ := map_eq_ok h
        obtain ⟨rfl, -⟩ := Prod.mk.inj heq
        rfl
      · simp at h

theorem Step.bind_eq_ok {α β : Type} {x : Step α} {f : α → Step β} {st st' : Session} {b : β} :
    (x >>= f) st = .ok b st' ↔ ∃ a st₁, x st = .ok a st₁ ∧ f a st₁ = .ok b st' := by
  simp only [bind, EStateM.bind]
  cases h : x st <;> simp

theorem Step.pure_eq_ok {α : Type} {a b : α} {st st' : Session} :
    (pure a : Step α) st = .ok b st' ↔ a = b ∧ st = st' := by
  simp [pure, EStateM.pure]

theorem Step.throw_eq_ok {α : Type} {e : ParseError} {b : α} {st st' : Session} :
    ¬ (throw e : Step α) st = .ok b st' := by
  simp [throw, throwThe, MonadExceptOf.throw, EStateM.throw]

theorem Step.ofExcept_eq_ok {α : Type} {x : Except ParseError α} {a : α} {st st' : Session} :
    Step.ofExcept x st = .ok a st' ↔ x = .ok a ∧ st = st' := by
  cases x with
  | error e => simp [Step.ofExcept, Step.throw_eq_ok]
  | ok b => simp [Step.ofExcept, Step.pure_eq_ok]

theorem drawName_eq (path : WidgetPath) (st : Session) :
    drawName path st = .ok (st.names.next path).1 { st with names := (st.names.next path).2 } := rfl

theorem noteParent_eq_ok {w : Widget} {st st' : Session} {u : Unit}
    (h : noteParent w st = .ok u st') : st'.names = st.names := by
  simp only [noteParent, modify, modifyGet, MonadStateOf.modifyGet, EStateM.modifyGet,
    EStateM.Result.ok.injEq] at h
  rw [← h.2]
  cases w.parent <;> rfl

/-- What reading a declaration takes: a name is drawn, the shell and the entries are read, and the
parent that is asked for is noted. -/
theorem declared_steps {d : Declaration} {st st' : Session} {v : View}
    (h : declared d st = .ok v st') :
    ∃ shell found st₁, d.shell = .ok shell ∧
      entries d.path.sort shell.bodyStop d.body { st with names := (st.names.next d.path).2 } =
        .ok found st₁ ∧
      v = d.view (st.names.next d.path).1 shell.init found ∧
        noteParent v.value st₁ = .ok () st' := by
  rw [declared] at h
  obtain ⟨name, st₀, hn, h⟩ := Step.bind_eq_ok.mp h
  rw [drawName_eq] at hn
  obtain ⟨rfl, rfl⟩ := EStateM.Result.ok.inj hn
  obtain ⟨shell, st₂, hs, h⟩ := Step.bind_eq_ok.mp h
  obtain ⟨hshell, rfl⟩ := Step.ofExcept_eq_ok.mp hs
  obtain ⟨found, st₁, hf, h⟩ := Step.bind_eq_ok.mp h
  obtain ⟨u, st₃, hp, h⟩ := Step.bind_eq_ok.mp h
  obtain ⟨rfl, rfl⟩ := Step.pure_eq_ok.mp h
  exact ⟨shell, found, st₁, hshell, hf, rfl, hp⟩

theorem declared_eq_ok {d : Declaration} {st st' : Session} {v : View}
    (h : declared d st = .ok v st') :
    ∃ shell found st₁, d.shell = .ok shell ∧
      entries d.path.sort shell.bodyStop d.body { st with names := (st.names.next d.path).2 } =
        .ok found st₁ ∧
      v = d.view (st.names.next d.path).1 shell.init found ∧ st'.names = st₁.names := by
  obtain ⟨shell, found, st₁, hs, hf, hv, hp⟩ := declared_steps h
  exact ⟨shell, found, st₁, hs, hf, hv, noteParent_eq_ok hp⟩

theorem entries_child {sort : WidgetSort} {stop : Nat × Nat} {t : Token} {ts : List Token}
    (hc : startsChild sort (t :: ts) = true) :
    entries sort stop (t :: ts) =
      match declaration stop (t :: ts) with
      | .error e => throw e
      | .ok d => do
        let view ← declared d
        let more ← entries sort stop (skipComma d.rest)
        return .child view :: more := by
  rw [entries, if_pos hc]
  split <;> simp_all only

theorem entries_plain {sort : WidgetSort} {stop : Nat × Nat} {t : Token} {ts : List Token}
    (hc : startsChild sort (t :: ts) = false) :
    entries sort stop (t :: ts) =
      match t.ident? with
      | none => throw (ParseError.expected stop (t :: ts) .identifier)
      | some name =>
        match plainEntry stop sort name t.span.position ts with
        | .error e => throw e
        | .ok (entry, rest) => do
          let more ← entries sort stop (skipComma rest)
          return entry :: more := by
  rw [entries, if_neg (by simp [hc])]
  cases t.ident? with
  | none => rfl
  | some name =>
    dsimp only
    split <;> simp_all only

/-- What reading a body takes, by its first entry. -/
theorem entries_cons_eq_ok {sort : WidgetSort} {stop : Nat × Nat} {t : Token} {ts : List Token}
    {st st' : Session} {found : List Entry}
    (h : entries sort stop (t :: ts) st = .ok found st') :
    (startsChild sort (t :: ts) = true ∧ ∃ d v st₁ more, declaration stop (t :: ts) = .ok d ∧
      declared d st = .ok v st₁ ∧ entries sort stop (skipComma d.rest) st₁ = .ok more st' ∧
      found = .child v :: more) ∨
    (startsChild sort (t :: ts) = false ∧ ∃ name entry rest more, t.ident? = some name ∧
      plainEntry stop sort name t.span.position ts = .ok (entry, rest) ∧
      entries sort stop (skipComma rest) st = .ok more st' ∧ found = entry :: more) := by
  cases hc : startsChild sort (t :: ts) with
  | true =>
    left
    rw [entries_child hc] at h
    cases hd : declaration stop (t :: ts) with
    | error e => exact absurd (by simpa only [hd] using h) Step.throw_eq_ok
    | ok d =>
      rw [hd] at h
      obtain ⟨v, st₁, hv, h⟩ := Step.bind_eq_ok.mp h
      obtain ⟨more, st₂, hm, h⟩ := Step.bind_eq_ok.mp h
      obtain ⟨rfl, rfl⟩ := Step.pure_eq_ok.mp h
      exact ⟨rfl, d, v, st₁, more, rfl, hv, hm, rfl⟩
  | false =>
    right
    rw [entries_plain hc] at h
    cases hi : t.ident? with
    | none => exact absurd (by simpa only [hi] using h) Step.throw_eq_ok
    | some name =>
      rw [hi] at h
      dsimp only at h
      cases hp : plainEntry stop sort name t.span.position ts with
      | error e => exact absurd (by simpa only [hp] using h) Step.throw_eq_ok
      | ok r =>
        obtain ⟨entry, rest⟩ := r
        rw [hp] at h
        obtain ⟨more, st₂, hm, h⟩ := Step.bind_eq_ok.mp h
        obtain ⟨rfl, rfl⟩ := Step.pure_eq_ok.mp h
        exact ⟨rfl, name, entry, rest, more, rfl, hp, hm, rfl⟩

/-- The end of the body of a declaration, where its shell has one. -/
def Declaration.bodyStop (d : Declaration) : Nat × Nat :=
  match d.shell with
  | .ok s => s.bodyStop
  | .error _ => (0, 0)

mutual

/-- A declaration with the declarations in its body. -/
def declarationTree (d : Declaration) : Tree Declaration :=
  .node d (nested d.path.sort d.bodyStop d.body)
termination_by 2 * sizeOf d.body + 1

/-- The declarations in a body, as far as it can be read. -/
def nested (sort : WidgetSort) (stop : Nat × Nat) (ts : List Token) : List (Tree Declaration) :=
  match ts with
  | [] => []
  | t :: ts =>
    if startsChild sort (t :: ts) then
      match _h : declaration stop (t :: ts) with
      | .error _ => []
      | .ok d => declarationTree d :: nested sort stop (skipComma d.rest)
    else
      match t.ident? with
      | none => []
      | some name =>
        match _h : plainEntry stop sort name t.span.position ts with
        | .error _ => []
        | .ok (_, rest) => nested sort stop (skipComma rest)
termination_by 2 * sizeOf ts
decreasing_by
  · have := (declaration_skipComma_within ‹_›).1
    omega
  · have := (declaration_skipComma_within ‹_›).2
    omega
  · have := plainEntry_skipComma_within ‹_› t
    omega

end

theorem nested_child {sort : WidgetSort} {stop : Nat × Nat} {t : Token} {ts : List Token}
    {d : Declaration} (hc : startsChild sort (t :: ts) = true)
    (hd : declaration stop (t :: ts) = .ok d) :
    nested sort stop (t :: ts) = declarationTree d :: nested sort stop (skipComma d.rest) := by
  rw [nested, if_pos hc]
  split
  · next h => rw [hd] at h; cases h
  · next d' h => rw [hd] at h; cases h; rfl

theorem nested_plain {sort : WidgetSort} {stop : Nat × Nat} {t : Token} {ts rest : List Token}
    {name : String} {e : Entry} (hc : startsChild sort (t :: ts) = false)
    (hi : t.ident? = some name)
    (hp : plainEntry stop sort name t.span.position ts = .ok (e, rest)) :
    nested sort stop (t :: ts) = nested sort stop (skipComma rest) := by
  rw [nested, if_neg (by simp [hc]), hi]
  dsimp only
  split
  · next h => rw [hp] at h; cases h
  · next h => rw [hp] at h; cases h; rfl

/-- A declaration with the number that its stem has when its name is drawn. -/
structure Draw where
  declaration : Declaration
  number : Nat

namespace Draw

def path (r : Draw) : WidgetPath := r.declaration.path

/-- What a generated name begins with. -/
def label (r : Draw) : String :=
  match r.path.sort with
  | .toolkit => r.path.stem
  | .composed => "_" ++ r.path.stem

/-- The name a widget gets unless it is written on it. -/
def generated (r : Draw) : String := r.label ++ toString r.number

end Draw

/-- The draws for some declarations one after another, and the index after them. -/
def drawAll (n : NameIndex) : List Declaration → List Draw × NameIndex
  | [] => ([], n)
  | d :: ds =>
    let r := drawAll (n.next d.path).2 ds
    (⟨d, n.count d.path.stem + 1⟩ :: r.1, r.2)

theorem drawAll_append (n : NameIndex) (ds es : List Declaration) :
    drawAll n (ds ++ es) =
      ((drawAll n ds).1 ++ (drawAll (drawAll n ds).2 es).1, (drawAll (drawAll n ds).2 es).2) := by
  induction ds generalizing n with
  | nil => simp [drawAll]
  | cons d ds ih => simp [drawAll, ih]

/-- The widget of a draw: its declaration with the drawn name, some parameters and some entries. -/
def Draw.Makes (r : Draw) (w : Widget) : Prop :=
  ∃ init es, w = (r.declaration.view (r.path.stem ++ toString r.number) init es).value

theorem Draw.Makes.name_eq {r : Draw} {w : Widget} (h : r.Makes w) :
    w.name = (r.declaration.valueOf "name").getD r.generated := by
  obtain ⟨init, es, rfl⟩ := h
  simp only [Declaration.view, Tree.value, Draw.generated, Draw.label, Draw.path]
  cases r.declaration.path.sort with
  | toolkit => rfl
  | composed => simp [String.append_assoc]

/-- Reading some of the tokens carried out these declarations: the widgets are theirs in order, and
the index moved on by one name for each. -/
def Carries (n n' : NameIndex) (ds : List Declaration) (ws : List Widget) : Prop :=
  List.Forall₂ Draw.Makes (drawAll n ds).1 ws ∧ n' = (drawAll n ds).2

theorem Carries.append {n n₁ n' : NameIndex} {ds es : List Declaration} {ws us : List Widget}
    (h : Carries n n₁ ds ws) (h' : Carries n₁ n' es us) : Carries n n' (ds ++ es) (ws ++ us) := by
  obtain ⟨hw, rfl⟩ := h
  obtain ⟨hu, rfl⟩ := h'
  rw [Carries, drawAll_append]
  exact ⟨List.rel_append hw hu, rfl⟩

theorem Carries.cons {n n' : NameIndex} {d : Declaration} {ds : List Declaration} {w : Widget}
    {ws : List Widget} (hw : Draw.Makes ⟨d, n.count d.path.stem + 1⟩ w)
    (h : Carries (n.next d.path).2 n' ds ws) : Carries n n' (d :: ds) (w :: ws) := by
  obtain ⟨hws, rfl⟩ := h
  exact ⟨List.Forall₂.cons hw hws, rfl⟩

mutual

/-- A declaration that can be read gives one widget for each declaration of its tree. -/
theorem declared_carries (d : Declaration) (st st' : Session) (v : View)
    (h : declared d st = .ok v st') :
    Carries st.names st'.names (declarationTree d).toList v.widgets := by
  obtain ⟨shell, found, st₁, hs, hf, rfl, hn⟩ := declared_eq_ok h
  have he := entries_carry d.path.sort shell.bodyStop d.body _ _ found hf
  have hb : d.bodyStop = shell.bodyStop := by simp [Declaration.bodyStop, hs]
  rw [← hn, ← Declaration.children_view d (st.names.next d.path).1 shell.init] at he
  rw [declarationTree, Tree.toList_node, hb]
  have hw : Draw.Makes ⟨d, st.names.count d.path.stem + 1⟩
      (d.view (st.names.next d.path).1 shell.init found).value := ⟨shell.init, found, rfl⟩
  exact Carries.cons hw he
termination_by 2 * sizeOf d.body + 1

theorem entries_carry (sort : WidgetSort) (stop : Nat × Nat) (ts : List Token) (st st' : Session)
    (found : List Entry) (h : entries sort stop ts st = .ok found st') :
    Carries st.names st'.names (Tree.forestToList (nested sort stop ts))
      (Tree.forestToList (found.filterMap Entry.child?)) := by
  match ts, h with
  | [], h =>
    rw [entries] at h
    obtain ⟨rfl, rfl⟩ := Step.pure_eq_ok.mp h
    rw [nested]
    exact ⟨List.Forall₂.nil, rfl⟩
  | t :: ts, h =>
    rcases entries_cons_eq_ok h with ⟨hc, d, v, st₁, more, hd, hv, hm, rfl⟩ |
      ⟨hc, name, e, rest, more, hi, hp, hm, rfl⟩
    · have h₁ := declared_carries d st st₁ v hv
      have h₂ := entries_carry sort stop (skipComma d.rest) st₁ st' more hm
      rw [nested_child hc hd]
      exact Carries.append h₁ h₂
    · have h₂ := entries_carry sort stop (skipComma rest) st st' more hm
      rw [nested_plain hc hi hp, List.filterMap_cons_none (plainEntry_child? hp)]
      exact h₂
termination_by 2 * sizeOf ts
decreasing_by
  · have := (declaration_skipComma_within ‹_›).1
    omega
  · have := (declaration_skipComma_within ‹_›).2
    omega
  · have := plainEntry_skipComma_within ‹_› t
    omega

end

/-- The declarations of a run of tokens that holds one view. -/
def declarations (ts : List Token) : List Declaration :=
  match declaration (endOf ts) ts with
  | .error _ => []
  | .ok d => (declarationTree d).toList

/-- What reading a view takes: a declaration with nothing behind it. -/
theorem root_eq_ok {ts : List Token} {st st' : Session} {v : View}
    (h : root ts st = .ok v st') :
    ∃ d, declaration (endOf ts) ts = .ok d ∧ declared d st = .ok v st' := by
  cases hd : declaration (endOf ts) ts with
  | error e => exact absurd (by simpa only [root, hd] using h) Step.throw_eq_ok
  | ok d =>
    simp only [root, hd] at h
    obtain ⟨v', st₁, hv, h⟩ := Step.bind_eq_ok.mp h
    cases hr : skipComma d.rest with
    | nil =>
      rw [hr] at h
      obtain ⟨rfl, rfl⟩ := Step.pure_eq_ok.mp h
      exact ⟨d, rfl, hv⟩
    | cons t r => exact absurd (by simpa only [hr] using h) Step.throw_eq_ok

/-- A view has one widget for each declaration, in order, and one name was drawn for each. -/
theorem root_carries {ts : List Token} {st st' : Session} {v : View}
    (h : root ts st = .ok v st') :
    Carries st.names st'.names (declarations ts) v.widgets := by
  obtain ⟨d, hd, hv⟩ := root_eq_ok h
  rw [declarations, hd]
  exact declared_carries d st st' v hv

end Parse

end WidgetView
