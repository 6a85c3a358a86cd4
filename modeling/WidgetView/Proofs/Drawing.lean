import Mathlib
import WidgetView.Fuzz.Draws

/-!
# Draws that are always possible

A generator that asks for no number between bounds that leave none, and for no element of an empty
list, fails when no draws are left, and then only; and its results are described by what its parts
yield.
-/
namespace WidgetView.Fuzz

variable {ε σ α β : Type}

/-- From a state with the first property, the result of a computation and the state after it have
the second one, or it has a fault and leaves a state with the third one. -/
def Meets (P : σ → Prop) (x : EStateM ε σ α) (Q : α → σ → Prop) (E : ε → σ → Prop) : Prop :=
  ∀ s, P s →
    match x s with
    | .ok a s' => Q a s'
    | .error e s' => E e s'

namespace Meets

variable {P P' : σ → Prop} {Q Q' : α → σ → Prop} {E : ε → σ → Prop} {x : EStateM ε σ α}

theorem ret {a : α} (h : ∀ s, P s → Q a s) : Meets P (pure a) Q E := h

theorem bind {R : β → σ → Prop} {f : α → EStateM ε σ β} (hx : Meets P x Q E)
    (hf : ∀ a, Meets (Q a) (f a) R E) : Meets P (x >>= f) R E := by
  intro s hs
  have hs' := hx s hs
  simp only [Bind.bind, EStateM.bind]
  cases hrun : x s with
  | error e s' =>
    rw [hrun] at hs'
    exact hs'
  | ok a s' =>
    rw [hrun] at hs'
    exact hf a s' hs'

theorem raise {e : ε} (h : ∀ s, P s → E e s) : Meets P (throw e) Q E := h

theorem change {Q : σ → Prop} {f : σ → σ} (h : ∀ s, P s → Q (f s)) :
    Meets P (modify f) (fun _ => Q) E := h

theorem mono {E' : ε → σ → Prop} (hx : Meets P x Q E) (hP : ∀ s, P' s → P s)
    (hQ : ∀ a s, Q a s → Q' a s) (hE : ∀ e s, E e s → E' e s) : Meets P' x Q' E' := by
  intro s hs
  have hs' := hx s (hP s hs)
  cases hrun : x s with
  | error e s' =>
    rw [hrun] at hs'
    exact hE e s' hs'
  | ok a s' =>
    rw [hrun] at hs'
    exact hQ a s' hs'

/-- What is done at the end of a computation is done also after a fault, which a fault of its own
replaces. -/
theorem ensure {Q' : α → σ → Prop} {E' : ε → σ → Prop} {y : EStateM ε σ Unit} (hx : Meets P x Q' E')
    (hok : ∀ a, Meets (Q' a) y (fun _ => Q a) E) (herr : ∀ e, Meets (E' e) y (fun _ => E e) E) :
    Meets P (tryFinally x y) Q E := by
  intro s hs
  have hs' := hx s hs
  simp only [tryFinally, tryFinally', Functor.map, EStateM.map]
  cases hrun : x s with
  | error e s' =>
    rw [hrun] at hs'
    have hend := herr e s' hs'
    cases hy : y s' <;> simpa only [hy] using hend
  | ok a s' =>
    rw [hrun] at hs'
    have hend := hok a s' hs'
    cases hy : y s' <;> simpa only [hy] using hend

end Meets

/-! ### Single draws -/

/-- No draws are left, and none was put back. -/
def Wanting (n : Nat) (f : DrawFault) (d : Draws) : Prop :=
  f = .exhausted ∧ d.next? = none ∧ d.left ≤ n

/-- The result of a generator has a property, or no draws are left. What is drawn is not put
back. -/
def Yields (g : Gen α) (Q : α → Prop) : Prop :=
  ∀ n, Meets (fun d => d.left ≤ n) g (fun a d => Q a ∧ d.left ≤ n) (Wanting n)

/-- A generator fails only when no draws are left. -/
def Safe (g : Gen α) : Prop := Yields g fun _ => True

namespace Yields

variable {g : Gen α} {f : α → Gen β} {Q : α → Prop} {R : β → Prop}

theorem ret {a : α} (h : Q a) : Yields (pure a) Q := fun _ => Meets.ret fun _ hd => ⟨h, hd⟩

theorem bind (hg : Yields g Q) (hf : ∀ a, Q a → Yields (f a) R) : Yields (g >>= f) R :=
  fun n => (hg n).bind fun a d ⟨ha, hd⟩ => hf a ha n d hd

theorem imp {Q' : α → Prop} (hg : Yields g Q) (h : ∀ a, Q a → Q' a) : Yields g Q' :=
  fun n => (hg n).mono (fun _ h => h) (fun a _ ha => ⟨h a ha.1, ha.2⟩) fun _ _ h => h

theorem times (hg : Yields g Q) (n : Nat) : Yields (times n g) fun as => ∀ a ∈ as, Q a := by
  induction n with
  | zero => exact ret (List.forall_mem_nil _)
  | succ n ih =>
    exact hg.bind fun a ha => ih.bind fun more hmore => ret (List.forall_mem_cons.mpr ⟨ha, hmore⟩)

theorem result (hg : Yields g Q) {d d' : Draws} {a : α} (h : g d = .ok a d') : Q a := by
  have hd := hg d.left d le_rfl
  rw [h] at hd
  exact hd.1

theorem safe (hg : Yields g Q) : Safe g := hg.imp fun _ _ => trivial

end Yields

namespace Safe

variable {g : Gen α} {f : α → Gen β}

theorem ret (a : α) : Safe (pure a) := Yields.ret trivial

/-- Whatever is drawn first, the result has a property. -/
theorem yields {R : β → Prop} (hg : Safe g) (hf : ∀ a, Yields (f a) R) : Yields (g >>= f) R :=
  Yields.bind hg fun a _ => hf a

theorem bind (hg : Safe g) (hf : ∀ a, Safe (f a)) : Safe (g >>= f) := hg.yields hf

end Safe

/-- A draw leaves fewer draws. -/
theorem draw_meets (n : Nat) :
    Meets (fun d => d.left ≤ n) draw (fun _ d => d.left + 1 ≤ n) (Wanting n) := by
  intro d hn
  simp only [draw, Bind.bind, EStateM.bind, get, getThe, MonadStateOf.get, EStateM.get]
  cases hd : d.next? with
  | none => exact ⟨rfl, hd, hn⟩
  | some p => exact (Draws.left_of_next? hd).trans_le hn

theorem safe_draw : Safe draw :=
  fun n => (draw_meets n).mono (fun _ h => h) (fun _ _ h => ⟨trivial, Nat.le_of_succ_le h⟩)
    fun _ _ h => h

theorem safe_chance (num den : Nat) : Safe (chance num den) := safe_draw.bind fun _ => .ret _

/-- A number between bounds that leave one. -/
theorem betweenNat_yields {low high : Nat} (h : low ≤ high) :
    Yields (betweenNat low high) fun n => low ≤ n ∧ n ≤ high := by
  rw [betweenNat, if_neg (Nat.not_lt.mpr h)]
  refine Yields.bind safe_draw fun n _ => .ret ⟨Nat.le_add_right _ _, ?_⟩
  have := Nat.mod_lt n (show 0 < high - low + 1 by omega)
  omega

theorem between_yields {low high : Int} (h : low ≤ high) :
    Yields (between low high) fun n => low ≤ n ∧ n ≤ high := by
  rw [between, if_neg (not_lt.mpr h)]
  refine Yields.bind safe_draw fun n _ => .ret ⟨by omega, ?_⟩
  have := Nat.mod_lt n (show 0 < (high - low + 1).toNat by omega)
  omega

/-- An element of a list that has one. -/
theorem choose_yields {options : List α} (h : options ≠ []) :
    Yields (choose options) (· ∈ options) := by
  cases options with
  | nil => exact absurd rfl h
  | cons a more =>
    refine Yields.bind safe_draw fun n _ => .ret ?_
    have hn : n % (more.length + 1) < (a :: more).length := Nat.mod_lt n (Nat.succ_pos _)
    rw [List.getD_eq_getElem _ _ hn]
    exact List.getElem_mem hn

theorem draw_eq_ok {d e : Draws} {n : Nat} (h : d.next? = some (n, e)) : draw d = .ok n e := by
  simp only [draw, Bind.bind, EStateM.bind, get, getThe, MonadStateOf.get, EStateM.get, h]
  rfl

/-- The element of a list that a draw stands for. -/
theorem choose_eq_ok {options : List α} {d e : Draws} {n : Nat} {a : α} (hd : d.next? = some (n, e))
    (ha : options[n % options.length]? = some a) : choose options d = .ok a e := by
  cases options with
  | nil => simp at ha
  | cons b more =>
    have hget : (b :: more).getD (n % (more.length + 1)) b = a := by
      rw [List.getD_eq_getElem?_getD, ← List.length_cons (a := b), ha, Option.getD_some]
    simp only [choose, Bind.bind, EStateM.bind, draw_eq_ok hd, hget]
    rfl

theorem exists_chosen {options : List α} (h : options ≠ []) (n : Nat) :
    ∃ a ∈ options, options[n % options.length]? = some a := by
  have hn : n % options.length < options.length := Nat.mod_lt n (List.length_pos_of_ne_nil h)
  exact ⟨_, List.getElem_mem hn, List.getElem?_eq_getElem hn⟩

/-- Some draw stands for every element. -/
theorem exists_choice {options : List α} {a : α} (h : a ∈ options) :
    ∃ n, options[n % options.length]? = some a := by
  obtain ⟨n, hn, rfl⟩ := List.getElem_of_mem h
  exact ⟨n, by rw [Nat.mod_eq_of_lt hn, List.getElem?_eq_getElem hn]⟩

end WidgetView.Fuzz
