/-!
# Draws

Draws: the source of all choices of the fuzzer. A draw is a number below two to the power 31, taken
from a list that is given or, after it, from a linear congruential generator. The number of draws is
limited, so that every run ends; draws stay used when something fails.
-/
namespace WidgetView.Fuzz

/-- Draws lie below this. -/
def drawRange : Nat := Nat.pow 2 31

structure Draws where
  given : List Nat := []
  generator : Option Nat := none
  used : Nat := 0
  limit : Nat := 100000
  deriving Repr, DecidableEq

inductive DrawFault where
  /-- No draws are left. -/
  | exhausted
  /-- A number was asked for between bounds of which the lower is above the upper. -/
  | emptyRange
  /-- An element was asked for of an empty list. -/
  | emptyChoice
  deriving DecidableEq, Repr

abbrev Gen (α : Type) := EStateM DrawFault Draws α

namespace Draws

def nextState (s : Nat) : Nat := (s * 6364136223846793005 + 1442695040888963407) % Nat.pow 2 64

/-- The draws that are left at most. -/
def left (d : Draws) : Nat := d.limit - d.used

/-- The next draw, and the draws after it. -/
def next? (d : Draws) : Option (Nat × Draws) :=
  if d.limit ≤ d.used then none
  else
    match d.given, d.generator with
    | n :: ns, _ => some (n, { d with given := ns, used := d.used + 1 })
    | [], some s =>
      let s := nextState s
      some (s / Nat.pow 2 33, { d with generator := some s, used := d.used + 1 })
    | [], none => none

theorem left_of_next? {d e : Draws} {n : Nat} (h : d.next? = some (n, e)) :
    e.left + 1 = d.left := by
  unfold next? at h
  split at h
  · simp at h
  · split at h <;> simp only [Option.some.injEq, Prod.mk.injEq, reduceCtorEq] at h <;>
      (obtain ⟨-, rfl⟩ := h; simp only [left]; omega)

end Draws

def draw : Gen Nat := do
  match (← get).next? with
  | none => throw .exhausted
  | some (n, d) =>
    set d
    return n

/-- True with probability `num / den`. -/
def chance (num den : Nat) : Gen Bool := do return (← draw) * den < num * drawRange

/-- A number between two bounds, both included. -/
def between (low high : Int) : Gen Int := do
  if high < low then throw .emptyRange
  else return low + (((← draw) % (high - low + 1).toNat : Nat) : Int)

/-- A natural number between two bounds, both included. -/
def betweenNat (low high : Nat) : Gen Nat := do
  if high < low then throw .emptyRange
  else return low + (← draw) % (high - low + 1)

def choose {α : Type} (options : List α) : Gen α := do
  match options with
  | [] => throw .emptyChoice
  | a :: more => return (a :: more).getD ((← draw) % (more.length + 1)) a

/-- The results of `n` runs of a generator. -/
def times {α : Type} (n : Nat) (g : Gen α) : Gen (List α) :=
  match n with
  | 0 => return []
  | n + 1 => do
    let a ← g
    let more ← times n g
    return a :: more

end WidgetView.Fuzz
