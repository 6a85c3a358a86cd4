import WidgetView.Token
import WidgetView.View.Path

/-!
# Qualified names in a run of tokens

Qualified names at the front of a run of tokens. A first pass takes every token that can belong to a
name, a comma only between angle brackets; a second one checks the shape of what was taken. Nothing
is consumed, so the same place may be looked at again in another way.
-/
namespace WidgetView

namespace QualifiedName

/-- How many tokens can belong to a name, `depth` angle brackets being open. The depth may fall
below zero; the check of the shape then fails. -/
def reach (depth : Int) : List Token → Nat
  | [] => 0
  | t :: ts =>
    match t.punct? with
    | some "<" => 1 + reach (depth + 1) ts
    | some ">" => 1 + reach (depth - 1) ts
    | some "," => if depth = 0 then 0 else 1 + reach depth ts
    | some "::" => 1 + reach depth ts
    | some _ => 0
    | none => if t.isIdent then 1 + reach depth ts else 0

/-- Tokens up to and including the one that closes the last of `depth` angle brackets. -/
def angleLength (depth : Int) : List Token → Option Nat
  | [] => none
  | t :: ts =>
    match t.punct? with
    | some "<" => (angleLength (depth + 1) ts).map (· + 1)
    | some ">" => if depth = 1 then some 1 else (angleLength (depth - 1) ts).map (· + 1)
    | _ => (angleLength depth ts).map (· + 1)

/-- Segments separated by `::`, the last one with optional generics that end with the run. -/
def shape : List Token → Option (List String × Option (List Token))
  | [] => none
  | t :: ts =>
    match t.ident?, ts with
    | none, _ => none
    | some s, [] => some ([s], none)
    | some s, u :: us =>
      if u.isPunctOf "<" then
        if angleLength 0 (u :: us) = some (us.length + 1) then some ([s], some (u :: us)) else none
      else if u.isPunctOf "::" then (shape us).map fun r => (s :: r.1, r.2)
      else none

def pathOf? (ts : List Token) : Option WidgetPath :=
  match ts, shape ts with
  | t :: _, some (segments, generics) =>
    some ⟨segments, generics.map fun g => String.ofList (render g), t.span.line, t.span.column⟩
  | _, _ => none

/-- A name is followed by a group, by a comma or by the end. -/
def mayFollow : List Token → Bool
  | [] => true
  | t :: _ => t.isGroup || t.isPunctOf ","

/-- The qualified name at the front and the number of its tokens. -/
def scan? (ts : List Token) : Option (WidgetPath × Nat) :=
  let n := reach 0 ts
  match pathOf? (ts.take n) with
  | some path => if mayFollow (ts.drop n) then some (path, n) else none
  | none => none

/-- A name that can begin a nested widget: its last segment does not start with a small letter. -/
def scanWidget? (ts : List Token) : Option (WidgetPath × Nat) :=
  match scan? ts with
  | some (path, n) => if path.endsLowercase then none else some (path, n)
  | none => none

theorem reach_le (depth : Int) (ts : List Token) : reach depth ts ≤ ts.length := by
  induction ts generalizing depth with
  | nil => simp [reach]
  | cons t ts ih =>
    simp only [reach, List.length_cons]
    have h := ih (depth + 1)
    have h' := ih (depth - 1)
    have h'' := ih depth
    repeat' split
    all_goals omega

/-- A name has at least one token. -/
theorem pos_of_scan? {ts : List Token} {path : WidgetPath} {n : Nat}
    (h : scan? ts = some (path, n)) : 0 < n := by
  rcases Nat.eq_zero_or_pos n with rfl | hn
  · simp only [scan?] at h
    split at h
    · next hp =>
      split at h
      · simp only [Option.some.injEq, Prod.mk.injEq] at h
        rw [h.2] at hp
        simp [pathOf?] at hp
      · simp at h
    · simp at h
  · exact hn

end QualifiedName

end WidgetView
