import WidgetView.Parse.Error
import WidgetView.View

/-!
# Values

Values: an expression reaches up to the next comma of its own run, or to the end of the run. Lists
of expressions, of parameters and of child properties are the contents of a group.
-/
namespace WidgetView

namespace Parse

def isComma (t : Token) : Bool := t.isPunctOf ","

/-- Drop one comma at the front. -/
def skipComma : List Token → List Token
  | [] => []
  | t :: ts => if isComma t then ts else t :: ts

def value (stop : Nat × Nat) (wanted : Wanted) (ts : List Token) :
    Except ParseError (Expr × List Token) :=
  match ts.takeWhile (!isComma ·) with
  | [] => .error (ParseError.expected stop ts wanted)
  | t :: more => .ok (⟨t, more⟩, ts.dropWhile (!isComma ·))

theorem length_skipComma_le (ts : List Token) : (skipComma ts).length ≤ ts.length := by
  cases ts with
  | nil => simp [skipComma]
  | cons t ts => simp only [skipComma]; split <;> simp

theorem skipComma_suffix (ts : List Token) : skipComma ts <:+ ts := by
  cases ts with
  | nil => simp [skipComma]
  | cons t ts =>
    simp only [skipComma]
    split
    · exact List.suffix_cons t ts
    · exact List.suffix_rfl

theorem value_suffix {stop : Nat × Nat} {wanted : Wanted} {ts rest : List Token} {e : Expr}
    (h : value stop wanted ts = .ok (e, rest)) : rest <:+ ts := by
  unfold value at h
  split at h
  · simp at h
  · simp only [Except.ok.injEq, Prod.mk.injEq] at h
    rw [← h.2]
    exact List.dropWhile_suffix _

theorem length_value_lt {stop : Nat × Nat} {wanted : Wanted} {ts rest : List Token} {e : Expr}
    (h : value stop wanted ts = .ok (e, rest)) : rest.length < ts.length := by
  unfold value at h
  split at h
  · simp at h
  · next t more heq =>
    simp only [Except.ok.injEq, Prod.mk.injEq] at h
    have hl := congrArg List.length (List.takeWhile_append_dropWhile (p := (!isComma ·)) (l := ts))
    rw [heq, h.2] at hl
    simp at hl
    omega

/-- Expressions separated by commas; a comma may end the list. -/
def exprs (stop : Nat × Nat) (ts : List Token) : Except ParseError (List Expr) :=
  if ts = [] then .ok []
  else
    match _h : value stop .expression ts with
    | .error e => .error e
    | .ok (e, rest) =>
      match exprs stop (skipComma rest) with
      | .error e => .error e
      | .ok es => .ok (e :: es)
termination_by ts.length
decreasing_by
  have := length_value_lt ‹_›
  have := length_skipComma_le rest
  omega

/-- Names separated by commas; a comma may end the list. -/
def params (stop : Nat × Nat) : List Token → Except ParseError (List String)
  | [] => .ok []
  | t :: ts =>
    match t.ident? with
    | none => .error (ParseError.expected stop (t :: ts) .parameter)
    | some name =>
      match ts with
      | [] => .ok [name]
      | u :: us =>
        if isComma u then
          match params stop us with
          | .error e => .error e
          | .ok names => .ok (name :: names)
        else .error (ParseError.expected stop (u :: us) .parameterComma)

/-- Pairs `name: expression` with an optional comma after each. -/
def childProperties (stop : Nat × Nat) (ts : List Token) :
    Except ParseError (List (String × Expr)) :=
  match ts with
  | [] => .ok []
  | t :: ts =>
    match t.ident?, ts with
    | none, _ => .error (ParseError.expected stop (t :: ts) .identifier)
    | some name, [] => .error (ParseError.expected stop [] (.childProperty name))
    | some name, u :: us =>
      if u.isPunctOf ":" then
        match _h : value stop (.childValue name) us with
        | .error e => .error e
        | .ok (e, rest) =>
          match childProperties stop (skipComma rest) with
          | .error e => .error e
          | .ok es => .ok ((name, e) :: es)
      else .error (ParseError.expected stop (u :: us) (.childProperty name))
termination_by ts.length
decreasing_by
  have := length_value_lt ‹_›
  have := length_skipComma_le rest
  simp only [List.length_cons]
  omega

end Parse

end WidgetView
