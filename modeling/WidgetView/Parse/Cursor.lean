import WidgetView.Parse.Error

/-!
# Read positions

Read positions in one run of tokens. A cursor stands between the tokens already read and the rest;
it also knows the position to report at the end of the run. Offsets that reach before the first
token count from the end of the run.
-/
namespace WidgetView

structure Cursor where
  tokens : List Token
  position : Nat := 0
  stop : Nat × Nat
  deriving Repr

/-- An offset that reaches further back than the run is long. -/
inductive PeekFault where
  | beforeStart
  deriving DecidableEq, Repr

def PeekFault.message : PeekFault → String
  | beforeStart => "list index out of range"

namespace Cursor

def ofTokens (ts : List Token) : Cursor := ⟨ts, 0, endOf ts⟩

/-- A cursor with a given end position; line zero stands for none given. -/
def withStop (ts : List Token) (stop : Nat × Nat) : Cursor :=
  if stop.1 = 0 then ofTokens ts else ⟨ts, 0, stop⟩

/-- A cursor over the contents of a group. -/
def ofGroup (t : Token) : Cursor := withStop t.children t.span.position

def rest (c : Cursor) : List Token := c.tokens.drop c.position

def atEnd (c : Cursor) : Bool := c.tokens.length ≤ c.position

/-- The token at an offset, if there is one; an error if the offset reaches too far back. -/
def peek (c : Cursor) (offset : Int) : Except PeekFault (Option Token) :=
  let i := (c.position : Int) + offset
  let n := c.tokens.length
  if 0 ≤ i then .ok c.tokens[i.toNat]?
  else if 0 ≤ n + i then .ok c.tokens[(n + i).toNat]?
  else .error .beforeStart

def error (c : Cursor) (fault : ParseFault) : ParseError := ParseError.here c.stop c.rest fault

def advance (c : Cursor) : Except ParseError (Token × Cursor) :=
  match c.rest with
  | [] => .error (c.error .endOfInput)
  | t :: _ => .ok (t, { c with position := c.position + 1 })

def matchPunct (c : Cursor) (mark : String) : Bool × Cursor :=
  match c.rest with
  | [] => (false, c)
  | t :: _ => if t.isPunctOf mark then (true, { c with position := c.position + 1 }) else (false, c)

def expectPunct (c : Cursor) (mark place : String) : Except ParseError (Token × Cursor) :=
  match c.rest with
  | [] => .error (ParseError.expected c.stop [] (.punct mark place))
  | t :: ts =>
    if t.isPunctOf mark then .ok (t, { c with position := c.position + 1 })
    else .error (ParseError.expected c.stop (t :: ts) (.punct mark place))

@[simp] theorem rest_ofTokens (ts : List Token) : (ofTokens ts).rest = ts := rfl

end Cursor

end WidgetView
