import WidgetView.Token

/-!
# The scanner

The scanner: source text to lexemes. Each step looks at the character `c` at hand and the characters
`cs` after it, and `scanPiece c cs` says how many of `cs` belong to the piece that starts with `c`.
A piece is blank (space or comment) or a lexeme. A fault is placed where its piece starts.
-/
namespace WidgetView

inductive LexFault where
  | unterminatedComment
  | unterminatedEscape
  | unterminatedString
  | unterminatedChar
  | unexpectedChar (c : Char)
  | unexpectedClosing (found : Delimiter)
  | mismatchedClosing (found expected : Delimiter)
  | unclosed (d : Delimiter)
  deriving DecidableEq, Repr

def quotedChar (c : Char) : String := String.ofList (Text.quoteChars [c])

def LexFault.message : LexFault → String
  | unterminatedComment => "Unterminated block comment"
  | unterminatedEscape => "Unterminated string escape"
  | unterminatedString => "Unterminated string"
  | unterminatedChar => "Unterminated character literal"
  | unexpectedChar c => s!"Unexpected character: {quotedChar c}"
  | unexpectedClosing d => s!"Unexpected closing {quotedChar d.closing}"
  | mismatchedClosing d e =>
    s!"Mismatched closing {quotedChar d.closing}, expected {quotedChar e.closing}"
  | unclosed d => s!"Unclosed {quotedChar d.opening}"

structure LexError where
  fault : LexFault
  line : Nat
  column : Nat
  deriving DecidableEq, Repr

def LexError.message (e : LexError) : String :=
  s!"Line {e.line}, column {e.column}: {e.fault.message}"

namespace Scan

def isBlank (c : Char) : Bool := c == ' ' || c == '\t' || c == '\r' || c == '\n'

def isIdentStart (c : Char) : Bool := c.isAlpha || c == '_'

def isIdentChar (c : Char) : Bool := isIdentStart c || c.isDigit

def isDelimiter (c : Char) : Bool :=
  (Delimiter.ofOpening? c).isSome || (Delimiter.ofClosing? c).isSome

/-- Marks of two characters. They win over the marks of one character that begin them. -/
def doubleMarks : List (Char × Char) := [
  (':', ':'), ('=', '>'), ('-', '>'), ('=', '='), ('!', '='), ('<', '='), ('>', '='),
  ('&', '&'), ('|', '|'), ('.', '.'), ('+', '='), ('-', '='), ('*', '='), ('/', '=')]

def singleMarks : List Char := "#!@&*.;?$%^|~+-/=<>,:".toList

/-- Characters up to and including the end of a block comment. -/
def commentLength : List Char → Option Nat
  | [] => none
  | '*' :: '/' :: _ => some 2
  | _ :: cs => (commentLength cs).map (· + 1)

/-- Characters up to and including the closing quote of a string. Unless the string is raw, a
backslash takes the next character with it. -/
def stringLength (raw : Bool) : List Char → Except LexFault Nat
  | [] => .error .unterminatedString
  | '\x22' :: _ => .ok 1
  | ['\\'] => .error (if raw then .unterminatedString else .unterminatedEscape)
  | '\\' :: c :: cs =>
    if raw then (stringLength raw (c :: cs)).map (· + 1) else (stringLength raw cs).map (· + 2)
  | _ :: cs => (stringLength raw cs).map (· + 1)

/-- Characters after a single quote, with the kind that they decide. -/
def quoteLength : List Char → Except LexFault (Kind × Nat)
  | '\\' :: _ :: '\x27' :: _ => .ok (.char, 3)
  | '\\' :: _ => .error .unterminatedChar
  | '\x27' :: _ => .error .unterminatedChar
  | _ :: '\x27' :: _ => .ok (.char, 2)
  | c :: cs =>
    if isIdentStart c then .ok (.lifetime, 1 + (cs.takeWhile isIdentChar).length)
    else .error .unterminatedChar
  | [] => .error .unterminatedChar

def identLength (cs : List Char) : Nat := (cs.takeWhile isIdentChar).length

/-- Characters after the first digit of a number: a fraction needs a digit after its point. -/
def numberLength (cs : List Char) : Nat :=
  match cs.drop (identLength cs) with
  | '.' :: d :: ds =>
    if d.isDigit then identLength cs + 2 + identLength ds else identLength cs
  | _ => identLength cs

def markLength (c : Char) (cs : List Char) : Except LexFault Nat :=
  match cs with
  | d :: _ =>
    if (c, d) ∈ doubleMarks then .ok 1
    else if c ∈ singleMarks then .ok 0 else .error (.unexpectedChar c)
  | [] => if c ∈ singleMarks then .ok 0 else .error (.unexpectedChar c)

/-- The mark before the opening quote of a string that starts with `c`: its length after `c`, and
whether the string is raw. -/
def stringMark? (c : Char) (cs : List Char) : Option (Nat × Bool) :=
  match c, cs with
  | '\x22', _ => some (0, false)
  | 'b', '\x22' :: _ => some (1, false)
  | 'r', '\x22' :: _ => some (1, true)
  | 'b', 'r' :: '\x22' :: _ => some (2, true)
  | _, _ => none

/-- The kind of the lexeme that starts with `c`, and its further characters. -/
def lexemeLength (c : Char) (cs : List Char) : Except LexFault (Kind × Nat) :=
  if isDelimiter c then .ok (.punct, 0)
  else
    match stringMark? c cs with
    | some (n, raw) => (stringLength raw (cs.drop n)).map fun m => (.string, n + m)
    | none =>
      if c = '\x27' then quoteLength cs
      else if c.isDigit then .ok (.number, numberLength cs)
      else if isIdentStart c then .ok (.ident, identLength cs)
      else (markLength c cs).map fun m => (.punct, m)

/-- The piece that starts with `c`: its kind, or none if it is blank, and its further characters. -/
def scanPiece (c : Char) (cs : List Char) : Except LexFault (Option Kind × Nat) :=
  if isBlank c then .ok (none, 0)
  else
    match c, cs with
    | '/', '/' :: _ => .ok (none, (cs.takeWhile (· ≠ '\n')).length)
    | '/', '*' :: ds =>
      match commentLength ds with
      | some n => .ok (none, 1 + n)
      | none => .error .unterminatedComment
    | c, cs => (lexemeLength c cs).map fun r => (some r.1, r.2)

def scanFrom (p : Place) : List Char → Except LexError (List Lexeme)
  | [] => .ok []
  | c :: cs =>
    match scanPiece c cs with
    | .error f => .error ⟨f, p.line, p.column⟩
    | .ok (kind?, n) =>
      let text := c :: cs.take n
      match scanFrom (p.after text) (cs.drop n) with
      | .error e => .error e
      | .ok ls =>
        match kind? with
        | none => .ok ls
        | some k => .ok (⟨k, String.ofList text, p.spanTo (p.after text)⟩ :: ls)
termination_by cs => cs.length
decreasing_by simp only [List.length_drop, List.length_cons]; omega

end Scan

/-- All lexemes of a source text. -/
def scan (source : List Char) : Except LexError (List Lexeme) := Scan.scanFrom {} source

end WidgetView
