import WidgetView.Token

/-!
# Values of string literals

The value of a string literal. The literal is an optional mark, `b` or `r` or both, before a body in
double quotes. In a raw literal the body stands for itself; in any other a backslash takes the next
character with it.
-/
namespace WidgetView

/-- The character that a backslash and `c` stand for. -/
def escaped (c : Char) : Char :=
  match c with
  | 'n' => '\n'
  | 't' => '\t'
  | 'r' => '\r'
  | '0' => '\x00'
  | c => c

def unescape : List Char → List Char
  | [] => []
  | ['\\'] => ['\\']
  | '\\' :: c :: cs => escaped c :: unescape cs
  | c :: cs => c :: unescape cs

def isQuoteMark (c : Char) : Bool := c == '\x22'

def literalMark (literal : List Char) : List Char := literal.takeWhile (!isQuoteMark ·)

def literalBody (literal : List Char) : List Char :=
  (literal.dropWhile (!isQuoteMark ·)).tail.dropLast

def literalValue (literal : List Char) : List Char :=
  if 'r' ∈ literalMark literal then literalBody literal else unescape (literalBody literal)

structure NotAString where
  text : String
  deriving DecidableEq, Repr

def NotAString.message (e : NotAString) : String := s!"Not a string literal: {e.text}"

def Token.string? : Token → Option String
  | .leaf ⟨.string, s, _⟩ => some (String.ofList (literalValue s.toList))
  | _ => none

def Token.stringValue (t : Token) : Except NotAString String :=
  match t.string? with
  | some s => .ok s
  | none => .error ⟨t.text⟩

end WidgetView
