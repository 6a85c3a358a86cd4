import WidgetView.Place
import WidgetView.Text.Quoted

/-!
# Token trees

Token trees of a view. A lexeme is a stretch of the source with its kind and its span; a token is a
lexeme or a delimited group of tokens. `render` writes a run of tokens as text again: tokens that
touched are joined, and any gap between two others becomes one space.
-/
namespace WidgetView

inductive Delimiter where
  | paren | bracket | brace
  deriving DecidableEq, Repr

namespace Delimiter

def opening : Delimiter → Char
  | paren => '('
  | bracket => '['
  | brace => '{'

def closing : Delimiter → Char
  | paren => ')'
  | bracket => ']'
  | brace => '}'

def ofOpening? (c : Char) : Option Delimiter :=
  [paren, bracket, brace].find? (·.opening = c)

def ofClosing? (c : Char) : Option Delimiter :=
  [paren, bracket, brace].find? (·.closing = c)

@[simp] theorem ofOpening?_opening (d : Delimiter) : ofOpening? d.opening = some d := by
  cases d <;> decide

@[simp] theorem ofClosing?_closing (d : Delimiter) : ofClosing? d.closing = some d := by
  cases d <;> decide

end Delimiter

inductive Kind where
  | ident | punct | string | char | number | lifetime
  deriving DecidableEq, Repr

def Kind.name : Kind → String
  | ident => "IDENT"
  | punct => "PUNCT"
  | string => "STRING"
  | char => "CHAR"
  | number => "NUMBER"
  | lifetime => "LIFETIME"

structure Lexeme where
  kind : Kind
  text : String
  span : Span
  deriving DecidableEq, Repr

namespace Lexeme

/-- The delimiter that a punctuation lexeme opens. -/
def opening? (l : Lexeme) : Option Delimiter :=
  match l.kind, l.text.toList with
  | .punct, [c] => Delimiter.ofOpening? c
  | _, _ => none

/-- The delimiter that a punctuation lexeme closes. -/
def closing? (l : Lexeme) : Option Delimiter :=
  match l.kind, l.text.toList with
  | .punct, [c] => Delimiter.ofClosing? c
  | _, _ => none

end Lexeme

inductive Token where
  | leaf (lexeme : Lexeme)
  | group (delimiter : Delimiter) (children : List Token) (span : Span)
  deriving Repr, BEq

namespace Token

def span : Token → Span
  | leaf l => l.span
  | group _ _ s => s

def kind? : Token → Option Kind
  | leaf l => some l.kind
  | group _ _ _ => none

def children : Token → List Token
  | leaf _ => []
  | group _ cs _ => cs

/-- The text of an identifier. -/
def ident? : Token → Option String
  | leaf ⟨.ident, s, _⟩ => some s
  | _ => none

/-- The text of a punctuation mark. -/
def punct? : Token → Option String
  | leaf ⟨.punct, s, _⟩ => some s
  | _ => none

def isIdent (t : Token) : Bool := t.ident?.isSome

def isIdentOf (t : Token) (name : String) : Bool := t.ident? == some name

def isPunctOf (t : Token) (mark : String) : Bool := t.punct? == some mark

def isGroup : Token → Bool
  | group _ _ _ => true
  | leaf _ => false

def isGroupOf (t : Token) (d : Delimiter) : Bool :=
  match t with
  | group e _ _ => e == d
  | leaf _ => false

end Token

/-- The space between two tokens: none if they touch. -/
def gap (stop start : Nat) : List Char := if start = stop then [] else [' ']

mutual

def Token.render : Token → List Char
  | .leaf l => l.text.toList
  | .group d cs _ => d.opening :: (render cs ++ [d.closing])

def render : List Token → List Char
  | [] => []
  | t :: ts => t.render ++ renderAfter t.span.stop ts

/-- Tokens that follow one which ends at `stop`. -/
def renderAfter (stop : Nat) : List Token → List Char
  | [] => []
  | t :: ts => gap stop t.span.start ++ t.render ++ renderAfter t.span.stop ts

end

def Token.text (t : Token) : String := String.ofList t.render

mutual

/-- A token and all tokens inside it, a group before its children. -/
def Token.descendants : Token → List Token
  | .leaf l => [.leaf l]
  | .group d cs s => .group d cs s :: descendants cs

def descendants : List Token → List Token
  | [] => []
  | t :: ts => t.descendants ++ descendants ts

end

/-- A token as it is shown in a report. -/
def Token.display : Token → String
  | .leaf l => s!"Token({l.kind.name}, {Text.quote l.text}, {l.span.line}:{l.span.column})"
  | .group d cs s =>
    s!"Token(GROUP, {d.opening}{d.closing}, {cs.length} children, {s.line}:{s.column})"

def displayAll (ts : List Token) : String :=
  "[" ++ ", ".intercalate (ts.map Token.display) ++ "]"

end WidgetView
