import WidgetView.FileSystem
import WidgetView.Token.Scan

/-!
# Parse errors

Parse errors: what was wanted, what stood there instead, and where. An error at a token has the
position of the token; an error at the end of a run of tokens has the position that the run was
given for its end.
-/
namespace WidgetView

/-- What the grammar asks for at a place. -/
inductive Wanted where
  | attributeBracket
  | attributeName
  | qualifiedName
  | body (path : String)
  | toolkitEntry (name : String)
  | composedEntry (name : String)
  | identifier
  | expression
  | value (name : String)
  | childProperty (name : String)
  | childValue (name : String)
  | parameter
  | parameterComma
  | arrow (signal : String)
  | effect
  | returned
  | message
  | answerComma
  | answer
  | macroCall
  | punct (text place : String)
  deriving DecidableEq, Repr

def Wanted.text : Wanted → String
  | attributeBracket => "`[` after `#`"
  | attributeName => "attribute name"
  | qualifiedName => "qualified name"
  | body path => "`\x7b` after `" ++ path ++ "`"
  | toolkitEntry name => "`:`, `(` or `=>` after `" ++ name ++ "`"
  | composedEntry name => "`:`, `=>` or `(` after `" ++ name ++ "`"
  | identifier => "identifier"
  | expression => "expression"
  | value name => "value for `" ++ name ++ "`"
  | childProperty name => "`:` after child property `" ++ name ++ "`"
  | childValue name => "value for child property `" ++ name ++ "`"
  | parameter => "identifier in event parameters"
  | parameterComma => "`,` between event parameters"
  | arrow signal => "`=>` in event `" ++ signal ++ "`"
  | effect => "message expression after `=>`"
  | returned => "expression after `return`"
  | message => "message expression"
  | answerComma => "`,` between message and return value"
  | answer => "return value"
  | macroCall => "a single macro invocation like `view! \x7b ... \x7d`"
  | punct text place => "`" ++ text ++ "` " ++ place

/-- A token as an error tells it. -/
def describe : Option Token → String
  | none => "end of input"
  | some t => "`" ++ t.text ++ "`"

inductive ParseFault where
  | expected (wanted : Wanted) (found : Option Token)
  | afterFileName (found : Token)
  | afterRoot (found : Token)
  | endOfInput
  | unreadable (fault : FileFault)
  | lexical (fault : LexFault)
  | inFile (path : String) (fault : ParseFault) (line column : Nat)
  | other (message : String)
  deriving Repr

def atPosition (line column : Nat) (message : String) : String :=
  s!"Line {line}, column {column}: {message}"

def ParseFault.message : ParseFault → String
  | expected wanted found => "Expected " ++ wanted.text ++ " but found " ++ describe found
  | afterFileName found => "Unexpected " ++ describe found ++ " after view file path"
  | afterRoot found => "Unexpected " ++ describe found ++ " after the root widget"
  | endOfInput => "Unexpected end of input"
  | unreadable fault => "Cannot read view file: " ++ fault.message
  | lexical fault => fault.message
  | inFile path fault line column =>
    "In view file " ++ path ++ ": " ++ atPosition line column fault.message
  | other message => message

structure ParseError where
  fault : ParseFault
  token : Option Token
  line : Nat
  column : Nat
  deriving Repr

namespace ParseError

def message (e : ParseError) : String := atPosition e.line e.column e.fault.message

def atToken (fault : ParseFault) (t : Token) : ParseError :=
  ⟨fault, some t, t.span.line, t.span.column⟩

def atStop (fault : ParseFault) (stop : Nat × Nat) : ParseError := ⟨fault, none, stop.1, stop.2⟩

/-- An error at the front of a run of tokens that ends at `stop`. -/
def here (stop : Nat × Nat) (ts : List Token) (fault : ParseFault) : ParseError :=
  match ts with
  | [] => atStop fault stop
  | t :: _ => atToken fault t

/-- Something was wanted at the front of a run of tokens. -/
def expected (stop : Nat × Nat) (ts : List Token) (wanted : Wanted) : ParseError :=
  here stop ts (.expected wanted ts.head?)

end ParseError

/-- The position of a span. -/
def Span.position (s : Span) : Nat × Nat := (s.line, s.column)

/-- The position that stands for the end of a run of tokens at the top level. -/
def endOf (ts : List Token) : Nat × Nat :=
  match ts.getLast? with
  | none => (1, 1)
  | some t => t.span.position

end WidgetView
