import WidgetView.Token

/-!
# Terminals

The grammar of token trees, read by terminals. Every terminal is a pattern with a rank. At each
place the terminal of the highest rank that matches there is taken; blanks and comments are then
dropped. The terminals are read as they are needed, so of two faults the first by position is
reported.
-/
namespace WidgetView

namespace Pattern

/-- The number of characters that a pattern takes at the front of a text, if it matches there.
Repetitions take as much as they can and give nothing back. -/
abbrev Match := List Char → Option Nat

def one (p : Char → Bool) : Match
  | [] => none
  | c :: _ => if p c then some 1 else none

def lit (s : String) : Match :=
  fun cs => if s.toList.isPrefixOf cs then some s.length else none

def seq (a b : Match) : Match :=
  fun cs => (a cs).bind fun n => (b (cs.drop n)).map (n + ·)

def either (a b : Match) : Match := fun cs => (a cs).or (b cs)

def opt (a : Match) : Match := fun cs => some ((a cs).getD 0)

def repeated (a : Match) : List Char → Nat
  | [] => 0
  | c :: cs =>
    match a (c :: cs) with
    | some (n + 1) => n + 1 + repeated a (cs.drop n)
    | _ => 0
termination_by cs => cs.length
decreasing_by simp only [List.length_drop, List.length_cons]; omega

def many (a : Match) : Match := fun cs => some (repeated a cs)

/-- Any characters up to the first place where `a` matches, and that match. -/
def upTo (a : Match) : Match
  | [] => a []
  | c :: cs => (a (c :: cs)).or ((upTo a cs).map (· + 1))

def all (ps : List Match) : Match := ps.foldr seq (fun _ => some 0)

def any (ps : List Match) : Match := fun cs => ps.findSome? (· cs)

end Pattern

inductive Terminal where
  | lineComment | blockComment | string | char | lifetime | number | ident | punct
  | opening (d : Delimiter)
  | closing (d : Delimiter)
  | space
  deriving DecidableEq, Repr

namespace Terminal

open Pattern

def isLetter (c : Char) : Bool := ('A' ≤ c && c ≤ 'Z') || ('a' ≤ c && c ≤ 'z') || c == '_'

def isNumeral (c : Char) : Bool := '0' ≤ c && c ≤ '9'

def isLetterOrNumeral (c : Char) : Bool := isLetter c || isNumeral c

def isSpace (c : Char) : Bool := c ∈ [' ', '\t', '\r', '\n']

/-- A backslash and any character after it. -/
def escape : Match := all [lit "\\", one fun _ => true]

def word : Match := many (one isLetterOrNumeral)

def name : Match := all [one isLetter, word]

def digits : Match := all [one isNumeral, word]

def rawString : Match :=
  all [opt (lit "b"), lit "r", lit "\x22", many (one (· != '\x22')), lit "\x22"]

def plainString : Match :=
  all [opt (lit "b"), lit "\x22", many (either escape (one fun c => c != '\x22' && c != '\\')),
    lit "\x22"]

def marks : List String := [
  "::", "=>", "->", "==", "!=", "<=", ">=", "&&", "||", "..", "+=", "-=", "*=", "/=",
  "#", "!", "@", "&", "*", ".", ";", "?", "$", "%", "^", "|", "~", "+", "-", "/", "=", "<", ">",
  ",", ":"]

def pattern : Terminal → Match
  | lineComment => all [lit "//", many (one (· != '\n'))]
  | blockComment => all [lit "/*", upTo (lit "*/")]
  | string => either rawString plainString
  | char => all [lit "'", either escape (one fun c => c != '\x27' && c != '\\'), lit "'"]
  | lifetime => all [lit "'", name]
  | number => all [digits, opt (all [lit ".", digits])]
  | ident => name
  | punct => any (marks.map lit)
  | opening d => one (· == d.opening)
  | closing d => one (· == d.closing)
  | space => all [one isSpace, many (one isSpace)]

def rank : Terminal → Nat
  | lineComment | blockComment => 4
  | string | char => 3
  | lifetime | number => 2
  | ident | punct => 1
  | opening _ | closing _ | space => 0

/-- All terminals, the highest rank first. -/
def ranked : List Terminal := [
  lineComment, blockComment, string, char, lifetime, number, ident, punct,
  opening .paren, opening .bracket, opening .brace,
  closing .paren, closing .bracket, closing .brace, space]

def kind? : Terminal → Option Kind
  | string => some .string
  | char => some .char
  | lifetime => some .lifetime
  | number => some .number
  | ident => some .ident
  | punct => some .punct
  | _ => none

def isDropped : Terminal → Bool
  | lineComment | blockComment | space => true
  | _ => false

/-- The name of a closing terminal in the grammar. -/
def closingName : Delimiter → String
  | .paren => "RPAR"
  | .bracket => "RSQB"
  | .brace => "RBRACE"

/-- The terminal at the front of a text, with the characters after the first that it takes. -/
def first? (cs : List Char) : Option (Terminal × Nat) :=
  ranked.findSome? fun t =>
    match t.pattern cs with
    | some (n + 1) => some (t, n)
    | _ => none

end Terminal

/-- A stretch of the source that a terminal took. -/
structure Taken where
  terminal : Terminal
  text : String
  span : Span
  deriving DecidableEq, Repr

inductive GrammarError where
  /-- No terminal matches at a place. -/
  | noTerminal (place : Place)
  /-- A closing delimiter does not close the innermost open group. -/
  | unexpectedClosing (d : Delimiter) (line column : Nat)
  /-- The text ends inside a group; the position is that of the last token. -/
  | unexpectedEnd (line column : Nat)
  deriving DecidableEq, Repr

namespace Terminal

/-- What the terminals take of a text, and the place where none of them matches, if there is one. -/
def takeFrom (p : Place) : List Char → List Taken × Option Place
  | [] => ([], none)
  | c :: cs =>
    match first? (c :: cs) with
    | none => ([], some p)
    | some (t, n) =>
      let text := c :: cs.take n
      let (rest, stuck) := takeFrom (p.after text) (cs.drop n)
      if t.isDropped then (rest, stuck)
      else (⟨t, String.ofList text, p.spanTo (p.after text)⟩ :: rest, stuck)
termination_by cs => cs.length
decreasing_by simp only [List.length_drop, List.length_cons]; omega

/-- An open group: its delimiter and place, and the trees before it, last first. -/
abbrev OpenGroup := Delimiter × Span × List Token

/-- Reduce what was taken to token trees. `last` is the position of the last token taken. -/
def reduce (stuck : Option Place) (last : Nat × Nat) (groups : List OpenGroup) (done : List Token) :
    List Taken → Except GrammarError (List Token)
  | [] =>
    match stuck, groups with
    | some p, _ => .error (.noTerminal p)
    | none, [] => .ok done.reverse
    | none, _ :: _ => .error (.unexpectedEnd last.1 last.2)
  | x :: xs =>
    let here := (x.span.line, x.span.column)
    match x.terminal with
    | opening d => reduce stuck here ((d, x.span, done) :: groups) [] xs
    | closing d =>
      match groups with
      | (e, span, before) :: rest =>
        if e = d then
          reduce stuck here rest
            (.group e done.reverse { span with stop := x.span.stop } :: before) xs
        else .error (.unexpectedClosing d here.1 here.2)
      | [] => .error (.unexpectedClosing d here.1 here.2)
    | t =>
      match t.kind? with
      | some k => reduce stuck here groups (.leaf ⟨k, x.text, x.span⟩ :: done) xs
      | none => reduce stuck here groups done xs

end Terminal

/-- The token trees of a source text as the grammar gives them. -/
def tokenizeByGrammar (source : List Char) : Except GrammarError (List Token) :=
  let (taken, stuck) := Terminal.takeFrom {} source
  Terminal.reduce stuck (1, 1) [] [] taken

end WidgetView
