import WidgetView.Token.Scan

/-!
# Nesting

Nesting: lexemes to token trees. A stack holds the groups still open, each with the siblings that
stood before it. A closing delimiter must match the innermost open group.
-/
namespace WidgetView

namespace Nest

/-- An open group: its delimiter and place, and the tokens before it, last first. -/
structure Frame where
  delimiter : Delimiter
  span : Span
  before : List Token

def Frame.close (f : Frame) (children : List Token) (stop : Nat) : Token :=
  .group f.delimiter children { f.span with stop := stop }

/-- Nest lexemes below the open groups `stack`, after the tokens `done`, last first. -/
def nestFrom (stack : List Frame) (done : List Token) : List Lexeme → Except LexError (List Token)
  | [] =>
    match stack with
    | [] => .ok done.reverse
    | f :: _ => .error ⟨.unclosed f.delimiter, f.span.line, f.span.column⟩
  | l :: ls =>
    match l.opening?, l.closing? with
    | some d, _ => nestFrom (⟨d, l.span, done⟩ :: stack) [] ls
    | none, none => nestFrom stack (.leaf l :: done) ls
    | none, some d =>
      match stack with
      | [] => .error ⟨.unexpectedClosing d, l.span.line, l.span.column⟩
      | f :: fs =>
        if f.delimiter = d then nestFrom fs (f.close done.reverse l.span.stop :: f.before) ls
        else .error ⟨.mismatchedClosing d f.delimiter, l.span.line, l.span.column⟩

end Nest

def nest (ls : List Lexeme) : Except LexError (List Token) := Nest.nestFrom [] [] ls

/-- The token trees of a source text. Faults of scanning come before faults of nesting. -/
def tokenize (source : List Char) : Except LexError (List Token) := do nest (← scan source)

end WidgetView
