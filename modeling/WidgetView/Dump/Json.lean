import WidgetView.Dump.Document
import WidgetView.Text.Quoted

/-!
# JSON

JSON with two spaces for every level and one item on a line. Only ASCII is written: any other
character becomes an escape of its code point, or two of them beyond the basic plane.
-/
namespace WidgetView

namespace Json

/-- The two halves that stand for a code point beyond the basic plane. -/
def surrogates (n : Nat) : Nat × Nat :=
  (0xD800 + (n - 0x10000) / 0x400, 0xDC00 + (n - 0x10000) % 0x400)

def unitEscape (n : Nat) : List Char := ['\\', 'u'] ++ Text.hexDigits 4 n

def escapeChar (c : Char) : List Char :=
  if c = '\x22' then ['\\', '\x22']
  else if c = '\\' then ['\\', '\\']
  else if c = '\n' then ['\\', 'n']
  else if c = '\r' then ['\\', 'r']
  else if c = '\t' then ['\\', 't']
  else if c = '\x08' then ['\\', 'b']
  else if c = '\x0c' then ['\\', 'f']
  else if 0x20 ≤ c.toNat ∧ c.toNat < 0x7F then [c]
  else if c.toNat < 0x10000 then unitEscape c.toNat
  else unitEscape (surrogates c.toNat).1 ++ unitEscape (surrogates c.toNat).2

def string (s : String) : String :=
  String.ofList (('\x22' :: s.toList.flatMap escapeChar) ++ ['\x22'])

def newline (depth : Nat) : String := "\n" ++ String.ofList (List.replicate (2 * depth) ' ')

mutual

def value (depth : Nat) : Document → String
  | .text s => string s
  | .flag b => if b then "true" else "false"
  | .list [] => "[]"
  | .list (d :: ds) =>
    "[" ++ newline (depth + 1) ++ value (depth + 1) d ++ items (depth + 1) ds ++
      newline depth ++ "]"
  | .record [] => "\x7b\x7d"
  | .record ((k, d) :: fs) =>
    "\x7b" ++ newline (depth + 1) ++ string k ++ ": " ++ value (depth + 1) d ++
      fields (depth + 1) fs ++ newline depth ++ "\x7d"

def items (depth : Nat) : List Document → String
  | [] => ""
  | d :: ds => "," ++ newline depth ++ value depth d ++ items depth ds

def fields (depth : Nat) : List (String × Document) → String
  | [] => ""
  | (k, d) :: fs => "," ++ newline depth ++ string k ++ ": " ++ value depth d ++ fields depth fs

end

end Json

def Document.json (d : Document) : String := Json.value 0 d

end WidgetView
