import WidgetView.Dump.Document
import WidgetView.Dump.YamlScalar
import WidgetView.Text.Quoted

/-!
# YAML

YAML in block style, in lines of about eighty characters and in ASCII. A pen knows the column it
stands in, whether a blank or a line start precedes it, and whether only indentation precedes it on
its line.
-/
namespace WidgetView

namespace Yaml

structure Pen where
  /-- What has been written, last character first. -/
  written : List Char := []
  column : Nat := 0
  afterBlank : Bool := true
  afterIndent : Bool := true

namespace Pen

def put (p : Pen) (cs : List Char) : Pen :=
  { p with written := cs.reverse ++ p.written, column := p.column + cs.length }

def breakLine (p : Pen) : Pen := ⟨'\n' :: p.written, 0, true, true⟩

/-- Go to an indentation, on a new line unless the pen can still reach it on this one. -/
def indent (p : Pen) (n : Nat) : Pen :=
  let p := if !p.afterIndent || p.column > n || (p.column == n && !p.afterBlank) then p.breakLine
    else p
  if p.column < n then { p.put (List.replicate (n - p.column) ' ') with afterBlank := true } else p

/-- Write an indicator, with a blank before it if it needs one. -/
def indicator (p : Pen) (cs : List Char) (needsBlank keepsIndent : Bool) : Pen :=
  let q := p.put (if p.afterBlank || !needsBlank then cs else ' ' :: cs)
  { q with afterBlank := false, afterIndent := p.afterIndent && keepsIndent }

/-- Text follows on the line. -/
def inText (p : Pen) : Pen := { p with afterBlank := false, afterIndent := false }

end Pen

/-- A text is folded at a blank once its line is longer than this. -/
def bestWidth : Nat := 80

/-- Keys that are longer than this with their tag are written as complex keys. -/
def maxSimpleKey : Nat := 128

def textTag : String := "!!str"

/-- Write a text without quotes. A single blank may be replaced by a line end. -/
def plainFrom (split : Bool) (n : Nat) (p : Pen) : List Char → Pen
  | [] => p
  | c :: cs =>
    if c = ' ' then
      let blanks := cs.takeWhile (· = ' ')
      let rest := cs.dropWhile (· = ' ')
      let p := if blanks.isEmpty && p.column > bestWidth && split then (p.indent n).inText
        else p.put (c :: blanks)
      plainFrom split n p rest
    else plainFrom split n (p.put [c]) cs
termination_by cs => cs.length
decreasing_by
  · have := (List.dropWhile_suffix (l := cs) (fun c => decide (c = ' '))).length_le
    simp only [List.length_cons]
    omega
  · simp

/-- Write a text within single quotes: a quote is doubled, and a run of line ends takes one more. -/
def singleFrom (split : Bool) (n : Nat) (first : Bool) (p : Pen) : List Char → Pen
  | [] => p
  | c :: cs =>
    if c = ' ' then
      let blanks := cs.takeWhile (· = ' ')
      let rest := cs.dropWhile (· = ' ')
      let p :=
        if blanks.isEmpty && p.column > bestWidth && split && !first && !rest.isEmpty then
          p.indent n
        else p.put (c :: blanks)
      singleFrom split n false p rest
    else if c = '\n' then
      let breaks := cs.takeWhile (· = '\n')
      let rest := cs.dropWhile (· = '\n')
      let p := (c :: breaks).foldl (fun p _ => p.breakLine) p.breakLine
      singleFrom split n false (p.indent n) rest
    else singleFrom split n false (p.put (if c = '\x27' then [c, c] else [c])) cs
termination_by cs => cs.length
decreasing_by
  · have := (List.dropWhile_suffix (l := cs) (fun c => decide (c = ' '))).length_le
    simp only [List.length_cons]
    omega
  · have := (List.dropWhile_suffix (l := cs) (fun c => decide (c = '\n'))).length_le
    simp only [List.length_cons]
    omega
  · simp

/-- Characters with an escape of one letter. -/
def letterEscape? (c : Char) : Option Char :=
  match c with
  | '\x00' => some '0'
  | '\x07' => some 'a'
  | '\x08' => some 'b'
  | '\t' => some 't'
  | '\n' => some 'n'
  | '\x0b' => some 'v'
  | '\x0c' => some 'f'
  | '\r' => some 'r'
  | '\x1b' => some 'e'
  | '\x22' => some '\x22'
  | '\\' => some '\\'
  | '\u0085' => some 'N'
  | '\u00a0' => some '_'
  | '\u2028' => some 'L'
  | '\u2029' => some 'P'
  | _ => none

def codeEscape (n : Nat) : List Char :=
  (if n < 0x100 then ['x'] ++ Text.hexDigits 2 n
    else if n < 0x10000 then ['u'] ++ Text.hexDigits 4 n
    else ['U'] ++ Text.hexDigits 8 n)

/-- The escape of a character, without its backslash; none if it stands for itself. -/
def escape? (c : Char) : Option (List Char) :=
  match letterEscape? c with
  | some e => some [e]
  | none =>
    if 0x20 ≤ c.toNat ∧ c.toNat ≤ 0x7E then none
    else
      match codeEscape c.toNat with
      | [] => none
      | kind :: digits => some (kind :: digits.map Char.toUpper)

/-- End a line within double quotes. The backslash at its end takes the line end away; one more
keeps a blank that begins the next line. -/
def foldDouble (n : Nat) (p : Pen) (next : Option Char) : Pen :=
  let p := ((p.put ['\\']).indent n).inText
  if next = some ' ' then p.put ['\\'] else p

/-- Write a text within double quotes. A line may end before a blank, after an escape, and before
the character that follows an escape; never next to a quote. -/
def doubleFrom (split : Bool) (n : Nat) (first afterEscape : Bool) (p : Pen) : List Char → Pen
  | [] => p
  | c :: cs =>
    let inner := split && !first && !cs.isEmpty
    match escape? c with
    | some e =>
      let p := p.put ('\\' :: e)
      let p := if inner && p.column > bestWidth + 1 then foldDouble n p cs.head? else p
      doubleFrom split n false true p cs
    | none =>
      let p := if inner && (c = ' ' || afterEscape) && p.column > bestWidth then
          foldDouble n p (some c)
        else p
      doubleFrom split n false false (p.put [c]) cs

def plain (split : Bool) (n : Nat) (p : Pen) (s : String) : Pen :=
  let p := if p.afterBlank then p else p.put [' ']
  plainFrom split n p.inText s.toList

def flag (n : Nat) (p : Pen) (b : Bool) : Pen := plain true n p (if b then "true" else "false")

/-- Write a text; `n` is the indentation of further lines. Keys are never split. -/
def scalar (split : Bool) (n : Nat) (p : Pen) (s : String) : Pen :=
  match styleOf s with
  | .plain => plain split n p s
  | .single =>
    let p := singleFrom split n true (p.indicator ['\x27'] true false) s.toList
    p.indicator ['\x27'] false false
  | .double =>
    let p := doubleFrom split n true false (p.indicator ['\x22'] true false) s.toList
    p.indicator ['\x22'] false false

def isSimpleKey (k : String) : Bool :=
  textTag.length + k.length < maxSimpleKey && k ≠ "" && !k.toList.any fun c =>
    c ∈ ['\n', '\u0085', '\u2028', '\u2029']

/-- Write a key and the colon after it. -/
def key (n : Nat) (p : Pen) (k : String) : Pen :=
  let p := p.indent n
  if isSimpleKey k then (scalar false (n + 2) p k).indicator [':'] false false
  else
    let p := scalar true (n + 2) (p.indicator ['?'] true true) k
    (p.indent n).indicator [':'] true true

mutual

/-- Write a document where a value of a record is expected, the record being indented by `n`. A list
is not indented any further, unless only indentation precedes it. -/
def fieldValue (n : Nat) (p : Pen) : Document → Pen
  | .text s => scalar true (n + 2) p s
  | .flag b => flag (n + 2) p b
  | .list [] => (p.indicator ['['] true false).indicator [']'] false false
  | .list (d :: ds) => items (if p.afterIndent then n + 2 else n) p (d :: ds)
  | .record [] => (p.indicator ['\x7b'] true false).indicator ['\x7d'] false false
  | .record (f :: fs) => fields (n + 2) p (f :: fs)

/-- Write a document where an item of a list is expected, the list being indented by `n`. -/
def itemValue (n : Nat) (p : Pen) : Document → Pen
  | .text s => scalar true (n + 2) p s
  | .flag b => flag (n + 2) p b
  | .list [] => (p.indicator ['['] true false).indicator [']'] false false
  | .list (d :: ds) => items (n + 2) p (d :: ds)
  | .record [] => (p.indicator ['\x7b'] true false).indicator ['\x7d'] false false
  | .record (f :: fs) => fields (n + 2) p (f :: fs)

def fields (n : Nat) (p : Pen) : List (String × Document) → Pen
  | [] => p
  | (k, d) :: fs => fields n (fieldValue n (key n p k) d) fs

def items (n : Nat) (p : Pen) : List Document → Pen
  | [] => p
  | d :: ds => items n (itemValue n ((p.indent n).indicator ['-'] true true) d) ds

end

end Yaml

/-- The lines of a document that is a record, the last one ended. -/
def Document.yaml (d : Document) : String :=
  let p := match d with
    | .record (f :: fs) => Yaml.fields 0 {} (f :: fs)
    | d => Yaml.fieldValue 0 {} d
  String.ofList (p.indent 0).written.reverse

end WidgetView
