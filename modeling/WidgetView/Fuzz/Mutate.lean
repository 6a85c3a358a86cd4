import WidgetView.Fuzz.Generate
import WidgetView.Token.Nest

/-!
# Mutations

Mutations: small edits of a text at a random place. Some work on characters, some on the groups of
the token trees; an edit that finds nothing to work on leaves the text as it is.
-/
namespace WidgetView.Fuzz

inductive Mutation where
  | insertRandom | deleteChunk | repeatChunk | insertSpecial | dropCloser | swapPathSeparator
  | swapArrow | dropDispatch | unwrapGroup | duplicateGroup
  deriving DecidableEq, Repr

def keywords : List String :=
  ["with", "return", "name", "container", "parent", "view", "self", "model"]

def operators : List String :=
  ["::", "=>", "->", "@", ":", ",", "#", "!", "&", "<", ">", "=", ".", "..", ";"]

def brackets : List String := ["(", ")", "[", "]", "\x7b", "\x7d"]

/-- Texts that the lexers treat specially. -/
def specials : List String := [
  "\x00", "\r\n", "α", "\\", "\x22", "'''", "/*", "*/", "//", "<<>>", "'a", "r#"]

namespace Mutation

/-- All mutations, in the order in which one of them is chosen. -/
def all : List Mutation := [
  insertRandom, deleteChunk, repeatChunk, insertSpecial, dropCloser, swapPathSeparator, swapArrow,
  dropDispatch, unwrapGroup, duplicateGroup]

def insertAt (s : List Char) (position : Nat) (text : List Char) : List Char :=
  s.take position ++ text ++ s.drop position

/-- Something to insert. One of every sort is drawn, and then one of the sorts. -/
def randomInsertion : Gen String := do
  let keyword ← choose keywords
  let operator ← choose operators
  let bracket ← choose brackets
  let name ← identifier
  let value ← literal
  let blanks ← betweenNat 1 5
  choose [keyword, operator, bracket, name, value, String.ofList (List.replicate blanks ' '), "\n"]

def insert (insertion : Gen String) (s : List Char) : Gen (List Char) := do
  let position ← betweenNat 0 s.length
  let text ← insertion
  return insertAt s position text.toList

/-- A stretch that is not empty and at most `longest` characters long: its start and its end. -/
def chunk (longest : Nat) (s : List Char) : Gen (Nat × Nat) := do
  let start ← betweenNat 0 (s.length - 1)
  let stop ← betweenNat (start + 1) (min (start + longest) s.length)
  return (start, stop)

def delete (s : List Char) : Gen (List Char) := do
  if s.length < 2 then return s
  else
    let (start, stop) ← chunk 20 s
    return s.take start ++ s.drop stop

def repeated (s : List Char) : Gen (List Char) := do
  if s.length < 2 then return s ++ s
  else
    let (start, stop) ← chunk 10 s
    let count ← betweenNat 1 5
    let piece := (s.take stop).drop start
    return s.take stop ++ (List.replicate count piece).flatten ++ s.drop stop

/-- Positions from `i` on where a text occurs. -/
def occurrences (text : List Char) (i : Nat) : List Char → List Nat
  | [] => if text.isEmpty then [i] else []
  | c :: cs =>
    if text.isPrefixOf (c :: cs) then i :: occurrences text (i + 1) cs
    else occurrences text (i + 1) cs

def replaceOne (old : String) (replacements : List String) (s : List Char) : Gen (List Char) := do
  match occurrences old.toList 0 s with
  | [] => return s
  | ps =>
    let position ← choose ps
    let text ← choose replacements
    return s.take position ++ text.toList ++ s.drop (position + old.length)

/-- Positions of closing delimiters from `i` on. -/
def closers (i : Nat) : List Char → List Nat
  | [] => []
  | c :: cs =>
    if (Delimiter.ofClosing? c).isSome then i :: closers (i + 1) cs else closers (i + 1) cs

def dropOne (s : List Char) : Gen (List Char) := do
  match closers 0 s with
  | [] => return s
  | ps =>
    let position ← choose ps
    return s.take position ++ s.drop (position + 1)

mutual

/-- The spans of a group and of all groups in it, the last child first. -/
def groupsIn : Token → List Span
  | .leaf _ => []
  | .group _ cs s => s :: groupsInAll cs

def groupsInAll : List Token → List Span
  | [] => []
  | t :: ts => groupsInAll ts ++ groupsIn t

end

/-- The spans of all groups of a text; none if it is not accepted. -/
def groups (s : List Char) : List Span :=
  match tokenize s with
  | .ok ts => groupsInAll ts
  | .error _ => []

def unwrap (s : List Char) : Gen (List Char) := do
  match groups s with
  | [] => return s
  | gs =>
    let g ← choose gs
    return s.take g.start ++ (s.take (g.stop - 1)).drop (g.start + 1) ++ s.drop g.stop

def duplicate (s : List Char) : Gen (List Char) := do
  match groups s with
  | [] => return s
  | gs =>
    let g ← choose gs
    let separator ← choose ["", " ", ", "]
    return s.take g.stop ++ separator.toList ++ (s.take g.stop).drop g.start ++ s.drop g.stop

def apply : Mutation → List Char → Gen (List Char)
  | insertRandom => insert randomInsertion
  | deleteChunk => delete
  | repeatChunk => repeated
  | insertSpecial => insert (choose specials)
  | dropCloser => dropOne
  | swapPathSeparator => replaceOne "::" [":", ": :", ":::"]
  | swapArrow => replaceOne "=>" ["->", "=", "= >", ">=", "=>=>"]
  | dropDispatch => replaceOne "@" ["", "@@", " @ "]
  | unwrapGroup => unwrap
  | duplicateGroup => duplicate

end Mutation

def mutate (s : List Char) : Gen (List Char) := do
  let m ← choose Mutation.all
  m.apply s

end WidgetView.Fuzz
