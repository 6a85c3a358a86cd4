/-!
# Names of files

Names of files. A pathname is a root, `/` or `//` or nothing, and a list of parts. Empty parts and
parts that are a single dot are dropped when a name is read; a double dot stays. The empty name is
written as a single dot.
-/
namespace WidgetView

structure Pathname where
  root : String := ""
  parts : List String := []
  deriving DecidableEq, Repr

namespace Pathname

/-- The stretches between slashes. -/
def splitSlashes : List Char → List (List Char)
  | [] => [[]]
  | c :: cs =>
    if c = '/' then [] :: splitSlashes cs
    else
      match splitSlashes cs with
      | [] => [[c]]
      | part :: parts => (c :: part) :: parts

/-- Two leading slashes are a root of their own; one, or more than two, are the root `/`. -/
def rootOf : List Char → String
  | '/' :: '/' :: '/' :: _ => "/"
  | '/' :: '/' :: _ => "//"
  | '/' :: _ => "/"
  | _ => ""

def ofString (s : String) : Pathname :=
  ⟨rootOf s.toList,
    ((splitSlashes s.toList).filter fun part => part ≠ [] ∧ part ≠ ['.']).map String.ofList⟩

def toString (p : Pathname) : String :=
  if p.root = "" ∧ p.parts = [] then "." else p.root ++ "/".intercalate p.parts

instance : ToString Pathname := ⟨toString⟩

def isAbsolute (p : Pathname) : Bool := p.root ≠ ""

/-- The name `q` taken from the directory `p`. -/
def join (p q : Pathname) : Pathname :=
  if q.isAbsolute then q else ⟨p.root, p.parts ++ q.parts⟩

def parent (p : Pathname) : Pathname := ⟨p.root, p.parts.dropLast⟩

/-- The last part, or nothing. -/
def name (p : Pathname) : String := p.parts.getLastD ""

end Pathname

end WidgetView
