import WidgetView.Text.Case

/-!
# Paths of widget types

Qualified names of widget types, such as `gtk::Button` or `Counter<i32>`. The generics belong to the
last segment and are kept as text, angle brackets included.
-/
namespace WidgetView

structure WidgetPath where
  segments : List String
  generics : Option String := none
  line : Nat := 0
  column : Nat := 0
  deriving DecidableEq, Repr

/-- Why a path has no last segment, or a last segment no first letter. -/
inductive PathFault where
  | noSegment | emptySegment
  deriving DecidableEq, Repr

def PathFault.message : PathFault → String
  | noSegment => "list index out of range"
  | emptySegment => "string index out of range"

namespace WidgetPath

def text (p : WidgetPath) : String := "::".intercalate p.segments ++ p.generics.getD ""

def lastSegment (p : WidgetPath) : String := p.segments.getLastD ""

def isQualified (p : WidgetPath) : Bool := p.segments.length > 1

/-- The last segment starts with a small letter. -/
def endsLowercase (p : WidgetPath) : Bool :=
  match p.lastSegment.toList with
  | [] => false
  | c :: _ => Text.isLowercase c

/-- A path of several segments, or one that ends in small letters, names a toolkit type. -/
def isToolkit (p : WidgetPath) : Bool := p.isQualified || p.endsLowercase

def fault? (p : WidgetPath) : Option PathFault :=
  if p.segments = [] then some .noSegment
  else if p.lastSegment = "" then some .emptySegment
  else none

/-- The stem of generated names: the last segment in lower case. -/
def stem (p : WidgetPath) : String := String.ofList (Text.lower p.lastSegment.toList)

end WidgetPath

end WidgetView
