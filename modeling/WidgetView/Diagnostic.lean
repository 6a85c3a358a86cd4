import WidgetView.Text.Similarity

/-!
# Diagnostics

Diagnostics: what is wrong with a view, where, and how it may be mended. A fix replaces one word on
one line; it is proposed only when exactly one candidate is close to the word. Line zero stands for
an unknown place.
-/
namespace WidgetView

structure Fix where
  oldText : String
  newText : String
  line : Int := 0
  deriving DecidableEq, Repr

/-- The candidates that are close to a name. -/
def closeTo (name : String) (candidates : List String) : List String :=
  candidates.filter fun c => Text.isClose c.toList name.toList

/-- The fix for a name that is close to one candidate and no other. -/
def Fix.obvious? (name : String) (candidates : List String) (line : Int) : Option Fix :=
  match closeTo name candidates with
  | [candidate] => some ⟨name, candidate, line⟩
  | _ => none

inductive Severity where
  | error | warning
  deriving DecidableEq, Repr

def Severity.name : Severity → String
  | error => "error"
  | warning => "warning"

inductive Finding where
  | duplicateName (name : String)
  | rootMoved (name : String)
  | ownParent (name : String)
  | unknownParent (name parent : String) (suggestion : Option Fix)
  | unknownTarget (signal name target : String) (suggestion : Option Fix)
  | deafTarget (signal name target : String)
  | unknownChildProperty (property name : String) (suggestion : Option Fix)
  | idleContainer (name : String)
  | other (message : String)
  deriving DecidableEq, Repr

def didYouMean : Option Fix → String
  | none => ""
  | some f => s!" (did you mean '{f.newText}'?)"

def Finding.message : Finding → String
  | duplicateName n => s!"Duplicate widget name '{n}'"
  | rootMoved n => s!"Root widget '{n}' cannot be reparented"
  | ownParent n => s!"Widget '{n}' cannot be its own parent"
  | unknownParent n p f => s!"Widget '{n}' has unknown parent '{p}'{didYouMean f}"
  | unknownTarget s n t f => s!"Event '{s}' of '{n}' targets unknown widget '{t}'{didYouMean f}"
  | deafTarget s n t =>
    s!"Event '{s}' of '{n}' targets toolkit widget '{t}', which does not receive messages"
  | unknownChildProperty p n f => s!"Unknown child property '{p}' on '{n}'{didYouMean f}"
  | idleContainer n => s!"Container marker on composed widget '{n}' has no effect"
  | other m => m

structure Diagnostic where
  severity : Severity
  finding : Finding
  line : Int := 0
  column : Int := 0
  fix : Option Fix := none
  deriving DecidableEq, Repr

def Diagnostic.message (d : Diagnostic) : String := d.finding.message

def Diagnostic.text (d : Diagnostic) : String :=
  let place := if d.line = 0 then "unknown location" else s!"line {d.line}"
  s!"[{d.severity.name}] {place}: {d.message}"

/-- The errors and the warnings about a view, each in the order in which they were found. -/
structure Report where
  errors : List Diagnostic := []
  warnings : List Diagnostic := []
  deriving DecidableEq, Repr

namespace Report

def empty : Report := {}

def error (finding : Finding) (line column : Int) (fix : Option Fix) : Report :=
  ⟨[⟨.error, finding, line, column, fix⟩], []⟩

def warning (finding : Finding) (line column : Int) (fix : Option Fix) : Report :=
  ⟨[], [⟨.warning, finding, line, column, fix⟩]⟩

def append (r s : Report) : Report := ⟨r.errors ++ s.errors, r.warnings ++ s.warnings⟩

instance : Append Report := ⟨append⟩

def join (rs : List Report) : Report := rs.foldr append empty

def hasErrors (r : Report) : Bool := !r.errors.isEmpty

def hasWarnings (r : Report) : Bool := !r.warnings.isEmpty

def fixes (r : Report) : List Fix := (r.errors ++ r.warnings).filterMap (·.fix)

def text (r : Report) : String :=
  "\n".intercalate ((r.errors ++ r.warnings).map Diagnostic.text)

@[simp] theorem errors_append (r s : Report) : (r ++ s).errors = r.errors ++ s.errors := rfl

@[simp] theorem warnings_append (r s : Report) : (r ++ s).warnings = r.warnings ++ s.warnings := rfl

@[simp] theorem join_nil : join [] = empty := rfl

@[simp] theorem join_cons (r : Report) (rs : List Report) : join (r :: rs) = r ++ join rs := rfl

end Report

end WidgetView
