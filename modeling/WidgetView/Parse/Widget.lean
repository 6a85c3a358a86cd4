import WidgetView.NameIndex
import WidgetView.Parse.Entry

/-!
# Widgets

Widgets: the recursion over declarations and their bodies. The name of a widget is drawn as soon as
its path is known, before anything else of it is read, and names drawn stay drawn when an error
follows. The parents that widgets ask for are noted by widget name when the widget is complete.
-/
namespace WidgetView

/-- What parsing carries along: the index of names, and the parents asked for so far. -/
structure Session where
  names : NameIndex := {}
  parents : Table String String := {}
  deriving Repr, DecidableEq

namespace Parse

/-- A parsing step: it may fail, and the session stays as it was left. -/
abbrev Step (α : Type) := EStateM ParseError Session α

def Step.ofExcept {α : Type} : Except ParseError α → Step α
  | .ok a => pure a
  | .error e => throw e

def drawName (path : WidgetPath) : Step String :=
  modifyGet fun st => ((st.names.next path).1, { st with names := (st.names.next path).2 })

def noteParent (w : Widget) : Step Unit :=
  modify fun st =>
    match w.parent with
    | none => st
    | some p => { st with parents := st.parents.insert w.name p }

mutual

/-- The view of a declaration whose attributes and name have been read. -/
def declared (d : Declaration) : Step View := do
  let name ← drawName d.path
  let shell ← Step.ofExcept d.shell
  let found ← entries d.path.sort shell.bodyStop d.body
  let view := d.view name shell.init found
  noteParent view.value
  return view
termination_by 2 * sizeOf d.body + 1

/-- The entries of a body, each with an optional comma after it. -/
def entries (sort : WidgetSort) (stop : Nat × Nat) (ts : List Token) : Step (List Entry) :=
  match ts with
  | [] => return []
  | t :: ts =>
    if startsChild sort (t :: ts) then
      match _h : declaration stop (t :: ts) with
      | .error e => throw e
      | .ok d => do
        let view ← declared d
        let more ← entries sort stop (skipComma d.rest)
        return .child view :: more
    else
      match t.ident? with
      | none => throw (ParseError.expected stop (t :: ts) .identifier)
      | some name =>
        match _h : plainEntry stop sort name t.span.position ts with
        | .error e => throw e
        | .ok (entry, rest) => do
          let more ← entries sort stop (skipComma rest)
          return entry :: more
termination_by 2 * sizeOf ts
decreasing_by
  · have := (declaration_skipComma_within ‹_›).1
    omega
  · have := (declaration_skipComma_within ‹_›).2
    omega
  · have := plainEntry_skipComma_within ‹_› t
    omega

end

/-- The one view of a run of tokens, with an optional comma after it. -/
def root (ts : List Token) : Step View :=
  match declaration (endOf ts) ts with
  | .error e => throw e
  | .ok d => do
    let view ← declared d
    match skipComma d.rest with
    | [] => return view
    | t :: _ => throw (ParseError.atToken (.afterRoot t) t)

end Parse

end WidgetView
