import WidgetView.Diagnostic
import WidgetView.View

/-!
# Validation

Validation: what the grammar cannot express. Names are distinct, parents and targets exist, messages
go to composed widgets, and child properties are those that box containers know.
-/
namespace WidgetView

/-- Child properties that a box container understands. -/
def boxChildProperties : List String := ["expand", "fill", "pack_type", "padding", "position"]

namespace Validate

/-- Widgets by name, the first of a name, and the errors about the others. -/
def declareAll (known : Table String Widget) : List Widget → Table String Widget × Report
  | [] => (known, .empty)
  | w :: ws =>
    if known.contains w.name then
      let r := declareAll known ws
      (r.1, Report.error (.duplicateName w.name) w.line w.column none ++ r.2)
    else declareAll (known.insert w.name w) ws

def root (w : Widget) (known : Table String Widget) : Report :=
  match w.parent with
  | none => .empty
  | some p =>
    if known.contains p ∧ p ≠ w.name then .error (.rootMoved w.name) w.line w.column none
    else .empty

def parent (w : Widget) (known : Table String Widget) : Report :=
  match w.parent with
  | none => .empty
  | some p =>
    if p = w.name then .error (.ownParent w.name) w.line w.column none
    else if known.contains p then .empty
    else
      let suggestion := Fix.obvious? p known.keys w.line
      .error (.unknownParent w.name p suggestion) w.line w.column none

def event (w : Widget) (known : Table String Widget) (signal : String) (e : Event) : Report :=
  match e.target with
  | none => .empty
  | some t =>
    match known.get? t.name with
    | none =>
      let fix := Fix.obvious? t.name known.keys t.line
      .error (.unknownTarget signal w.name t.name fix) t.line t.column fix
    | some target =>
      if target.isToolkit then .warning (.deafTarget signal w.name t.name) e.line e.column none
      else .empty

def events (w : Widget) (known : Table String Widget) : Report :=
  .join (w.events.map fun (signal, e) => event w known signal e)

def childProperties (w : Widget) : Report :=
  .join (w.childProperties.entries.map fun (name, e) =>
    if name ∈ boxChildProperties then .empty
    else
      let fix := Fix.obvious? name boxChildProperties e.line
      .warning (.unknownChildProperty name w.name fix) e.line e.column fix)

def container (w : Widget) : Report :=
  if w.container.isSome ∧ w.isComposed then .warning (.idleContainer w.name) w.line w.column none
  else .empty

def widget (known : Table String Widget) (w : Widget) : Report :=
  parent w known ++ events w known ++ childProperties w ++ container w

end Validate

/-- Everything that validation has to say about a view. -/
def validate (v : View) : Report :=
  let (known, duplicates) := Validate.declareAll {} v.widgets
  duplicates ++ Validate.root v.value known ++ .join (v.widgets.map (Validate.widget known))

structure ValidationFailed where
  report : Report

def ValidationFailed.message (e : ValidationFailed) : String :=
  s!"View validation failed:\n{e.report.text}"

/-- The report of a view, or a failure if there are errors and they are to be raised. -/
def validateOrFail (v : View) (raise : Bool) : Except ValidationFailed Report :=
  let r := validate v
  if r.hasErrors && raise then .error ⟨r⟩ else .ok r

end WidgetView
