import WidgetView.View

/-!
# Documents

Documents: what is written about a view when it is dumped. Positions are left out, and so is every
part of a widget that is empty.
-/
namespace WidgetView

inductive Document where
  | text (s : String)
  | flag (b : Bool)
  | list (items : List Document)
  | record (fields : List (String × Document))
  deriving Repr, BEq

namespace Document

def ofExpr (e : Expr) : Document := .text e.text

def ofEffect : Effect → Document
  | .fire e => .record [("kind", .text "fire"), ("message", ofExpr e)]
  | .callReturn e => .record [("kind", .text "call_return"), ("message", ofExpr e)]
  | .paired e f =>
    .record [("kind", .text "return"), ("message", ofExpr e), ("return", ofExpr f)]

def ofEvent (e : Event) : Document :=
  .record <|
    [("params", .list (e.params.map .text))]
    ++ (e.model.map fun m => ("with", .text m)).toList
    ++ (e.target.map fun t => ("target", .text t.name)).toList
    ++ [("effect", ofEffect e.effect)]

def ofEvents : WidgetKind → List (String × Document)
  | .toolkit events _ => events.entries.map fun (signal, e) => (signal, ofEvent e)
  | .composed events =>
    events.entries.map fun (signal, handlers) => (signal, .list (handlers.map ofEvent))

def ofKind : WidgetKind → List (String × Document)
  | .toolkit _ save =>
    ("kind", .text "toolkit") :: if save then [("save", .flag true)] else []
  | .composed _ => [("kind", .text "composed")]

/-- A container marker without a type, or with an empty one, is written as a flag. -/
def ofContainer (c : Container) : Document :=
  match c.childType with
  | none | some "" => .flag true
  | some s => .text s

def ofProperties (t : Table String Expr) : List (String × Document) :=
  t.entries.map fun (name, e) => (name, ofExpr e)

/-- A field that is written only if it holds something. -/
def listField (name : String) (items : List Document) : List (String × Document) :=
  if items.isEmpty then [] else [(name, .list items)]

def recordField (name : String) (fields : List (String × Document)) : List (String × Document) :=
  if fields.isEmpty then [] else [(name, .record fields)]

/-- The fields of a widget, all but the children. -/
def widgetFields (w : Widget) : List (String × Document) :=
  [("name", .text w.name), ("type", .text w.path.text)]
  ++ ofKind w.kind
  ++ listField "init" (w.init.map ofExpr)
  ++ recordField "properties" (ofProperties w.properties)
  ++ recordField "child_properties" (ofProperties w.childProperties)
  ++ recordField "events" (ofEvents w.kind)
  ++ (w.container.map fun c => ("container", ofContainer c)).toList
  ++ (w.parent.map fun p => ("parent", .text p)).toList

mutual

def ofView : Tree Widget → Document
  | .node w children => .record (widgetFields w ++ listField "children" (ofViews children))

def ofViews : List (Tree Widget) → List Document
  | [] => []
  | v :: vs => ofView v :: ofViews vs

end

end Document

end WidgetView
