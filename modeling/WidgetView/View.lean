import WidgetView.Table
import WidgetView.Token
import WidgetView.View.Path
import WidgetView.View.Tree

/-!
# Views

Views: trees of widgets. Property values and messages are opaque: an expression is a run of tokens,
never empty, that is passed on as it stands.
-/
namespace WidgetView

structure Expr where
  first : Token
  more : List Token := []
  deriving Repr, BEq

namespace Expr

def tokens (e : Expr) : List Token := e.first :: e.more

def text (e : Expr) : String := String.ofList (render e.tokens)

def line (e : Expr) : Nat := e.first.span.line

def column (e : Expr) : Nat := e.first.span.column

end Expr

/-- What a signal does with its message. -/
inductive Effect where
  /-- Send it. -/
  | fire (message : Expr)
  /-- Send it and answer the signal with the value. -/
  | callReturn (message : Expr)
  /-- Send one expression and answer the signal with the other. -/
  | paired (message answer : Expr)
  deriving Repr, BEq

def Effect.exprs : Effect → List Expr
  | fire e => [e]
  | callReturn e => [e]
  | paired e f => [e, f]

/-- Another widget that a message goes to, with the place of its name. -/
structure Target where
  name : String
  line : Nat
  column : Nat
  deriving DecidableEq, Repr

structure Event where
  params : List String
  model : Option String
  target : Option Target
  effect : Effect
  line : Nat
  column : Nat
  deriving Repr, BEq

/-- A toolkit widget has one handler per signal; a message of a composed widget may have several. -/
inductive WidgetKind where
  | toolkit (events : Table String Event) (save : Bool)
  | composed (events : Table String (List Event))
  deriving Repr

structure Container where
  childType : Option String
  deriving DecidableEq, Repr

/-- A widget without its children. -/
structure Widget where
  name : String
  path : WidgetPath
  kind : WidgetKind
  init : List Expr
  properties : Table String Expr
  childProperties : Table String Expr
  container : Option Container
  parent : Option String
  line : Nat
  column : Nat
  deriving Repr

namespace Widget

def isToolkit (w : Widget) : Bool :=
  match w.kind with
  | .toolkit _ _ => true
  | .composed _ => false

def isComposed (w : Widget) : Bool := !w.isToolkit

/-- All handlers with their signals, in order of declaration. -/
def events (w : Widget) : List (String × Event) :=
  match w.kind with
  | .toolkit events _ => events.entries
  | .composed events => events.entries.flatMap fun (signal, handlers) =>
      handlers.map fun e => (signal, e)

end Widget

abbrev View := Tree Widget

/-- The widgets of a view, every widget before its children. -/
def View.widgets (v : View) : List Widget := v.toList

end WidgetView
