import WidgetView.View

/-!
# Resolution of parents

Resolution of parents: every widget that asks for a parent is moved under the widget of that name,
the last one if several have it. The nodes of the tree are numbered first, so that a widget stays
the same through all moves; the moves are then made one after another.
-/
namespace WidgetView

namespace Tree

variable {α : Type}

mutual

/-- Number the nodes in the order of `toList`, from `n` on; the second part is the next number. -/
def number (n : Nat) : Tree α → Tree (Nat × α) × Nat
  | node a ts =>
    let r := numberForest (n + 1) ts
    (node (n, a) r.1, r.2)

def numberForest (n : Nat) : List (Tree α) → List (Tree (Nat × α)) × Nat
  | [] => ([], n)
  | t :: ts =>
    let r := number n t
    let s := numberForest r.2 ts
    (r.1 :: s.1, s.2)

end

mutual

/-- All subtrees, in the order of their roots in `toList`. -/
def subtrees : Tree α → List (Tree α)
  | node a ts => node a ts :: forestSubtrees ts

def forestSubtrees : List (Tree α) → List (Tree α)
  | [] => []
  | t :: ts => t.subtrees ++ forestSubtrees ts

end

mutual

/-- Take out the subtrees whose root satisfies `p`, the root of the whole excepted. -/
def prune (p : α → Bool) : Tree α → Tree α
  | node a ts => node a (pruneForest p ts)

def pruneForest (p : α → Bool) : List (Tree α) → List (Tree α)
  | [] => []
  | t :: ts => if p t.value then pruneForest p ts else t.prune p :: pruneForest p ts

end

mutual

/-- Add a tree as the last child of every node that satisfies `p`. -/
def graft (p : α → Bool) (u : Tree α) : Tree α → Tree α
  | node a ts => node a (graftForest p u ts ++ if p a then [u] else [])

def graftForest (p : α → Bool) (u : Tree α) : List (Tree α) → List (Tree α)
  | [] => []
  | t :: ts => graft p u t :: graftForest p u ts

end

end Tree

/-- Parents asked for, by the name of the widget that asks. -/
def parentTable (v : View) : Table String String :=
  .ofList (v.widgets.filterMap fun w => w.parent.map fun p => (w.name, p))

inductive ResolveFault where
  | unknownParent (name parent : String)
  | rootMoved (name : String)
  | ownSubtree (name : String)
  deriving DecidableEq, Repr

def ResolveFault.message : ResolveFault → String
  | unknownParent n p => s!"Widget '{n}' has unknown parent '{p}'"
  | rootMoved n => s!"Root widget '{n}' cannot be reparented"
  | ownSubtree n => s!"Widget '{n}' cannot be reparented under its own subtree"

namespace Resolve

/-- A view whose widgets carry their numbers. -/
abbrev Numbered := Tree (Nat × Widget)

/-- The number of the last widget of a name. -/
def named? (widgets : List (Nat × Widget)) (name : String) : Option Nat :=
  (widgets.reverse.find? fun w => w.2.name = name).map Prod.fst

/-- The widgets to move: for each widget in order, those of its children that ask for a parent. -/
def movers (t : Numbered) : List (Nat × Widget) :=
  t.subtrees.flatMap fun s => (s.children.map Tree.value).filter fun w => w.2.parent.isSome

def subtree? (t : Numbered) (k : Nat) : Option Numbered :=
  t.subtrees.find? fun s => s.value.1 = k

/-- Move the widget of number `k` to the end of the children of widget `target`. -/
def move (t : Numbered) (k target : Nat) : Numbered :=
  match subtree? t k with
  | none => t
  | some s => Tree.graft (fun w => w.1 = target) s (t.prune fun w => w.1 = k)

/-- Whether widget `target` lies in the subtree of widget `k`. -/
def isBelow (t : Numbered) (k target : Nat) : Bool :=
  match subtree? t k with
  | none => false
  | some s => s.toList.any fun w => w.1 = target

def moveAll (widgets : List (Nat × Widget)) (t : Numbered) :
    List (Nat × Widget) → Except ResolveFault Numbered
  | [] => .ok t
  | (k, w) :: rest =>
    match w.parent with
    | none => moveAll widgets t rest
    | some p =>
      match named? widgets p with
      | none => .error (.unknownParent w.name p)
      | some target =>
        if isBelow t k target then .error (.ownSubtree w.name)
        else moveAll widgets (move t k target) rest

end Resolve

/-- The view with every request for a parent carried out. The root lies above all widgets, so that a
request of the root can never be met. -/
def resolve (v : View) : Except ResolveFault View :=
  let t := (v.number 0).1
  let widgets := t.toList
  match v.value.parent with
  | some p =>
    match Resolve.named? widgets p with
    | none => .error (.unknownParent v.value.name p)
    | some _ => .error (.rootMoved v.value.name)
  | none => (Resolve.moveAll widgets t (Resolve.movers t)).map (Tree.map Prod.snd)

end WidgetView
