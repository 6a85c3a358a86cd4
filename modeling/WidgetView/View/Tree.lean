/-!
# Trees

Trees with a value at every node and the children in order.
-/
namespace WidgetView

inductive Tree (α : Type) where
  | node (value : α) (children : List (Tree α))
  deriving Repr

namespace Tree

variable {α β : Type}

def value : Tree α → α
  | node a _ => a

def children : Tree α → List (Tree α)
  | node _ ts => ts

mutual

/-- The values of a tree, every node before its children and the children in order. -/
def toList : Tree α → List α
  | node a ts => a :: forestToList ts

def forestToList : List (Tree α) → List α
  | [] => []
  | t :: ts => t.toList ++ forestToList ts

end

mutual

def map (f : α → β) : Tree α → Tree β
  | node a ts => node (f a) (forestMap f ts)

def forestMap (f : α → β) : List (Tree α) → List (Tree β)
  | [] => []
  | t :: ts => t.map f :: forestMap f ts

end

@[simp] theorem toList_node (a : α) (ts : List (Tree α)) :
    (node a ts).toList = a :: forestToList ts := by simp [toList]

@[simp] theorem forestToList_nil : forestToList ([] : List (Tree α)) = [] := by
  simp [forestToList]

@[simp] theorem forestToList_cons (t : Tree α) (ts : List (Tree α)) :
    forestToList (t :: ts) = t.toList ++ forestToList ts := by simp [forestToList]

@[simp] theorem forestToList_append (ts us : List (Tree α)) :
    forestToList (ts ++ us) = forestToList ts ++ forestToList us := by
  induction ts with
  | nil => simp
  | cons t ts ih => simp [ih]

theorem value_mem_toList (t : Tree α) : t.value ∈ t.toList := by
  cases t; simp [value]

mutual

@[simp] theorem toList_map (f : α → β) : (t : Tree α) → (t.map f).toList = t.toList.map f
  | node a ts => by simp [map, forestToList_forestMap f ts]

@[simp] theorem forestToList_forestMap (f : α → β) :
    (ts : List (Tree α)) → forestToList (forestMap f ts) = (forestToList ts).map f
  | [] => by simp [forestMap]
  | t :: ts => by simp [forestMap, toList_map f t, forestToList_forestMap f ts]

end

end Tree

end WidgetView
