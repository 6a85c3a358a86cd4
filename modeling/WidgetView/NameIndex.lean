import WidgetView.Table
import WidgetView.View.Path

/-!
# Generated names

Generated names. An index counts, for every stem, how many names have been drawn; the next name is
the stem followed by the next number. One index may serve several views, so that their names differ.
-/
namespace WidgetView

structure NameIndex where
  counters : Table String Nat := {}
  deriving DecidableEq, Repr

namespace NameIndex

/-- How many names have been drawn for a stem. -/
def count (n : NameIndex) (stem : String) : Nat := (n.counters.get? stem).getD 0

def next (n : NameIndex) (p : WidgetPath) : String × NameIndex :=
  let number := n.count p.stem + 1
  (p.stem ++ toString number, ⟨n.counters.insert p.stem number⟩)

def reset (_ : NameIndex) : NameIndex := {}

@[simp] theorem count_next_same (n : NameIndex) (p : WidgetPath) :
    (n.next p).2.count p.stem = n.count p.stem + 1 := by simp [next, count]

theorem count_next_other (n : NameIndex) (p : WidgetPath) (stem : String) (h : stem ≠ p.stem) :
    (n.next p).2.count stem = n.count stem := by
  simp [next, count, Table.get?_insert_other _ _ _ _ h]

@[simp] theorem count_reset (n : NameIndex) (stem : String) : n.reset.count stem = 0 := rfl

end NameIndex

end WidgetView
