/-!
# Ranges of code points

Sets of characters given by a list of ranges of code points, ends included. The lists are ascending,
so membership is decided by one pass that may stop early.
-/
namespace WidgetView.Text

def inRanges (c : Nat) : List (Nat × Nat) → Bool
  | [] => false
  | (low, high) :: rest => if c < low then false else c ≤ high || inRanges c rest

/-- Ranges that take every `step`-th code point: low end, high end, step. -/
def inSteps (c : Nat) : List (Nat × Nat × Nat) → Bool
  | [] => false
  | (low, high, step) :: rest =>
    if c < low then false else (c ≤ high && (c - low) % step == 0) || inSteps c rest

end WidgetView.Text
