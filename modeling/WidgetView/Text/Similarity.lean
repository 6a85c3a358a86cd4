/-!
# Similar texts

How alike two texts are. The longest common run is matched first, then what lies to its left and to
its right in the same way; twice the matched characters over all characters is the likeness. In a
long second text the characters that it repeats most do not begin a run, though a run may grow over
them.
-/
namespace WidgetView.Text

/-- A common run: where it starts in both texts, and its length. -/
structure Run where
  first : Nat := 0
  second : Nat := 0
  size : Nat := 0
  deriving DecidableEq, Repr

namespace Run

/-- For every position of `b`, the length of the common run that ends there and at `x`, from the
lengths that ended one character earlier. -/
def extendRow (x : Char) (anchors : Char → Bool) : Nat → List Nat → List Char → List Nat
  | _, _, [] => []
  | left, row, y :: ys =>
    (if x = y ∧ anchors y then left + 1 else 0) ::
      extendRow x anchors (row.headD 0) row.tail ys

/-- Take a run that ends before `i` and `j` if it is longer than the best so far. -/
def better (best : Run) (i : Nat) : Nat → List Nat → Run
  | _, [] => best
  | j, n :: ns => better (if n > best.size then ⟨i + 1 - n, j + 1 - n, n⟩ else best) i (j + 1) ns

def longestFrom (anchors : Char → Bool) (b : List Char) : Run → Nat → List Nat → List Char → Run
  | best, _, _, [] => best
  | best, i, row, x :: xs =>
    let row := extendRow x anchors 0 row b
    longestFrom anchors b (better best i 0 row) (i + 1) row xs

def commonPrefix : List Char → List Char → Nat
  | x :: xs, y :: ys => if x = y then commonPrefix xs ys + 1 else 0
  | _, _ => 0

/-- Grow a run to both sides as far as the texts agree. -/
def grow (r : Run) (a b : List Char) : Run :=
  let left := commonPrefix (a.take r.first).reverse (b.take r.second).reverse
  let right := commonPrefix (a.drop (r.first + r.size)) (b.drop (r.second + r.size))
  ⟨r.first - left, r.second - left, r.size + left + right⟩

/-- The longest common run, of several the one that starts first. -/
def longest (anchors : Char → Bool) (a b : List Char) : Run :=
  (longestFrom anchors b {} 0 [] a).grow a b

end Run

/-- The number of characters matched. -/
def matchedLength (anchors : Char → Bool) (a b : List Char) : Nat :=
  match Run.longest anchors a b with
  | ⟨i, j, n⟩ =>
    if _h : 0 < n ∧ i < a.length then
      matchedLength anchors (a.take i) (b.take j) + n +
        matchedLength anchors (a.drop (i + n)) (b.drop (j + n))
    else 0
termination_by a.length
decreasing_by
  · simp only [List.length_take]; omega
  · simp only [List.length_drop]; omega

/-- Length from which the frequent characters of a text are set aside. -/
def longText : Nat := 200

/-- In a long text, more occurrences than one in a hundred and one make a character frequent. -/
def isFrequent (b : List Char) (c : Char) : Bool :=
  longText ≤ b.length && b.length / 100 + 1 < b.count c

/-- At least four fifths of the characters of both texts are matched. -/
def isClose (a b : List Char) : Bool :=
  2 * (a.length + b.length) ≤ 5 * matchedLength (fun c => !isFrequent b c) a b

end WidgetView.Text
