/-!
# Places in a source text

Places in a source text. Offsets count characters from zero, lines and columns from one, and only
the line feed ends a line.
-/
namespace WidgetView

structure Place where
  offset : Nat := 0
  line : Nat := 1
  column : Nat := 1
  deriving DecidableEq, Repr

namespace Place

/-- The place just after a character that stands at `p`. -/
def next (p : Place) (c : Char) : Place :=
  if c = '\n' then ⟨p.offset + 1, p.line + 1, 1⟩ else ⟨p.offset + 1, p.line, p.column + 1⟩

/-- The place just after a text that starts at `p`. -/
def after (p : Place) (cs : List Char) : Place := cs.foldl next p

@[simp] theorem after_nil (p : Place) : p.after [] = p := rfl

@[simp] theorem after_cons (p : Place) (c : Char) (cs : List Char) :
    p.after (c :: cs) = (p.next c).after cs := rfl

@[simp] theorem after_append (p : Place) (cs ds : List Char) :
    p.after (cs ++ ds) = (p.after cs).after ds := by simp [after]

@[simp] theorem offset_next (p : Place) (c : Char) : (p.next c).offset = p.offset + 1 := by
  by_cases h : c = '\n' <;> simp [next, h]

@[simp] theorem offset_after (p : Place) (cs : List Char) :
    (p.after cs).offset = p.offset + cs.length := by
  induction cs generalizing p with
  | nil => rfl
  | cons c cs ih => simp [ih]; omega

/-- Every line feed passed begins a line. -/
theorem line_after (p : Place) (cs : List Char) :
    (p.after cs).line = p.line + cs.count '\n' := by
  induction cs generalizing p with
  | nil => rfl
  | cons c cs ih =>
    by_cases h : c = '\n'
    · simp [ih, next, h]; omega
    · simp [ih, next, h]

end Place

/-- Where a token begins, and the offsets just before and just after it. -/
structure Span where
  line : Nat
  column : Nat
  start : Nat
  stop : Nat
  deriving DecidableEq, Repr

def Place.spanTo (p q : Place) : Span := ⟨p.line, p.column, p.offset, q.offset⟩

end WidgetView
