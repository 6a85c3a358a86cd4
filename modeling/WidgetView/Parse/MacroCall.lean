import WidgetView.Token

/-!
# Macro calls

Macro calls: `path! { ... }` with any delimiter, and perhaps a semicolon after it. A file that holds
one macro call and nothing else stands for the contents of the group.
-/
namespace WidgetView

namespace MacroCall

/-- Drop pairs of `::` and an identifier. -/
def dropSegments : List Token → List Token
  | t :: u :: ts => if t.isPunctOf "::" && u.isIdent then dropSegments ts else t :: u :: ts
  | ts => ts

/-- The contents of a group that is followed by nothing, or by one semicolon. -/
def loneGroup? : List Token → Option (List Token)
  | [.group _ cs _] => some cs
  | [.group _ cs _, t] => if t.isPunctOf ";" then some cs else none
  | _ => none

/-- The body of the macro call that a run of tokens consists of. -/
def body? : List Token → Option (List Token)
  | t :: ts =>
    if t.isIdent then
      match dropSegments ts with
      | u :: rest => if u.isPunctOf "!" then loneGroup? rest else none
      | [] => none
    else none
  | [] => none

end MacroCall

end WidgetView
