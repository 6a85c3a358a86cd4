import WidgetView.Diagnostic
import WidgetView.Fix.Template
import WidgetView.Pathname
import WidgetView.Table
import WidgetView.Text.Lines
import WidgetView.Text.Word

/-!
# Applying fixes

Applying fixes. A fix replaces the first whole word on its line that equals its old text; its new
text is a template. Fixes for one line are applied one after another, and a fix for a line that does
not exist has no effect.
-/
namespace WidgetView

namespace Text

/-- A place between two characters of which exactly one is a word character. -/
def isBoundary (before after : Option Char) : Bool :=
  (before.map isWord).getD false != (after.map isWord).getD false

/-- Split a text at the first place where a word stands between two boundaries: what precedes the
word and what follows it. `before` is the character in front of the text. -/
def splitAtWord? (word : List Char) (before : Option Char) :
    List Char → Option (List Char × List Char)
  | [] => if word = [] ∧ isBoundary before none then some ([], []) else none
  | c :: cs =>
    let rest := (c :: cs).drop word.length
    if isBoundary before (some c) ∧ word <+: c :: cs ∧
        isBoundary (word.getLast?.or before) rest.head? then some ([], rest)
    else (splitAtWord? word (some c) cs).map fun r => (c :: r.1, r.2)

end Text

namespace Fix

/-- Apply a fix to its line. The template is read even if there is nothing to replace. -/
def applyToLine (line : List Char) (f : Fix) : Except TemplateError (List Char) :=
  match Template.parse f.newText with
  | .error e => .error e
  | .ok ps =>
    match Text.splitAtWord? f.oldText.toList none line with
    | none => .ok line
    | some (before, after) => .ok (before ++ Template.expand f.oldText.toList ps ++ after)

def applyAllToLine (line : List Char) : List Fix → Except TemplateError (List Char)
  | [] => .ok line
  | f :: fs =>
    match applyToLine line f with
    | .error e => .error e
    | .ok line => applyAllToLine line fs

/-- The fixes of every line, the lines in the order in which they are first named. -/
def byLine (lineCount : Nat) (fixes : List Fix) : Table Int (List Fix) :=
  (fixes.filter fun f => 0 < f.line ∧ f.line ≤ (lineCount : Int)).foldl
    (fun t f => t.update f.line [] (· ++ [f])) {}

/-- Apply groups of fixes, each to the line that it is for. -/
def applyGroups (lines : List (List Char)) :
    List (Int × List Fix) → Except TemplateError (List (List Char))
  | [] => .ok lines
  | (n, fs) :: groups =>
    let i := n.toNat - 1
    match applyAllToLine (lines.getD i []) fs with
    | .error e => .error e
    | .ok line => applyGroups (lines.set i line) groups

end Fix

/-- The source with all fixes applied. -/
def applyFixes (source : List Char) (fixes : List Fix) : Except TemplateError (List Char) :=
  let lines := Text.splitLines source
  match Fix.applyGroups lines (Fix.byLine lines.length fixes).entries with
  | .error e => .error e
  | .ok lines => .ok (Text.joinLines lines)

/-- The file that keeps the text from before the fixes. -/
def backupPath (p : Pathname) : Pathname := p.parent.join (Pathname.ofString s!".{p.name}.bak")

end WidgetView
