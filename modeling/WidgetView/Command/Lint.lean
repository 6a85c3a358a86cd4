import WidgetView.Lint

/-!
# The lint command

The lint command: lint the files given and sum up what was found. The exit status is one if there
are errors.
-/
namespace WidgetView.Command

def lintSpec : Spec where
  program := "view_lint.py"
  usage := "usage: view_lint.py [-h] [--fix] [files ...]\n"
  details :=
    "Lint widget view files for errors and warnings.\n\n" ++
    "positional arguments:\n" ++
    "  files       Files to lint\n\n" ++
    "options:\n" ++
    "  -h, --help  show this help message and exit\n" ++
    "  --fix       Auto-fix obvious typos (widget names with a single close match)\n"
  options := [helpOption, ⟨["--fix"], .flag⟩]
  operands := .many

def lintSummary (counts : Lint.Counts) (fix : Bool) (paths : List Pathname) : Job Unit := do
  if counts.errors ≠ 0 ∨ counts.warnings ≠ 0 then
    print s!"\n{counts.errors} error(s), {counts.warnings} warning(s)"
    if counts.fixes > 0 ∧ ¬ fix then
      match paths with
      | [path] =>
        print s!"\n{counts.fixes} issue(s) can be auto-fixed. Run:"
        print s!"  python {lintSpec.program} --fix {path}"
      | _ => print s!"\n{counts.fixes} issue(s) can be auto-fixed. Run with --fix to apply."

/-- Run the lint command; the result is its exit status. -/
def lint (args : List String) : Job Nat := do
  match read lintSpec args with
  | .error e => stop lintSpec e
  | .ok a =>
    if a.operands = [] then
      printText lintSpec.help
      return 1
    else
      let paths := a.operands.map Pathname.ofString
      let fix := a.has "--fix"
      let counts ← Lint.files fix paths
      lintSummary counts fix paths
      return if counts.errors ≠ 0 then 1 else 0

end WidgetView.Command
