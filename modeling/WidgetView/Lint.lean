import WidgetView.Command.Console
import WidgetView.Validate

/-!
# Linting

Linting of view files. The diagnostics of a view are printed under the file that its widgets come
from. With fixing, the fixes are applied to that file, its text is kept in a backup beside it, and
the view is linted once more without fixing.
-/
namespace WidgetView.Lint

open WidgetView.Command

/-- Errors, warnings, and diagnostics with a fix. -/
structure Counts where
  errors : Nat := 0
  warnings : Nat := 0
  fixes : Nat := 0
  deriving DecidableEq, Repr

def Counts.add (a b : Counts) : Counts :=
  ⟨a.errors + b.errors, a.warnings + b.warnings, a.fixes + b.fixes⟩

/-- A view that was read: the file it comes from, the text of that file, and the report. -/
structure Checked where
  origin : Pathname
  source : List Char
  report : Report

def diagnosticLine (origin : Pathname) (d : Diagnostic) : String :=
  let place := if d.line = 0 then "" else s!":{d.line}"
  let mark := if d.fix.isSome then " [fixable]" else ""
  s!"{origin}{place}: {d.severity.name}: {d.message}{mark}"

/-- Read and validate a view. A file that is missing, or that does not parse, counts as one
error. -/
def check (path : Pathname) : Job (Except Counts Checked) := do
  let files ← getFiles
  match files.readText path with
  | .error (.missing _) =>
    print s!"{path}: file not found"
    return .error ⟨1, 0, 0⟩
  | .error e => throw (.file e)
  | .ok source =>
    match (Source.viewOfFile files path {}).1, Source.origin files path with
    | .error (.file e), _ => throw (.file e)
    | .error e, _ | _, .error e =>
      print s!"{path}: parse error: {e.message}"
      return .error ⟨1, 0, 0⟩
    | .ok view, .ok origin =>
      let text ← if origin = path then pure source else readFile origin
      return .ok ⟨origin, text, validate view⟩

def report (c : Checked) : Job Counts := do
  printAll ((c.report.errors ++ c.report.warnings).map (diagnosticLine c.origin))
  return ⟨c.report.errors.length, c.report.warnings.length, c.report.fixes.length⟩

def checkOnly (path : Pathname) : Job Counts := do
  match ← check path with
  | .error counts => return counts
  | .ok c => report c

/-- Write a fixed text, with the text before it in a backup. -/
def replaceFile (c : Checked) (fixed : List Char) : Job Unit := do
  let backup := backupPath c.origin
  writeFile backup c.source
  writeFile c.origin fixed
  print s!"{c.origin}: applied {c.report.fixes.length} fix(es)"
  print s!"  Pre-fix backup: {backup}"

def checkAndFix (path : Pathname) : Job Counts := do
  match ← check path with
  | .error counts => return counts
  | .ok c =>
    if c.report.fixes = [] then report c
    else
      match applyFixes c.source c.report.fixes with
      | .error e => throw (.template e)
      | .ok fixed =>
        if fixed = c.source then report c
        else
          replaceFile c fixed
          checkOnly path

def file (path : Pathname) (fix : Bool) : Job Counts :=
  if fix then checkAndFix path else checkOnly path

def files (fix : Bool) : List Pathname → Job Counts
  | [] => return {}
  | p :: ps => do
    let a ← file p fix
    let b ← files fix ps
    return a.add b

end WidgetView.Lint
