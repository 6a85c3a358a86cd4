import WidgetView.Command.Console
import WidgetView.Dump.Json
import WidgetView.Dump.Yaml
import WidgetView.Resolve

/-!
# The dump command

The dump command: write the widgets of a view file as YAML or as JSON, with the requests for parents
carried out if that is asked for.
-/
namespace WidgetView.Command

def dumpFormats : List String := ["yaml", "json"]

/-- Refuse a value that is not among the choices. -/
def refuseOther (choices : List String) (value : String) : Option String :=
  if value ∈ choices then none
  else
    let shown := ", ".intercalate (choices.map Text.quote)
    some s!"invalid choice: {Text.quote value} (choose from {shown})"

def dumpSpec : Spec where
  program := "view_converter.py"
  usage := "usage: view_converter.py [-h] [--format \x7byaml,json\x7d] [--resolve-parents] file\n"
  details :=
    "Dump the parsed widget tree of a view file.\n\n" ++
    "positional arguments:\n" ++
    "  file                  View file to convert\n\n" ++
    "options:\n" ++
    "  -h, --help            show this help message and exit\n" ++
    "  --format \x7byaml,json\x7d  Output format (default: yaml)\n" ++
    "  --resolve-parents     Apply #[parent=...] reparenting before dumping\n"
  options :=
    [helpOption, ⟨["--format"], .value (refuseOther dumpFormats)⟩, ⟨["--resolve-parents"], .flag⟩]
  operands := .one "file"

/-- The view to dump, or the text of what went wrong with it. -/
def dumpView (path : Pathname) (resolved : Bool) : Job (Except String View) := do
  match (Source.viewOfFile (← getFiles) path {}).1 with
  | .error (.file e) => if e.isRefusal then throw (.file e) else return .error e.message
  | .error e => return .error e.message
  | .ok v =>
    if resolved then
      match resolve v with
      | .error e => return .error e.message
      | .ok r => return .ok r
    else return .ok v

/-- Run the dump command; the result is its exit status. -/
def dump (args : List String) : Job Nat := do
  match read dumpSpec args with
  | .error e => stop dumpSpec e
  | .ok a =>
    let path := Pathname.ofString (a.operands.headD "")
    if ¬ (← orInterrupt ((← getFiles).exists? path)) then
      complain s!"Error: File not found: {path}"
      return 1
    else
      match ← dumpView path (a.has "--resolve-parents") with
      | .error message =>
        complain s!"{path}: error: {message}"
        return 1
      | .ok v =>
        let document := Document.ofView v
        if a.value? "--format" = some "json" then print document.json
        else printText document.yaml
        return 0

end WidgetView.Command
