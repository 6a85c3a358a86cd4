import WidgetView.Command.Console
import WidgetView.Fuzz.Run

/-!
# The fuzz command

The fuzz command: run the fuzzer for a time or for ever, with draws that depend on a seed. Without a
seed the time is the seed.
-/
namespace WidgetView.Command

def refuseDecimal (value : String) : Option String :=
  match Text.parseDecimal? value.toList with
  | some _ => none
  | none => some s!"invalid float value: {Text.quote value}"

def refuseInt (value : String) : Option String :=
  match Text.parseInt? value.toList with
  | some _ => none
  | none => some s!"invalid int value: {Text.quote value}"

def fuzzSpec : Spec where
  program := "fuzz_view_parser.py"
  usage := "usage: fuzz_view_parser.py [-h] [--duration DURATION] [--seed SEED]\n"
  details :=
    "Fuzz the widget view parser\n\n" ++
    "options:\n" ++
    "  -h, --help           show this help message and exit\n" ++
    "  --duration DURATION  Duration in minutes (default: run forever)\n" ++
    "  --seed SEED          Random seed for reproducibility\n"
  options :=
    [helpOption, ⟨["--duration"], .value refuseDecimal⟩, ⟨["--seed"], .value refuseInt⟩]
  operands := .none

def Arguments.duration? (a : Arguments) : Option Fuzz.Duration :=
  ((a.value? "--duration").bind fun v => Text.parseDecimal? v.toList).map fun d =>
    .decimal (Number.nearestFloat d)

def Arguments.seed? (a : Arguments) : Option Int :=
  (a.value? "--seed").bind fun v => Text.parseInt? v.toList

/-- Run the fuzz command, with draws made from a seed; the result is its exit status and the
findings. -/
def fuzz (args : List String) (clock : Fuzz.Clock) (draws : Int → Fuzz.Draws) :
    Job (Nat × List Fuzz.Finding) := do
  match read fuzzSpec args with
  | .error e => return (← stop fuzzSpec e, [])
  | .ok a =>
    let (seed, clock) := match a.seed? with
      | some n => (n, clock)
      | none => (Number.truncate clock.next.now, clock.next)
    print s!"Random seed: {seed}"
    let begun : Fuzz.Campaign :=
      { setup := { files := ← getFiles }, draws := draws seed, clock := clock }
    let c := begun.run a.duration?
    printText c.out
    return (0, c.log.findings)

end WidgetView.Command
