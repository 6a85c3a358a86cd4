import WidgetView.Fuzz.Check
import WidgetView.Fuzz.Mutate
import WidgetView.Number.Binary
import WidgetView.Number.Shortest

/-!
# Runs of the fuzzer

A run of the fuzzer. Every iteration makes an input, new or by mutation of one in the corpus, and
checks it. Interesting inputs and a few others join the corpus, whose seeds stay in front. The run
ends when its time is over or no draws are left; since every iteration draws, it ends.
-/
namespace WidgetView.Fuzz

/-- Valid views that every corpus begins with. -/
def seeds : List String := [
  "gtk::Window \x7b \x7d",
  "gtk::Window \x7b gtk::Button \x7b label: \x22Hi\x22, clicked => Quit \x7d \x7d",
  "gtk::Window \x7b title: \x22Demo\x22, gtk::Box \x7b orientation: Vertical \x7d \x7d",
  "gtk::Button \x7b clicked(_) => Increment \x7d",
  "gtk::Entry \x7b changed(entry) => Change(entry.text().unwrap()) \x7d",
  "gtk::Entry \x7b changed(entry) with model => Change(model.id) \x7d",
  "gtk::Window \x7b delete_event(_, _) => (Quit, Inhibit(false)) \x7d",
  "gtk::Window \x7b key_press_event(_, key) => return (Key(key.clone()), Inhibit(false)) \x7d",
  "gtk::Button \x7b clicked => counter@Increment \x7d",
  "gtk::Box \x7b Counter \x7b Increment => Changed \x7d \x7d",
  "gtk::Box \x7b Counter(5), Text \x7d",
  "gtk::Box \x7b Counter<i32>(1, 2) \x7b value: 3 \x7d \x7d",
  "gtk::Box \x7b #[name=\x22label\x22] gtk::Label \x7b text: &model.text \x7d \x7d",
  "gtk::Box \x7b #[container] gtk::Box \x7b \x7d \x7d",
  "gtk::Box \x7b #[container=\x22gtk::Grid\x22] gtk::Grid \x7b \x7d \x7d",
  "gtk::Box \x7b #[parent=\x22other\x22] gtk::Label \x7b \x7d \x7d",
  "gtk::Box \x7b gtk::Label \x7b child: \x7b expand: true, padding: 5 \x7d \x7d \x7d",
  "gtk::Box \x7b relm::Widget \x7b \x7d \x7d",
  "Counter",
  "Counter \x7b Change(text) => label@SetText(text) \x7d",
  "gtk::Label \x7b text: 'x', lifetime: &'static str \x7d",
  "gtk::Label \x7b text: 1..2, width: 1.5e3 \x7d",
  "gtk::Box \x7b /* comment */ gtk::Label \x7b \x7d // trailing\n \x7d"]

/-- The corpus holds at most this many inputs. -/
def maxCorpus : Nat := 1000

/-- Longer inputs join the corpus only if they are interesting. -/
def maxPlainLength : Nat := 1000

/-- The statistics are printed after every so many iterations. -/
def reportEvery : Nat := 1000

/-- A clock that moves on by `tick` whenever it is read, and shows the time after that. -/
structure Clock where
  now : Float := 0.0
  tick : Float := 0.0

def Clock.next (c : Clock) : Clock := { c with now := c.now + c.tick }

/-- How long a run may take, in minutes. -/
inductive Duration where
  | whole (minutes : Int)
  | decimal (minutes : Float)

namespace Duration

/-- No time stands for a run without a limit. -/
def isUnlimited : Duration → Bool
  | whole n => n == 0
  | decimal x => x == 0.0

def text : Duration → String
  | whole n => toString n
  | decimal x => Number.floatText x

def seconds : Duration → Float
  | whole n => Number.nearestFloat (.finite (n < 0) (n * 60).natAbs 0)
  | decimal x => x * 60.0

end Duration

structure Campaign where
  setup : Setup := {}
  draws : Draws
  clock : Clock := {}
  started : Float := 0.0
  /-- The time after which no further iteration is done. -/
  deadline : Option Float := none
  corpus : List (List Char) := seeds.map String.toList
  log : Log := {}
  out : String := ""

abbrev Run (α : Type) := EStateM DrawFault Campaign α

def print (line : String) : Run Unit := modify fun c => { c with out := c.out ++ line ++ "\n" }

def printAll : List String → Run Unit
  | [] => return
  | line :: lines => do
    print line
    printAll lines

/-- Draws are used up also by a generator that fails. -/
def drawing {α : Type} (g : Gen α) : Run α := fun c =>
  match g c.draws with
  | .ok a d => .ok a { c with draws := d }
  | .error e d => .error e { c with draws := d }

def readClock : Run Float := do
  modify fun c => { c with clock := c.clock.next }
  return (← get).clock.now

/-- The statistics after some seconds. -/
def Log.statistics (l : Log) (elapsed : Float) : String :=
  let c := l.counts
  let rate := if elapsed > 0.0 then Float.ofNat c.iterations / elapsed else 0.0
  s!"[{Number.fixedFloat 1 elapsed}s] iterations={c.iterations} " ++
  s!"({Number.fixedFloat 0 rate}/s) | ok={c.accepted} reject={c.rejected} | " ++
  s!"crashes={c.crashes} timeouts={c.timeouts} mismatches={c.mismatches} " ++
  s!"disagree={c.disagreements} unique={l.findings.length}"

def printStatistics : Run Unit := do
  let now ← readClock
  let c ← get
  print (c.log.statistics (now - c.started))

/-- Set the clock going and say what will be done. -/
def start (duration : Option Duration) : Run Unit := do
  let now ← readClock
  let limited := duration.filter fun d => !d.isUnlimited
  modify fun c => { c with started := now, deadline := limited.map fun d => now + d.seconds }
  print s!"Starting fuzzer (seed corpus: {seeds.length} inputs)"
  let shown := match limited with
    | none => "unlimited"
    | some d => s!"{d.text} minutes"
  print s!"Duration: {shown}"
  print s!"Findings directory: {findingsDirectory}"
  print (String.ofList (List.replicate 60 '-'))

/-- A deadline at time zero counts as none, and then the clock is not read. -/
def timeIsOver : Run Bool := do
  match (← get).deadline with
  | none => return false
  | some d => if d == 0.0 then return false else return (← readClock) > d

/-- Between none and three mutations of an input. -/
def mutateSome (s : List Char) : Nat → Gen (List Char)
  | 0 => return s
  | n + 1 => do mutateSome (← mutate s) n

/-- The input that a draw asks for: in three of ten cases a random view, in four a mutated one from
the corpus, in three one from the corpus as it is. -/
def inputFor (corpus : List (List Char)) (n : Nat) : Gen (List Char) := do
  if n * 10 < 3 * drawRange then return (← view).toList
  else if n * 10 < 7 * drawRange then
    let base ← choose corpus
    let first ← mutate base
    mutateSome first (← betweenNat 0 3)
  else choose corpus

def nextInput (corpus : List (List Char)) : Gen (List Char) := do inputFor corpus (← draw)

/-- Check an input and say so if it is a new finding. -/
def checkInput (input : List Char) : Run Bool := do
  let c ← get
  let (interesting, log) := check c.setup c.log input
  set { c with log := log }
  printAll ((log.findingsSince c.log).map fun f => s!"\n[!] Saved finding: {f.filePattern}")
  return interesting

/-- Whether an input joins the corpus: always if it is interesting, or else one of a hundred. -/
def joins (interesting : Bool) (input : List Char) : Gen Bool := do
  if interesting then return true
  else return (← chance 1 100) && input.length < maxPlainLength

/-- Add an input to the corpus. If it is then too large, some input leaves that is no seed. -/
def addInput (corpus : List (List Char)) (input : List Char) : Gen (List (List Char)) := do
  let grown := corpus ++ [input]
  if maxCorpus < grown.length then
    return grown.eraseIdx (← betweenNat seeds.length (grown.length - 1))
  else return grown

def extend (interesting : Bool) (input : List Char) : Run Unit := do
  if ← drawing (joins interesting input) then
    let corpus ← drawing (addInput (← get).corpus input)
    modify fun c => { c with corpus := corpus }

/-- One iteration; false if it was not done because the time is over. -/
def iteration : Run Bool := do
  modify fun c => { c with log.counts := c.log.counts.nextIteration }
  if ← timeIsOver then return false
  else
    let input ← drawing (nextInput (← get).corpus)
    let interesting ← checkInput input
    extend interesting input
    if (← get).log.counts.iterations % reportEvery = 0 then printStatistics
    return true

/-- At most `n` iterations. -/
def iterations : Nat → Run Unit
  | 0 => return
  | n + 1 => do if ← iteration then iterations n

/-- Iterate until the time is over or the draws have run out. There cannot be more iterations than
draws and one more. -/
def campaign : Run Unit := do
  try iterations ((← get).draws.left + 1)
  catch
    | .exhausted => print "\n\nInterrupted by user"
    | fault => throw fault

def run (duration : Option Duration) : Run Unit := do
  start duration
  campaign
  print ("\n" ++ String.ofList (List.replicate 60 '='))
  print "Final Statistics:"
  printStatistics

/-- A run from its beginning; also what was done before a fault is kept. -/
def Campaign.run (c : Campaign) (duration : Option Duration) : Campaign :=
  match Fuzz.run duration c with
  | .ok _ c => c
  | .error _ c => c

end WidgetView.Fuzz
