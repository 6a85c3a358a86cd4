import WidgetView.Fuzz.Finding
import WidgetView.Source
import WidgetView.Token.Terminal

/-!
# The check of one input

Both tokenizers read an input, and if the scanner accepts it the view is parsed. An input that is
accepted or properly rejected is no finding; trees that differ and faults that are no rejections
are, and so is a check that takes too long. The log counts what was checked and keeps every finding
once.
-/
namespace WidgetView.Fuzz

structure Counts where
  iterations : Nat := 0
  accepted : Nat := 0
  rejected : Nat := 0
  crashes : Nat := 0
  timeouts : Nat := 0
  mismatches : Nat := 0
  /-- Inputs that one tokenizer accepts and the other one rejects. -/
  disagreements : Nat := 0
  deriving DecidableEq, Repr

namespace Counts

def nextIteration (c : Counts) : Counts := { c with iterations := c.iterations + 1 }

def disagree (c : Counts) (isDisagreement : Bool) : Counts :=
  if isDisagreement then { c with disagreements := c.disagreements + 1 } else c

def accept (c : Counts) : Counts := { c with accepted := c.accepted + 1 }

def reject (c : Counts) : Counts := { c with rejected := c.rejected + 1 }

def find (c : Counts) : Cause → Counts
  | .mismatch _ _ => { c with mismatches := c.mismatches + 1 }
  | .crash _ => { c with crashes := c.crashes + 1 }
  | .timeout => { c with timeouts := c.timeouts + 1 }

end Counts

/-- The part of a check in which its time is over: while the tokenizers read the input, after it was
seen whether they disagree, or when all is done but the limit has not been lifted. -/
inductive Stage where
  | reading
  | judging
  | leaving
  deriving DecidableEq, Repr

/-- What an input is checked with. The time that a check takes is not told by the input, so it is
given for every check, by what was counted before, whether and when it is over. -/
structure Setup where
  /-- The files that a view may name. -/
  files : FileSystem := {}
  byGrammar : List Char → Option (List Token) := fun s => (tokenizeByGrammar s).toOption
  /-- What the inputs of findings are told apart by. -/
  digest : List Char → String := String.ofList
  late : Counts → List Char → Option Stage := fun _ _ => none

/-! ### The work on an input -/

/-- How the work on an input breaks off. -/
inductive Break where
  | rejected
  | found (cause : Cause)
  deriving Repr

/-- Work that is limited in time. It counts as it goes, and what was counted stays when it breaks
off. -/
abbrev Timed (α : Type) := EStateM Break Counts α

/-- Break off if the time is over at this stage. -/
def checkTime (late : Option Stage) (stage : Stage) : Timed Unit :=
  if late = some stage then throw (.found .timeout) else pure ()

/-- The tokens of the scanner, if it accepts the input and the grammar has no others. -/
def agreedTokens (ts us : Option (List Token)) : Timed (Option (List Token)) :=
  match ts, us with
  | some ts, some us => if ts == us then return some ts else throw (.found (.mismatch ts us))
  | _, _ => return ts

/-- The tokens of an input, if the scanner accepts it. -/
def compareTokenizers (s : Setup) (late : Option Stage) (input : List Char) :
    Timed (Option (List Token)) := do
  let ts := (tokenize input).toOption
  let us := s.byGrammar input
  checkTime late .reading
  modify fun c => c.disagree (ts.isSome != us.isSome)
  checkTime late .judging
  agreedTokens ts us

def parseTokens (files : FileSystem) (ts : List Token) : Timed Unit :=
  match (Source.view files files.workingDirectory ts {}).1 with
  | .ok _ => pure ()
  | .error (.file e) => throw (.found (.crash e))
  | .error _ => throw .rejected

/-- Whether an input is left to be counted. One that the scanner rejects is counted at once. -/
def work (s : Setup) (late : Option Stage) (input : List Char) : Timed Bool := do
  match ← compareTokenizers s late input with
  | none =>
    modify Counts.reject
    return false
  | some ts =>
    parseTokens s.files ts
    return true

/-- The work on an input within its time, which may still run out when the work has ended. -/
def timed (s : Setup) (late : Option Stage) (input : List Char) : Timed Bool := do
  try work s late input
  finally checkTime late .leaving

/-! ### The log -/

structure Log where
  counts : Counts := {}
  /-- The findings, in the order in which they were made. -/
  findings : List Finding := []

namespace Log

def contains (digest : List Char → String) (l : Log) (f : Finding) : Bool :=
  l.findings.any fun g => g.key digest = f.key digest

def keep (digest : List Char → String) (l : Log) (f : Finding) : Log :=
  if l.contains digest f then l else { l with findings := l.findings ++ [f] }

/-- Count a finding, and keep it unless it is there. -/
def find (digest : List Char → String) (l : Log) (f : Finding) : Log :=
  { l with counts := l.counts.find f.cause }.keep digest f

/-- The findings that were made after an earlier log. -/
def findingsSince (l earlier : Log) : List Finding := l.findings.drop earlier.findings.length

end Log

/-- Check an input: whether it is interesting, and the log after it. -/
def check (s : Setup) (l : Log) (input : List Char) : Bool × Log :=
  match timed s (s.late l.counts input) input l.counts with
  | .ok true counts => (false, { l with counts := counts.accept })
  | .ok false counts => (false, { l with counts := counts })
  | .error .rejected counts => (false, { l with counts := counts.reject })
  | .error (.found cause) counts =>
    (true, { l with counts := counts }.find s.digest ⟨cause, input⟩)

end WidgetView.Fuzz
