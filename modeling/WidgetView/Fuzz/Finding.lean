import WidgetView.FileSystem
import WidgetView.Token.Nest

/-!
# Findings

Findings: inputs on which something went wrong, with what went wrong. The text of a finding shows
the input and how it was split into tokens.
-/
namespace WidgetView.Fuzz

inductive Cause where
  /-- Both tokenizers accept an input and give different trees. -/
  | mismatch (byScanner byGrammar : List Token)
  /-- A fault that is no rejection of the input. -/
  | crash (fault : FileFault)
  /-- The time for the check was over. -/
  | timeout
  deriving Repr

/-- A check may take this many seconds. -/
def maxCheckSeconds : Nat := 5

namespace Cause

def category : Cause → String
  | mismatch _ _ => "mismatch"
  | crash _ => "crash"
  | timeout => "timeout"

/-- The name of the sort of fault. -/
def faultName : FileFault → String
  | .nullCharacter => "ValueError"
  | .undecodable _ => "UnicodeDecodeError"
  | _ => "OSError"

def message : Cause → String
  | mismatch ts us => s!"TokenMismatch: lexer: {displayAll ts}\nlark:  {displayAll us}"
  | crash e => s!"{faultName e}: {e.message}"
  | timeout => s!"FuzzTimeout: Timed out after {maxCheckSeconds} seconds"

end Cause

structure Finding where
  cause : Cause
  input : List Char
  deriving Repr

namespace Finding

/-- Two findings of one category on inputs with one digest are the same finding. -/
def key (digest : List Char → String) (f : Finding) : String × String :=
  (f.cause.category, digest f.input)

/-- The tokens of an input as text, or why there are none. -/
def tokensShown (input : List Char) : String :=
  match tokenize input with
  | .ok ts => String.ofList (render ts)
  | .error e => s!"(rejected: {e.message})"

def text (f : Finding) : String :=
  s!"Category: {f.cause.category}\n" ++
  s!"Error: {f.cause.message}\n" ++
  s!"Input length: {f.input.length}\n" ++
  "\n--- Input ---\n" ++ String.ofList f.input ++
  "\n\n--- Tokens ---\n" ++ tokensShown f.input

end Finding

def findingsDirectory : String := "fuzz_findings"

/-- The names of the files in which a finding may be kept. -/
def Finding.filePattern (f : Finding) : String := s!"{findingsDirectory}/{f.cause.category}_*.txt"

end WidgetView.Fuzz
