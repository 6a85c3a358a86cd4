import WidgetView.Command.Arguments
import WidgetView.Fix.Apply
import WidgetView.Source

/-!
# The console of a command

What a command works on: the files, and what has been printed so far. A command may be interrupted
by a fault that it does not handle; what it printed and wrote before stays.
-/
namespace WidgetView.Command

structure Console where
  files : FileSystem := {}
  out : String := ""
  err : String := ""

inductive Interruption where
  | file (fault : FileFault)
  | template (error : TemplateError)
  deriving Repr

abbrev Job (α : Type) := EStateM Interruption Console α

def print (line : String) : Job Unit := modify fun c => { c with out := c.out ++ line ++ "\n" }

def printAll : List String → Job Unit
  | [] => return
  | line :: lines => do
    print line
    printAll lines

def complain (line : String) : Job Unit := modify fun c => { c with err := c.err ++ line ++ "\n" }

/-- Print a text that ends its own lines. -/
def printText (text : String) : Job Unit := modify fun c => { c with out := c.out ++ text }

def complainText (text : String) : Job Unit := modify fun c => { c with err := c.err ++ text }

def getFiles : Job FileSystem := do return (← get).files

/-- A result of the file system; a fault interrupts the command. -/
def orInterrupt {α : Type} : Except FileFault α → Job α
  | .ok a => pure a
  | .error e => throw (.file e)

def readFile (p : Pathname) : Job (List Char) := do orInterrupt ((← getFiles).readText p)

def writeFile (p : Pathname) (text : List Char) : Job Unit := do
  let files ← orInterrupt ((← getFiles).writeText p text)
  modify fun c => { c with files := files }

/-- Answer arguments that stop a command before it begins. -/
def stop (s : Spec) : Stop → Job Nat
  | .help => do
    printText s.help
    return 0
  | .error message => do
    complainText (s.complaint message)
    return 2

end WidgetView.Command
