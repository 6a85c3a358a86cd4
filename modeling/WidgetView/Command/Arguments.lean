import WidgetView.Table
import WidgetView.Text.Numeral
import WidgetView.Text.Quoted

/-!
# Arguments of a command

Arguments of a command. An argument that starts with a dash is an option, unless it is a negative
number or holds a blank; a long option may be shortened as long as it stays unique, and may carry
its value after an equals sign. Two dashes alone end the options. The first thing that is wrong is
reported, with the usage of the command.
-/
namespace WidgetView.Command

inductive OptionKind where
  | flag
  | help
  /-- Takes one value, which may be refused with a reason. -/
  | value (refuse : String → Option String)

structure OptionSpec where
  names : List String
  kind : OptionKind

def OptionSpec.title (o : OptionSpec) : String := "/".intercalate o.names

/-- The name under which the values of an option are kept. -/
def OptionSpec.key (o : OptionSpec) : String := o.names.getLastD ""

def OptionSpec.takesValue (o : OptionSpec) : Bool :=
  match o.kind with
  | .value _ => true
  | _ => false

/-- What a command takes besides options. -/
inductive Operands where
  | none
  | one (name : String)
  | many

structure Spec where
  program : String
  usage : String
  details : String
  options : List OptionSpec
  operands : Operands

def Spec.help (s : Spec) : String := s.usage ++ "\n" ++ s.details

/-- All option names with their options. -/
def Spec.optionNames (s : Spec) : List (String × OptionSpec) :=
  s.options.flatMap fun o => o.names.map fun n => (n, o)

/-- An option with a value of its own in the same argument; `equals` tells that it follows an equals
sign. -/
structure Attached where
  equals : Bool
  text : List Char
  deriving DecidableEq, Repr

inductive Word where
  | operand
  | divider
  | option (spec : Option OptionSpec) (name : String) (attached : Option Attached)

inductive Stop where
  | help
  | error (message : String)

structure Arguments where
  /-- Options in the order in which they were given, with their values. -/
  options : List (String × String) := []
  operands : List String := []
  /-- Operands have been taken. -/
  taken : Bool := false
  extras : List String := []

def Arguments.has (a : Arguments) (name : String) : Bool := a.options.any fun o => o.1 = name

/-- The last value given for an option. -/
def Arguments.value? (a : Arguments) (name : String) : Option String :=
  (a.options.reverse.find? fun o => o.1 = name).map Prod.snd

def isDecimalDigit (c : Char) : Bool := (Text.numeralChar c).isDigit

/-- A minus sign and digits, perhaps with a point before the last of them. -/
def isNegativeNumber (cs : List Char) : Bool :=
  match cs with
  | '-' :: rest =>
    let rest := if rest.getLast? = some '\n' then rest.dropLast else rest
    let fraction := rest.dropWhile isDecimalDigit
    match fraction with
    | [] => !rest.isEmpty
    | '.' :: ds => !ds.isEmpty && ds.all isDecimalDigit
    | _ => false
  | _ => false

/-- Split at the first equals sign. -/
def splitEquals (cs : List Char) : List Char × Option Attached :=
  match cs.dropWhile (· ≠ '=') with
  | [] => (cs, none)
  | _ :: rest => (cs.takeWhile (· ≠ '='), some ⟨true, rest⟩)

/-- The options that an argument may stand for. -/
def candidates (s : Spec) (cs : List Char) : List (String × OptionSpec × Option Attached) :=
  match cs with
  | '-' :: '-' :: _ =>
    let (start, attached) := splitEquals cs
    (s.optionNames.filter fun (n, _) => start.isPrefixOf n.toList).map
      fun (n, o) => (n, o, attached)
  | _ =>
    s.optionNames.filterMap fun (n, o) =>
      if n.toList = cs.take 2 then some (n, o, some ⟨false, cs.drop 2⟩)
      else if cs.isPrefixOf n.toList then some (n, o, none)
      else none

def classifyOption (s : Spec) (arg : String) : Except String Word :=
  let cs := arg.toList
  let (start, attached) := splitEquals cs
  match s.optionNames.lookup arg, s.optionNames.lookup (String.ofList start), attached with
  | some o, _, _ => .ok (.option (some o) arg none)
  | none, some o, some a => .ok (.option (some o) (String.ofList start) (some a))
  | none, _, _ =>
    match candidates s cs with
    | [(n, o, a)] => .ok (.option (some o) n a)
    | [] => .ok (if isNegativeNumber cs || ' ' ∈ cs then .operand else .option none arg none)
    | several =>
      let matching := ", ".intercalate (several.map Prod.fst)
      .error s!"ambiguous option: {arg} could match {matching}"

def classify (s : Spec) (arg : String) : Except String Word :=
  match arg.toList with
  | '-' :: _ :: _ => classifyOption s arg
  | _ => .ok .operand

/-- Tell options and operands apart; after two dashes there are operands only. -/
def classifyAll (s : Spec) : List String → Except String (List (String × Word))
  | [] => .ok []
  | arg :: args =>
    if arg = "--" then .ok ((arg, .divider) :: args.map fun a => (a, .operand))
    else
      match classify s arg with
      | .error e => .error e
      | .ok w => (classifyAll s args).map ((arg, w) :: ·)

def Word.isOption : Word → Bool
  | option _ _ _ => true
  | _ => false

def Word.isDivider : Word → Bool
  | divider => true
  | _ => false

/-- How many of a run of operands a command takes at once. -/
def operandCount (s : Spec) (run : List (String × Word)) : Nat :=
  match s.operands with
  | .none => 0
  | .many => run.length
  | .one _ =>
    let front := (run.takeWhile fun w => w.2.isDivider).length
    match run.drop front with
    | [] => 0
    | _ :: rest => front + 1 + (rest.takeWhile fun w => w.2.isDivider).length

/-- Take operands from a run of them; what is left over is not understood. Two dashes are dropped
from what is taken, once. -/
def takeOperands (s : Spec) (a : Arguments) (run : List (String × Word)) : Arguments :=
  let n := if a.taken then 0 else operandCount s run
  if n = 0 then { a with extras := a.extras ++ run.map Prod.fst }
  else
    { a with
      operands := ((run.take n).map Prod.fst).erase "--"
      taken := true
      extras := a.extras ++ (run.drop n).map Prod.fst }

def ignored (o : OptionSpec) (text : List Char) : Stop :=
  .error s!"argument {o.title}: ignored explicit argument {Text.quote (String.ofList text)}"

/-- Several one-letter options may stand behind one dash. Gives the options that were found and what
was not understood. -/
def bundle (s : Spec) (o : OptionSpec) (found : List OptionSpec) :
    List Char → Except Stop (List OptionSpec × List String)
  | [] => .ok (found ++ [o], [])
  | c :: cs =>
    let name := String.ofList ['-', c]
    if c = '-' then .error (ignored o (c :: cs))
    else
      match s.optionNames.lookup name with
      | none => .ok (found ++ [o], [String.ofList ('-' :: c :: cs)])
      | some next =>
        match cs with
        | '=' :: rest => .error (ignored next rest)
        | _ => bundle s next (found ++ [o]) cs

def takeFlag (a : Arguments) (o : OptionSpec) : Except Stop Arguments :=
  match o.kind with
  | .help => .error .help
  | _ => .ok { a with options := a.options ++ [(o.key, "")] }

def takeFlags (a : Arguments) : List OptionSpec → Except Stop Arguments
  | [] => .ok a
  | o :: os =>
    match takeFlag a o with
    | .error e => .error e
    | .ok a => takeFlags a os

def takeValue (a : Arguments) (o : OptionSpec) (text : String) : Except Stop Arguments :=
  match o.kind with
  | .value refuse =>
    match refuse text with
    | some reason => .error (.error s!"argument {o.title}: {reason}")
    | none => .ok { a with options := a.options ++ [(o.key, text)] }
  | _ => takeFlag a o

/-- Take one option; the number tells how many further arguments it used. -/
def takeOption (s : Spec) (a : Arguments) (arg : String) (spec : Option OptionSpec) (name : String)
    (attached : Option Attached) (rest : List (String × Word)) : Except Stop (Arguments × Nat) :=
  match spec with
  | none => .ok ({ a with extras := a.extras ++ [arg] }, 0)
  | some o =>
    match attached, o.takesValue with
    | some t, true => (takeValue a o (String.ofList t.text)).map fun a => (a, 0)
    | some t, false =>
      if "--".toList.isPrefixOf name.toList || t.text.isEmpty || t.equals then
        .error (ignored o t.text)
      else
        match bundle s o [] t.text with
        | .error e => .error e
        | .ok (found, extras) =>
          (takeFlags a found).map fun a => ({ a with extras := a.extras ++ extras }, 0)
    | none, false => (takeFlag a o).map fun a => (a, 0)
    | none, true =>
      match rest with
      | (text, .operand) :: _ => (takeValue a o text).map fun a => (a, 1)
      | _ => .error (.error s!"argument {o.title}: expected one argument")

def readWords (s : Spec) (a : Arguments) : List (String × Word) → Except Stop Arguments
  | [] => .ok a
  | (arg, .option spec name attached) :: rest =>
    match takeOption s a arg spec name attached rest with
    | .error e => .error e
    | .ok (a, n) => readWords s a (rest.drop n)
  | w :: rest =>
    let run := rest.takeWhile fun w => !w.2.isOption
    readWords s (takeOperands s a (w :: run)) (rest.dropWhile fun w => !w.2.isOption)
termination_by ws => ws.length
decreasing_by
  · simp only [List.length_drop, List.length_cons]; omega
  · have := (List.dropWhile_suffix (l := rest) (fun w => !w.2.isOption)).length_le
    simp only [List.length_cons]
    omega

/-- Operands that must be given have been given, and nothing is left over. -/
def complete (s : Spec) (a : Arguments) : Except Stop Arguments :=
  match s.operands, a.taken, a.extras with
  | .one name, false, _ => .error (.error s!"the following arguments are required: {name}")
  | _, _, [] => .ok a
  | _, _, extras => .error (.error ("unrecognized arguments: " ++ " ".intercalate extras))

def read (s : Spec) (args : List String) : Except Stop Arguments :=
  match classifyAll s args with
  | .error e => .error (.error e)
  | .ok ws =>
    match readWords s {} ws with
    | .error e => .error e
    | .ok a => complete s a

/-- What is printed about an error in the arguments. -/
def Spec.complaint (s : Spec) (message : String) : String :=
  s!"{s.usage}{s.program}: error: {message}\n"

def helpOption : OptionSpec := ⟨["-h", "--help"], .help⟩

end WidgetView.Command
