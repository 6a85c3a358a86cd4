import WidgetView.Parse.MacroCall
import WidgetView.Parse.Widget
import WidgetView.Token.Nest

/-!
# Views in files

Views in files. The text of a view may be the view itself, a macro call around it, or a single
string that names a file with such a call. A name of a file is taken from the directory of the file
that holds it, and a file that is named this way is not followed any further.
-/
namespace WidgetView

/-- Why no view was obtained. -/
inductive Failure where
  | lexical (e : LexError)
  | parse (e : ParseError)
  | file (e : FileFault)
  deriving Repr

def Failure.message : Failure → String
  | lexical e => e.message
  | parse e => e.message
  | file e => e.message

namespace Source

/-- The body of the macro call that a file consists of. A file that cannot be opened, or that does
not scan, is a parse error as well. -/
def macroTokens (fs : FileSystem) (path : Pathname) : Except Failure (List Token) :=
  match fs.readText path with
  | .error e =>
    if e.isRefusal then .error (.parse (ParseError.atStop (.unreadable e) (1, 1)))
    else .error (.file e)
  | .ok text =>
    match tokenize text with
    | .error e => .error (.parse (ParseError.atStop (.lexical e.fault) (e.line, e.column)))
    | .ok ts =>
      match MacroCall.body? ts with
      | some body => .ok body
      | none => .error (.parse (ParseError.expected (1, 1) ts .macroCall))

/-- The string at the front of a run of tokens: its token and its value. -/
def fileName? (ts : List Token) : Option (Token × String) :=
  ts.head?.bind fun t => t.string?.map fun s => (t, s)

/-- Follow the name of a file, if the tokens are one. -/
def follow (fs : FileSystem) (base : Pathname) (ts : List Token) : Except Failure (List Token) :=
  match fileName? ts with
  | none => .ok ts
  | some (t, s) =>
    match ts.tail with
    | u :: _ => .error (.parse (ParseError.atToken (.afterFileName u) u))
    | [] =>
      let path := base.join (Pathname.ofString s)
      match macroTokens fs path with
      | .error (.parse e) =>
        .error (.parse (ParseError.atToken (.inFile path.toString e.fault e.line e.column) t))
      | r => r

/-- The view of a run of tokens, in which file names are taken from `base`. -/
def view (fs : FileSystem) (base : Pathname) (ts : List Token) (st : Session) :
    Except Failure View × Session :=
  match follow fs base ts with
  | .error e => (.error e, st)
  | .ok ts =>
    match Parse.root ts st with
    | .ok v st => (.ok v, st)
    | .error e st => (.error (.parse e), st)

/-- The view of a source text. -/
def viewOfText (fs : FileSystem) (base : Pathname) (text : List Char) (st : Session) :
    Except Failure View × Session :=
  match tokenize text with
  | .error e => (.error (.lexical e), st)
  | .ok ts => view fs base ts st

/-- The view of a file that consists of a macro call. -/
def viewOfMacroFile (fs : FileSystem) (path : Pathname) (st : Session) :
    Except Failure View × Session :=
  match macroTokens fs path with
  | .error e => (.error e, st)
  | .ok ts => view fs path.parent ts st

/-- The tokens of a file: the body of its macro call, or else all of them. -/
def fileTokens (fs : FileSystem) (path : Pathname) : Except Failure (List Token) :=
  match fs.readText path with
  | .error e => .error (.file e)
  | .ok text =>
    match tokenize text with
    | .error e => .error (.lexical e)
    | .ok ts => .ok ((MacroCall.body? ts).getD ts)

/-- The view of a file, with or without a macro call around it. -/
def viewOfFile (fs : FileSystem) (path : Pathname) (st : Session) :
    Except Failure View × Session :=
  match fileTokens fs path with
  | .error e => (.error e, st)
  | .ok ts => view fs path.parent ts st

/-- The file that the widgets of a view come from: the one that a lone string names, or `path`. -/
def origin (fs : FileSystem) (path : Pathname) : Except Failure Pathname :=
  match fileTokens fs path with
  | .error e => .error e
  | .ok ts =>
    match fileName? ts, ts.tail with
    | some (_, s), [] => .ok (path.parent.join (Pathname.ofString s))
    | _, _ => .ok path

end Source

end WidgetView
