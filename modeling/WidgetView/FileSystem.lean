import WidgetView.Pathname
import WidgetView.Table
import WidgetView.Text.Lines
import WidgetView.Text.Quoted
import WidgetView.Text.Utf8

/-!
# File systems

A file system as a value: its files and directories, each by the list of names that leads to it from
the root, and the working directory, from which relative names are taken. Text is read as strict
UTF-8 with its line ends unified, and written as UTF-8.
-/
namespace WidgetView

inductive Node where
  | file (bytes : List UInt8)
  | directory
  deriving DecidableEq, Repr

structure FileSystem where
  nodes : Table (List String) Node := {}
  /-- The names from the root to the working directory. -/
  cwd : List String := []
  deriving Repr, DecidableEq

inductive FileFault where
  | missing (path : String)
  | notDirectory (path : String)
  | isDirectory (path : String)
  | nameTooLong (path : String)
  | nullCharacter
  | undecodable (fault : Text.Utf8.Fault)
  deriving DecidableEq, Repr

namespace FileFault

def message : FileFault → String
  | missing p => s!"[Errno 2] No such file or directory: {Text.quote p}"
  | notDirectory p => s!"[Errno 20] Not a directory: {Text.quote p}"
  | isDirectory p => s!"[Errno 21] Is a directory: {Text.quote p}"
  | nameTooLong p => s!"[Errno 36] File name too long: {Text.quote p}"
  | nullCharacter => "embedded null byte"
  | undecodable f =>
    let reason := match f.flaw with
      | .startByte => "invalid start byte"
      | .continuationByte => "invalid continuation byte"
      | .truncated => "unexpected end of data"
    if f.stop = f.start + 1 then
      let byte := String.ofList (Text.hexDigits 2 f.lead.toNat)
      s!"'utf-8' codec can't decode byte 0x{byte} in position {f.start}: {reason}"
    else s!"'utf-8' codec can't decode bytes in position {f.start}-{f.stop - 1}: {reason}"

/-- The system refused the file, whatever the file holds. -/
def isRefusal : FileFault → Bool
  | missing _ | notDirectory _ | isDirectory _ | nameTooLong _ => true
  | nullCharacter | undecodable _ => false

end FileFault

namespace FileSystem

inductive Status where
  | file (bytes : List UInt8)
  | directory
  | absent

/-- What stands at a place. The working directory and all directories above it are there. -/
def status (fs : FileSystem) (place : List String) : Status :=
  if place.isPrefixOf fs.cwd then .directory
  else
    match fs.nodes.get? place with
    | some (.file bytes) => .file bytes
    | some .directory => .directory
    | none => .absent

/-- The name of the working directory. -/
def workingDirectory (fs : FileSystem) : Pathname := ⟨"/", fs.cwd⟩

/-- The place that a name is taken from. -/
def start (fs : FileSystem) (p : Pathname) : List String := if p.isAbsolute then [] else fs.cwd

/-- One part further from a directory. The root is its own parent. -/
def enter (place : List String) (part : String) : List String :=
  if part = ".." then place.dropLast else place ++ [part]

def maxNameBytes : Nat := 255

def maxPathBytes : Nat := 4096

def walk (fs : FileSystem) (path : String) (place : List String) :
    List String → Except FileFault (List String)
  | [] => .ok place
  | part :: parts =>
    match fs.status place with
    | .file _ => .error (.notDirectory path)
    | .absent => .error (.missing path)
    | .directory =>
      if part.utf8ByteSize > maxNameBytes then .error (.nameTooLong path)
      else walk fs path (enter place part) parts

/-- The place that a name leads to. All of it but the last part must exist. -/
def locate (fs : FileSystem) (p : Pathname) : Except FileFault (List String) :=
  let path := p.toString
  if '\x00' ∈ path.toList then .error .nullCharacter
  else if path.utf8ByteSize ≥ maxPathBytes then .error (.nameTooLong path)
  else fs.walk path (fs.start p) p.parts

def readBytes (fs : FileSystem) (p : Pathname) : Except FileFault (List UInt8) :=
  match fs.locate p with
  | .error e => .error e
  | .ok place =>
    match fs.status place with
    | .file bytes => .ok bytes
    | .directory => .error (.isDirectory p.toString)
    | .absent => .error (.missing p.toString)

/-- The text of a file, its line ends unified. -/
def readText (fs : FileSystem) (p : Pathname) : Except FileFault (List Char) :=
  match fs.readBytes p with
  | .error e => .error e
  | .ok bytes =>
    match Text.Utf8.decode bytes with
    | .error f => .error (.undecodable f)
    | .ok cs => .ok (Text.unifyLineEnds cs)

def writeBytes (fs : FileSystem) (p : Pathname) (bytes : List UInt8) :
    Except FileFault FileSystem :=
  match fs.locate p with
  | .error e => .error e
  | .ok place =>
    match fs.status place with
    | .directory => .error (.isDirectory p.toString)
    | _ => .ok { fs with nodes := fs.nodes.insert place (.file bytes) }

def writeText (fs : FileSystem) (p : Pathname) (cs : List Char) : Except FileFault FileSystem :=
  fs.writeBytes p (Text.Utf8.encode cs)

/-- Whether a name leads to something; a name that cannot be looked up leads nowhere. -/
def exists? (fs : FileSystem) (p : Pathname) : Except FileFault Bool :=
  match fs.locate p with
  | .error (.nameTooLong path) => .error (.nameTooLong path)
  | .error _ => .ok false
  | .ok place =>
    match fs.status place with
    | .absent => .ok false
    | _ => .ok true

/-- Put a file in place together with the directories that lead to it. -/
def place (fs : FileSystem) (p : Pathname) (bytes : List UInt8) : FileSystem :=
  let placeOf (parts : List String) := parts.foldl enter (fs.start p)
  let dirs := (List.range p.parts.length).map fun n => (placeOf (p.parts.take n), Node.directory)
  { fs with nodes := (fs.nodes.insertAll dirs).insert (placeOf p.parts) (.file bytes) }

/-- The files whose content is not what it was in `before`, in the order of the table. -/
def changedFrom (before after : FileSystem) : List (List String × List UInt8) :=
  after.nodes.entries.filterMap fun (names, node) =>
    match node with
    | .directory => none
    | .file bytes => if before.nodes.get? names = some node then none else some (names, bytes)

end FileSystem

end WidgetView
