import WidgetView.Text.Identifier
import WidgetView.Text.Numeral
import WidgetView.Text.Quoted

/-!
# Replacement templates

Replacement templates. A template is text in which a backslash begins an escape: a letter or octal
digits for one character, or a reference to a group. The only group is number zero, the whole of
what is replaced. A template is read unit by unit, a unit being a character or a backslash with the
character after it, and one unit ahead, so that a backslash at the very end is found before the unit
in front of it is judged.
-/
namespace WidgetView

inductive TemplateFault where
  | loneBackslash
  | missingAngle
  | missingName
  | unterminatedName
  | badName (name : String)
  | unknownName (name : String)
  | unknownGroup (index : Nat)
  | octalTooLarge (text : String)
  | badEscape (text : String)
  deriving DecidableEq, Repr

structure TemplateError where
  fault : TemplateFault
  template : String
  position : Nat
  deriving DecidableEq, Repr

namespace TemplateError

def reason : TemplateFault → String
  | .loneBackslash => "bad escape (end of pattern)"
  | .missingAngle => "missing <"
  | .missingName => "missing group name"
  | .unterminatedName => "missing >, unterminated name"
  | .badName n => s!"bad character in group name {Text.quote n}"
  | .unknownName n => s!"unknown group name {Text.quote n}"
  | .unknownGroup i => s!"invalid group reference {i}"
  | .octalTooLarge t => s!"octal escape value {t} outside of range 0-0o377"
  | .badEscape t => s!"bad escape {t}"

/-- Line and column are told when the template has more lines than one. -/
def message (e : TemplateError) : String :=
  match e.fault with
  | .unknownName _ => reason e.fault
  | _ =>
    let cs := e.template.toList
    let before := cs.take e.position
    let told := s!"{reason e.fault} at position {e.position}"
    if '\n' ∈ cs then
      let line := before.count '\n' + 1
      let column := (before.reverse.takeWhile (· ≠ '\n')).length + 1
      s!"{told} (line {line}, column {column})"
    else told

end TemplateError

namespace Template

/-- What a template is made of. -/
inductive Piece where
  | text (cs : List Char)
  | whole
  deriving DecidableEq, Repr

/-- A character, or a backslash and the character after it. -/
inductive Part where
  | plain (c : Char)
  | escape (c : Char)
  deriving DecidableEq, Repr

def Part.chars : Part → List Char
  | plain c => [c]
  | escape c => ['\\', c]

/-- The units of a template, and whether a lone backslash ends it. -/
def split : List Char → List Part × Bool
  | [] => ([], false)
  | ['\\'] => ([], true)
  | '\\' :: c :: cs => (.escape c :: (split cs).1, (split cs).2)
  | c :: cs => (.plain c :: (split cs).1, (split cs).2)

/-- A fault at a position. -/
abbrev Fault := TemplateFault × Nat

/-- Nothing but the lone backslash is left. -/
def onlyBackslash (lone : Bool) (rest : List Part) : Bool := lone && rest.isEmpty

def width : List Part → Nat
  | [] => 0
  | u :: us => u.chars.length + width us

def isOctal (c : Char) : Bool := '0' ≤ c && c ≤ '7'

/-- The next unit, if it is a plain character of a class. -/
def nextPlain? (p : Char → Bool) : List Part → Option Char
  | .plain c :: _ => if p c then some c else none
  | _ => none

def octalValue (cs : List Char) : Nat := cs.foldl (fun n c => 8 * n + (c.toNat - 48)) 0

/-- The characters that letters after a backslash stand for. -/
def control? (c : Char) : Option Char :=
  match c with
  | 'a' => some '\x07'
  | 'b' => some '\x08'
  | 'f' => some '\x0c'
  | 'n' => some '\n'
  | 'r' => some '\r'
  | 't' => some '\t'
  | 'v' => some '\x0b'
  | '\\' => some '\\'
  | _ => none

/-- Read the name of a group that starts at a position, up to the closing angle bracket: the name
and the number of units. -/
def groupName (lone : Bool) (name : List Char) (position : Nat) :
    List Part → Except Fault (List Char × Nat)
  | [] =>
    if name = [] then .error (.missingName, position)
    else .error (.unterminatedName, position - name.length)
  | u :: us =>
    let after := position + u.chars.length
    if onlyBackslash lone us then .error (.loneBackslash, after)
    else if u = .plain '>' then
      if name = [] then .error (.missingName, position) else .ok (name, 1)
    else (groupName lone (name ++ u.chars) after us).map fun r => (r.1, r.2 + 1)

/-- A name must stand for group zero. -/
def groupOfName (name : List Char) (position : Nat) : Except Fault Piece :=
  let start := position - (name.length + 1)
  if Text.isIdentifier name then .error (.unknownName (String.ofList name), start)
  else
    match Text.parseInt? name with
    | none => .error (.badName (String.ofList name), start)
    | some i =>
      if i < 0 then .error (.badName (String.ofList name), start)
      else if i = 0 then .ok .whole
      else .error (.unknownGroup i.toNat, start)

/-- Digits of a class that follow: at most `n`. -/
def takeDigits (lone : Bool) (p : Char → Bool) : Nat → Nat → List Part → Except Fault (List Char)
  | 0, _, _ => .ok []
  | _ + 1, _, [] => .ok []
  | n + 1, position, u :: us =>
    match nextPlain? p (u :: us) with
    | none => .ok []
    | some c =>
      if onlyBackslash lone us then .error (.loneBackslash, position + 1)
      else (takeDigits lone p n (position + 1) us).map (c :: ·)

/-- A backslash and a digit other than zero: three octal digits are a character, anything else
refers to a group that does not exist. -/
def digitEscape (lone : Bool) (c : Char) (position : Nat) (us : List Part) :
    Except Fault (Piece × Nat) :=
  match takeDigits lone Char.isDigit 1 position us with
  | .error e => .error e
  | .ok [] => .error (.unknownGroup (c.toNat - 48), position - 1)
  | .ok (d :: _) =>
    let reference := (.unknownGroup (10 * (c.toNat - 48) + (d.toNat - 48)), position - 1)
    if isOctal c && isOctal d then
      match takeDigits lone isOctal 1 (position + 1) us.tail with
      | .error e => .error e
      | .ok [] => .error reference
      | .ok (e :: _) =>
        let value := octalValue [c, d, e]
        if 0xFF < value then
          .error (.octalTooLarge (String.ofList ['\\', c, d, e]), position - 2)
        else .ok (.text [Char.ofNat value], 2)
    else .error reference

/-- The piece that an escape begins, and the number of further units in it; `position` is the
position after the escape. -/
def escapePiece (lone : Bool) (c : Char) (position : Nat) (us : List Part) :
    Except Fault (Piece × Nat) :=
  if c = 'g' then
    if nextPlain? (· == '<') us = none then .error (.missingAngle, position)
    else if onlyBackslash lone us.tail then .error (.loneBackslash, position + 1)
    else
      match groupName lone [] (position + 1) us.tail with
      | .error e => .error e
      | .ok (name, n) =>
        (groupOfName name (position + 1 + width (us.tail.take n))).map fun p => (p, n + 1)
  else if c = '0' then
    (takeDigits lone isOctal 2 position us).map fun ds =>
      (.text [Char.ofNat (octalValue ds % 0x100)], ds.length)
  else if c.isDigit then digitEscape lone c position us
  else
    match control? c with
    | some d => .ok (.text [d], 0)
    | none =>
      if c.isAlpha then .error (.badEscape (String.ofList ['\\', c]), position - 2)
      else .ok (.text ['\\', c], 0)

/-- Read units, the first of which starts at a position. -/
def pieces (lone : Bool) (position : Nat) : List Part → Except Fault (List Piece)
  | [] => .ok []
  | u :: us =>
    let after := position + u.chars.length
    if onlyBackslash lone us then .error (.loneBackslash, after)
    else
      match u with
      | .plain c => (pieces lone after us).map (.text [c] :: ·)
      | .escape c =>
        match escapePiece lone c after us with
        | .error e => .error e
        | .ok (piece, n) =>
          (pieces lone (after + width (us.take n)) (us.drop n)).map (piece :: ·)
termination_by us => us.length
decreasing_by
  · simp
  · simp only [List.length_drop, List.length_cons]; omega

/-- The pieces of a template. -/
def parse (template : String) : Except TemplateError (List Piece) :=
  let (us, lone) := split template.toList
  let fail (e : Fault) : TemplateError := ⟨e.1, template, e.2⟩
  if onlyBackslash lone us then .error (fail (.loneBackslash, 0))
  else
    match pieces lone 0 us with
    | .error e => .error (fail e)
    | .ok ps => .ok ps

/-- What a template gives for a piece of text that is replaced. -/
def expand (replaced : List Char) (ps : List Piece) : List Char :=
  ps.flatMap fun p =>
    match p with
    | .text cs => cs
    | .whole => replaced

end Template

end WidgetView
