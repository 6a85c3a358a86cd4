import WidgetView.Fuzz.Draws
import WidgetView.Number.Fixed

/-!
# Random views

Random views: widgets with attributes, entries and opaque expressions, nested up to a limit. The
first argument of a recursive generator is the number of levels that may still be opened below it.
-/
namespace WidgetView.Fuzz

def widgetTypes : List String := [
  "gtk::Window", "gtk::Box", "gtk::Button", "gtk::Label", "gtk::Entry", "Counter", "Text", "Clock",
  "Label", "Counter<i32>"]

def propertyNames : List String := ["label", "text", "orientation", "spacing", "visible", "title"]

def signalNames : List String :=
  ["clicked", "changed", "delete_event", "activate", "key_press_event"]

def someIdentifiers : List String :=
  ["x", "y", "foo", "bar", "Quit", "Increment", "Change", "Msg", "model"]

def letters : List Char :=
  "abcdefghijklmnopqrstuvwxyzABCDEFGHIJKLMNOPQRSTUVWXYZ".toList

def identifierStarts : List Char := letters ++ ['_']

def identifierChars : List Char := letters ++ "0123456789".toList ++ ['_']

def maxExprDepth : Nat := 5

def maxWidgetDepth : Nat := 3

def identifier : Gen String := do
  if ← chance 7 10 then choose someIdentifiers
  else
    let length ← betweenNat 1 20
    let first ← choose identifierStarts
    let more ← times (length - 1) (choose identifierChars)
    return String.ofList (first :: more)

/-- A number from -100 up to 100, with two places. -/
def decimalLiteral : Gen String := do
  let n : Int := 200 * ((← draw : Nat) : Int) - 100 * (drawRange : Int)
  return Number.fixed 2 (n < 0) n.natAbs drawRange

def literal : Gen String := do
  match ← betweenNat 0 4 with
  | 0 => return toString (← between (-1000) 1000)
  | 1 => decimalLiteral
  | 2 => choose ["'a'", "'\\n'", "'static", "b'x'"]
  | 3 => choose ["\x22\x22", "\x22test\x22", "r\x22raw\\\x22", "b\x22bytes\x22", "\x22a\\\x22b\x22"]
  | _ => choose ["true", "false", "None"]

def leaf : Gen String := do
  if ← chance 1 2 then identifier else literal

def commaSeparated (parts : List String) : String := ", ".intercalate parts

def expr : Nat → Gen String
  | 0 => leaf
  | levels + 1 => do
    if ← chance 4 10 then leaf
    else
      match ← betweenNat 0 4 with
      | 0 =>
        let args ← times (← betweenNat 0 3) (expr levels)
        let name ← identifier
        return name ++ "(" ++ commaSeparated args ++ ")"
      | 1 =>
        let e ← expr levels
        let name ← identifier
        return e ++ "." ++ name ++ "()"
      | 2 => return "&" ++ (← expr levels)
      | 3 =>
        let first ← identifier
        let second ← identifier
        return first ++ "::" ++ second
      | _ => return "[" ++ (← expr levels) ++ "; 2]"

def eventParams : Gen String := do
  if ← chance 1 2 then
    let names ← times (← betweenNat 0 3) (choose ["_", "x", "y"])
    return "(" ++ commaSeparated names ++ ")"
  else return ""

def eventModel : Gen String := do return if ← chance 2 10 then " with model" else ""

def eventTarget : Gen String := do
  if ← chance 2 10 then return (← identifier) ++ "@" else return ""

def effect : Gen String := do
  match ← betweenNat 0 2 with
  | 0 => expr maxExprDepth
  | 1 => return "return " ++ (← expr maxExprDepth)
  | _ =>
    let message ← expr maxExprDepth
    let answer ← expr maxExprDepth
    return "(" ++ message ++ ", " ++ answer ++ ")"

def event : Gen String := do
  let signal ← choose (signalNames ++ someIdentifiers)
  let params ← eventParams
  let model ← eventModel
  let target ← eventTarget
  let eff ← effect
  return signal ++ params ++ model ++ " => " ++ target ++ eff

/-- Attributes; the names in them are drawn whether or not they are used. -/
def attributes : Gen String := do
  if ← chance 2 10 then
    let name ← identifier
    let parent ← identifier
    choose
      ["#[name=\x22" ++ name ++ "\x22] ", "#[container] ", "#[parent=\x22" ++ parent ++ "\x22] "]
  else return ""

def initParams : Gen String := do
  if ← chance 2 10 then
    let args ← times (← betweenNat 0 2) (expr maxExprDepth)
    return "(" ++ commaSeparated args ++ ")"
  else return ""

def property : Gen String := do
  let name ← choose propertyNames
  let e ← expr maxExprDepth
  return name ++ ": " ++ e

def childProperties : String := "child: \x7b expand: true, padding: 3 \x7d"

/-- An entry, with a generator of nested widgets if there may be one. -/
def entry (nested : Option (Gen String)) : Gen String := do
  match ← betweenNat 0 3, nested with
  | 0, _ => property
  | 1, _ => event
  | 2, some g => g
  | _, _ => return childProperties

/-- A widget whose entries come from a generator. -/
def widgetWith (entry : Gen String) : Gen String := do
  let attrs ← attributes
  let typ ← choose widgetTypes
  let init ← initParams
  let entries ← times (← betweenNat 0 4) entry
  return attrs ++ typ ++ init ++ " \x7b " ++ commaSeparated entries ++ " \x7d"

def widget : Nat → Gen String
  | 0 => widgetWith (entry none)
  | levels + 1 => widgetWith (entry (some (widget levels)))

def view : Gen String := widget maxWidgetDepth

end WidgetView.Fuzz
