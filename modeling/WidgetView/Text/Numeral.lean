/-!
# Numerals

Numerals as they are typed: decimal digits of any script, blanks around, and single low lines
between digits. Texts that are not numerals have no value.
-/
namespace WidgetView.Text

/-- The zeros of the scripts with decimal digits; the other nine digits follow each of them. -/
def digitZeros : List Nat := [
  0x660, 0x6F0, 0x7C0, 0x966, 0x9E6, 0xA66, 0xAE6, 0xB66, 0xBE6, 0xC66, 0xCE6, 0xD66, 0xDE6, 0xE50,
  0xED0, 0xF20, 0x1040, 0x1090, 0x17E0, 0x1810, 0x1946, 0x19D0, 0x1A80, 0x1A90, 0x1B50, 0x1BB0,
  0x1C40, 0x1C50, 0xA620, 0xA8D0, 0xA900, 0xA9D0, 0xA9F0, 0xAA50, 0xABF0, 0xFF10, 0x104A0, 0x10D30,
  0x11066, 0x110F0, 0x11136, 0x111D0, 0x112F0, 0x11450, 0x114D0, 0x11650, 0x116C0, 0x11730, 0x118E0,
  0x11950, 0x11C50, 0x11D50, 0x11DA0, 0x16A60, 0x16AC0, 0x16B50, 0x1D7CE, 0x1D7D8, 0x1D7E2, 0x1D7EC,
  0x1D7F6, 0x1E140, 0x1E2F0, 0x1E950, 0x1FBF0]

def wideSpaces : List (Nat × Nat) := [
  (0x85, 0x85), (0xA0, 0xA0), (0x1680, 0x1680), (0x2000, 0x200A), (0x2028, 0x2029),
  (0x202F, 0x202F), (0x205F, 0x205F), (0x3000, 0x3000)]

/-- The ASCII character that a character counts as in a numeral. -/
def numeralChar (c : Char) : Char :=
  if c.toNat < 0x80 then c
  else if wideSpaces.any fun r => r.1 ≤ c.toNat ∧ c.toNat ≤ r.2 then ' '
  else
    match digitZeros.find? fun z => z ≤ c.toNat ∧ c.toNat < z + 10 with
    | some z => Char.ofNat (48 + (c.toNat - z))
    | none => '?'

def isNumeralBlank (c : Char) : Bool :=
  c == ' ' || c == '\t' || c == '\n' || c == '\x0b' || c == '\x0c' || c == '\r'

def trimBlanks (cs : List Char) : List Char :=
  ((cs.dropWhile isNumeralBlank).reverse.dropWhile isNumeralBlank).reverse

/-- Drop low lines, each of which must stand between two digits. -/
def dropLowLines (previous : Char) : List Char → Option (List Char)
  | [] => some []
  | c :: cs =>
    if c = '_' then
      if previous.isDigit ∧ (cs.head?.map Char.isDigit).getD false then dropLowLines c cs else none
    else (dropLowLines c cs).map (c :: ·)

def digitsValue (cs : List Char) : Nat := cs.foldl (fun n c => 10 * n + (c.toNat - 48)) 0

/-- A sign, if there is one, and what follows it. -/
def splitSign : List Char → Bool × List Char
  | '-' :: cs => (true, cs)
  | '+' :: cs => (false, cs)
  | cs => (false, cs)

/-- Longer integers are refused. -/
def maxIntDigits : Nat := 4300

def parseInt? (cs : List Char) : Option Int :=
  match dropLowLines ' ' (trimBlanks (cs.map numeralChar)) with
  | none => none
  | some cs =>
    let (negative, ds) := splitSign cs
    if ds = [] ∨ ¬ ds.all Char.isDigit ∨ maxIntDigits < ds.length then none
    else some (if negative then -(digitsValue ds : Int) else digitsValue ds)

/-- A decimal number as it is written: `mantissa` times ten to the `exponent`. -/
inductive Decimal where
  | finite (negative : Bool) (mantissa : Nat) (exponent : Int)
  | infinite (negative : Bool)
  | notANumber
  deriving DecidableEq, Repr

/-- The exponent at the end of a number, if it is well formed. -/
def parseExponent? : List Char → Option Int
  | [] => some 0
  | c :: cs =>
    if c = 'e' ∨ c = 'E' then
      let (negative, ds) := splitSign cs
      if ds = [] ∨ ¬ ds.all Char.isDigit then none
      else some (if negative then -(digitsValue ds : Int) else digitsValue ds)
    else none

def parseMagnitude? (negative : Bool) (cs : List Char) : Option Decimal :=
  let whole := cs.takeWhile Char.isDigit
  let rest := cs.dropWhile Char.isDigit
  let (fraction, rest) := match rest with
    | '.' :: r => (r.takeWhile Char.isDigit, r.dropWhile Char.isDigit)
    | r => ([], r)
  if whole = [] ∧ fraction = [] then none
  else
    (parseExponent? rest).map fun e =>
      .finite negative (digitsValue (whole ++ fraction)) (e - fraction.length)

def parseDecimal? (cs : List Char) : Option Decimal :=
  match dropLowLines ' ' (trimBlanks (cs.map numeralChar)) with
  | none => none
  | some cs =>
    let (negative, ds) := splitSign cs
    let word := String.ofList (ds.map Char.toLower)
    if word = "inf" ∨ word = "infinity" then some (.infinite negative)
    else if word = "nan" then some .notANumber
    else parseMagnitude? negative ds

end WidgetView.Text
