/-!
# YAML scalars

YAML scalars: which texts may be written plain, and which would then be read as something other than
text. A plain text that a reader takes for a truth value, a number, a date or nothing has to be
quoted.
-/
namespace WidgetView

namespace Yaml

/-- Texts that stand for truth values, for nothing, or for one of the marks of the format. -/
def reservedWords : List String := [
  "yes", "Yes", "YES", "no", "No", "NO", "true", "True", "TRUE", "false", "False", "FALSE",
  "on", "On", "ON", "off", "Off", "OFF", "~", "null", "Null", "NULL", "", "<<", "=", "!", "&", "*"]

def isDigitOrLow (c : Char) : Bool := c.isDigit || c == '_'

/-- What follows an optional sign. -/
def dropSign : List Char → List Char
  | '-' :: cs => cs
  | '+' :: cs => cs
  | cs => cs

/-- A number of one or two digits below sixty. -/
def isSixtieth : List Char → Bool
  | [c] => c.isDigit
  | [c, d] => '0' ≤ c && c ≤ '5' && d.isDigit
  | _ => false

/-- The stretches between colons. -/
def splitColons : List Char → List (List Char)
  | [] => [[]]
  | c :: cs =>
    if c = ':' then [] :: splitColons cs
    else
      match splitColons cs with
      | [] => [[c]]
      | part :: parts => (c :: part) :: parts

/-- An integer: binary, octal, decimal, to base sixteen, or to base sixty with colons. -/
def isInteger (cs : List Char) : Bool :=
  match dropSign cs with
  | '0' :: 'b' :: ds => !ds.isEmpty && ds.all fun c => c == '0' || c == '1' || c == '_'
  | '0' :: 'x' :: ds =>
    !ds.isEmpty && ds.all fun c =>
      c.isDigit || ('a' ≤ c && c ≤ 'f') || ('A' ≤ c && c ≤ 'F') || c == '_'
  | '0' :: ds => ds.all fun c => ('0' ≤ c && c ≤ '7') || c == '_'
  | c :: ds =>
    c.isDigit &&
      match splitColons ds with
      | [] => false
      | whole :: sixtieths => whole.all isDigitOrLow && sixtieths.all isSixtieth
  | [] => false

/-- An exponent with its sign, or nothing. -/
def isExponent : List Char → Bool
  | [] => true
  | e :: s :: ds =>
    (e == 'e' || e == 'E') && (s == '-' || s == '+') && !ds.isEmpty && ds.all Char.isDigit
  | _ => false

/-- A number with a point: decimal, to base sixty, or one of the infinities and the undefined
number. -/
def isReal (cs : List Char) : Bool :=
  let unsigned := dropSign cs
  let word := String.ofList unsigned
  if word ∈ [".inf", ".Inf", ".INF"] then true
  else if String.ofList cs ∈ [".nan", ".NaN", ".NAN"] then true
  else
    let whole := unsigned.takeWhile fun c => c != '.'
    let rest := unsigned.dropWhile fun c => c != '.'
    match rest with
    | [] => false
    | _ :: fraction =>
      let digits := fraction.takeWhile isDigitOrLow
      let exponent := fraction.dropWhile isDigitOrLow
      match whole with
      | [] =>
        cs.head? == some '.' && (digits.head?.map Char.isDigit).getD false && isExponent exponent
      | c :: more =>
        c.isDigit &&
          match splitColons more with
          | [] => false
          | [first] => first.all isDigitOrLow && isExponent exponent
          | first :: sixtieths =>
            first.all isDigitOrLow && sixtieths.all isSixtieth && exponent.isEmpty

/-- Between `low` and `high` digits at the front, as many as there are; what follows them. -/
def digitsThen (low high : Nat) (next : List Char → Bool) (cs : List Char) : Bool :=
  let n := min high (cs.takeWhile Char.isDigit).length
  low ≤ n && next (cs.drop n)

def charThen (p : Char → Bool) (next : List Char → Bool) : List Char → Bool
  | [] => false
  | c :: cs => p c && next cs

def isBlank (c : Char) : Bool := c == ' ' || c == '\t'

/-- A time zone, or nothing. -/
def isZone (cs : List Char) : Bool :=
  match cs.dropWhile isBlank with
  | [] => cs.isEmpty
  | ['Z'] => true
  | s :: ds =>
    (s == '-' || s == '+') &&
      digitsThen 1 2 (fun rest =>
        rest.isEmpty || charThen (· == ':') (digitsThen 2 2 List.isEmpty) rest) ds

/-- A time of day, perhaps with a fraction of a second and a zone. -/
def isTimeOfDay : List Char → Bool :=
  digitsThen 1 2 <| charThen (· == ':') <| digitsThen 2 2 <| charThen (· == ':') <|
    digitsThen 2 2 fun rest =>
      match rest with
      | '.' :: cs => isZone (cs.dropWhile Char.isDigit)
      | cs => isZone cs

/-- What separates a date from a time, and then the time. -/
def isTimePart : List Char → Bool
  | [] => false
  | c :: cs =>
    if c == 'T' || c == 't' then isTimeOfDay cs
    else isBlank c && isTimeOfDay (cs.dropWhile isBlank)

/-- A date, or a date with a time of day. -/
def isTimestamp (cs : List Char) : Bool :=
  let date (low : Nat) (next : List Char → Bool) :=
    digitsThen 4 4 (charThen (· == '-') (digitsThen low 2 (charThen (· == '-')
      (digitsThen low 2 next)))) cs
  date 2 List.isEmpty || date 1 isTimePart

/-- A reader would not take this text for text if it stood there plain. -/
def isReserved (s : String) : Bool :=
  s ∈ reservedWords || isInteger s.toList || isReal s.toList || isTimestamp s.toList

/-- Characters that a following or preceding blank gives a meaning. -/
def isGap (c : Char) : Bool :=
  c ∈ ['\x00', ' ', '\t', '\r', '\n', '\u0085', '\u2028', '\u2029']

/-- Characters that cannot stand in a plain or single-quoted text. -/
def isSpecial (c : Char) : Bool := !(c == '\n' || (0x20 ≤ c.toNat && c.toNat ≤ 0x7E))

def opensIndicator (c : Char) : Bool := c ∈ "#,[]\x7b\x7d&*!|>'\x22%@\x60".toList

/-- A colon before a gap, or a number sign after one, within a text. -/
def hasInnerIndicator (previous : Char) : List Char → Bool
  | [] => false
  | c :: cs =>
    (c == ':' && (cs.head?.map isGap).getD true) || (c == '#' && isGap previous) ||
      hasInnerIndicator c cs

/-- The text would be read as an indicator of the format. -/
def hasIndicator (cs : List Char) : Bool :=
  match cs with
  | [] => false
  | c :: rest =>
    ['-', '-', '-'].isPrefixOf cs || ['.', '.', '.'].isPrefixOf cs || opensIndicator c ||
      ((c == '?' || c == ':' || c == '-') && (rest.head?.map isGap).getD true) ||
      hasInnerIndicator c rest

/-- One of two neighbours is `a` and the next is `b`. -/
def hasPair (a b : Char) : List Char → Bool
  | c :: d :: cs => (c == a && d == b) || hasPair a b (d :: cs)
  | _ => false

inductive Style where
  | plain | single | double
  deriving DecidableEq, Repr

/-- The style for a text: plain if it is read back as itself, else in single quotes, and in double
quotes if it needs escapes. -/
def styleOf (s : String) : Style :=
  let cs := s.toList
  let special := cs.any isSpecial
  if special || hasPair ' ' '\n' cs || hasPair '\n' ' ' cs then .double
  else if s = "" then .single
  else if '\n' ∈ cs || cs.head? == some ' ' || cs.getLast? == some ' ' || hasIndicator cs ||
      isReserved s then .single
  else .plain

end Yaml

end WidgetView
