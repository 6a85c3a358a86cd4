/-!
# UTF-8

UTF-8, read strictly. The lead byte fixes how many continuation bytes follow and the range of the
first of them, so overlong forms, surrogates and code points past the last one are refused at that
byte. A fault tells the bytes it covers, from `start` up to `stop`.
-/
namespace WidgetView.Text.Utf8

inductive Flaw where
  | startByte | continuationByte | truncated
  deriving DecidableEq, Repr

structure Fault where
  flaw : Flaw
  lead : UInt8
  start : Nat
  stop : Nat
  deriving DecidableEq, Repr

/-- What a lead byte announces: its payload, the continuation bytes, the range of the first. -/
structure Lead where
  payload : Nat
  following : Nat
  low : Nat
  high : Nat

def lead? (b : Nat) : Option Lead :=
  if b < 0x80 then some ⟨b, 0, 0x80, 0xBF⟩
  else if b < 0xC2 then none
  else if b < 0xE0 then some ⟨b - 0xC0, 1, 0x80, 0xBF⟩
  else if b = 0xE0 then some ⟨0, 2, 0xA0, 0xBF⟩
  else if b = 0xED then some ⟨13, 2, 0x80, 0x9F⟩
  else if b < 0xF0 then some ⟨b - 0xE0, 2, 0x80, 0xBF⟩
  else if b = 0xF0 then some ⟨0, 3, 0x90, 0xBF⟩
  else if b < 0xF4 then some ⟨b - 0xF0, 3, 0x80, 0xBF⟩
  else if b = 0xF4 then some ⟨4, 3, 0x80, 0x8F⟩
  else none

/-- Read the continuation bytes; a failure gives the flaw and how many of them were good. -/
def continue? : Nat → Nat → Nat → Nat → Nat → List UInt8 → Except (Flaw × Nat) Nat
  | 0, _, _, payload, _, _ => .ok payload
  | _ + 1, _, _, _, good, [] => .error (.truncated, good)
  | n + 1, low, high, payload, good, b :: rest =>
    if low ≤ b.toNat ∧ b.toNat ≤ high then
      continue? n 0x80 0xBF (payload * 64 + b.toNat % 64) (good + 1) rest
    else .error (.continuationByte, good)

/-- Decode bytes that start at position `start` of the whole. -/
def decodeFrom (start : Nat) : List UInt8 → Except Fault (List Char)
  | [] => .ok []
  | b :: rest =>
    match lead? b.toNat with
    | none => .error ⟨.startByte, b, start, start + 1⟩
    | some l =>
      match continue? l.following l.low l.high l.payload 0 rest with
      | .error (flaw, good) => .error ⟨flaw, b, start, start + 1 + good⟩
      | .ok code =>
        match decodeFrom (start + 1 + l.following) (rest.drop l.following) with
        | .error e => .error e
        | .ok cs => .ok (Char.ofNat code :: cs)
termination_by bs => bs.length
decreasing_by simp only [List.length_drop, List.length_cons]; omega

def decode (bytes : List UInt8) : Except Fault (List Char) := decodeFrom 0 bytes

def encode (cs : List Char) : List UInt8 := cs.flatMap String.utf8EncodeChar

end WidgetView.Text.Utf8
