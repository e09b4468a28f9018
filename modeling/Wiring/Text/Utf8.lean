import Wiring.Text.Numeral

/-! # Strict UTF-8

Bytes are decoded strictly. The first sequence that cannot be completed is a fault, which tells
where it starts, how many of its bytes were still valid, and why it ends there.
-/

namespace Wiring.Text.Utf8

/-- Why a sequence of bytes stops being UTF-8. -/
inductive Reason where
  | startByte
  | continuation
  | endOfData
deriving DecidableEq, Repr

namespace Reason

def message : Reason → String
  | startByte => "invalid start byte"
  | continuation => "invalid continuation byte"
  | endOfData => "unexpected end of data"

end Reason

/-- A faulty sequence: its place, its first byte, how many of its bytes are covered, and why. -/
structure Fault where
  position : Nat
  byte : Nat
  width : Nat
  reason : Reason
deriving DecidableEq, Repr

namespace Fault

def message (fault : Fault) : String :=
  let reason := fault.reason.message
  if fault.width = 1 then
    let byte := String.ofList (hexDigits fault.byte 2)
    s!"'utf-8' codec can't decode byte 0x{byte} in position {fault.position}: {reason}"
  else
    let last := fault.position + fault.width - 1
    s!"'utf-8' codec can't decode bytes in position {fault.position}-{last}: {reason}"

end Fault

/-- How a first byte goes on: the bits it gives, the range of the second byte, and the number of
bytes after the second. -/
structure Lead where
  bits : Nat
  least : Nat
  most : Nat
  more : Nat
deriving DecidableEq, Repr

/-- The lead that a first byte of several is. -/
def lead? (byte : Nat) : Option Lead :=
  if 0xC2 ≤ byte ∧ byte ≤ 0xDF then some ⟨byte - 0xC0, 0x80, 0xBF, 0⟩
  else if byte = 0xE0 then some ⟨0, 0xA0, 0xBF, 1⟩
  else if byte = 0xED then some ⟨0xD, 0x80, 0x9F, 1⟩
  else if 0xE1 ≤ byte ∧ byte ≤ 0xEF then some ⟨byte - 0xE0, 0x80, 0xBF, 1⟩
  else if byte = 0xF0 then some ⟨0, 0x90, 0xBF, 2⟩
  else if 0xF1 ≤ byte ∧ byte ≤ 0xF3 then some ⟨byte - 0xF0, 0x80, 0xBF, 2⟩
  else if byte = 0xF4 then some ⟨4, 0x80, 0x8F, 2⟩
  else none

/-- Where decoding stands inside a sequence: its first byte, how many bytes were taken, the bits
so far, the range of the next byte, and the number of bytes after that. -/
structure Progress where
  first : Nat
  taken : Nat
  bits : Nat
  least : Nat
  most : Nat
  more : Nat
deriving DecidableEq, Repr

/-- Decode bytes; `position` is the place of the next one, `chars` holds what was decoded in
reverse, and `pending` the sequence under way, if any. -/
def decodeFrom (position : Nat) (chars : List Char) (pending : Option Progress) :
    List UInt8 → Except Fault (List Char)
  | [] =>
    match pending with
    | none => .ok chars.reverse
    | some state => .error ⟨position - state.taken, state.first, state.taken, .endOfData⟩
  | byte :: rest =>
    let b := byte.toNat
    match pending with
    | none =>
      if b < 0x80 then decodeFrom (position + 1) (Char.ofNat b :: chars) none rest
      else
        match lead? b with
        | some lead =>
          decodeFrom (position + 1) chars
            (some ⟨b, 1, lead.bits, lead.least, lead.most, lead.more⟩) rest
        | none => .error ⟨position, b, 1, .startByte⟩
    | some state =>
      if state.least ≤ b ∧ b ≤ state.most then
        let bits := state.bits * 64 + (b - 0x80)
        if state.more = 0 then decodeFrom (position + 1) (Char.ofNat bits :: chars) none rest
        else
          decodeFrom (position + 1) chars
            (some ⟨state.first, state.taken + 1, bits, 0x80, 0xBF, state.more - 1⟩) rest
      else .error ⟨position - state.taken, state.first, state.taken, .continuation⟩

def decode (bytes : List UInt8) : Except Fault (List Char) := decodeFrom 0 [] none bytes

/-- Characters with every line ending as a single newline. -/
def unifyLineEnds : List Char → List Char
  | [] => []
  | '\r' :: '\n' :: rest => '\n' :: unifyLineEnds rest
  | '\r' :: rest => '\n' :: unifyLineEnds rest
  | c :: rest => c :: unifyLineEnds rest

end Wiring.Text.Utf8
