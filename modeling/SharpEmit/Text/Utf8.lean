/-
SharpEmit/Text/Utf8.lean

Decoding UTF-8 with an account of the first fault: where it starts, how many
bytes it spans and what is wrong.  Overlong forms, surrogates and code points
past U+10FFFF are refused at the byte that rules them out.
-/
import SharpEmit.Text.Digit

namespace SharpEmit.Text.Utf8

/-! ### Faults -/

/-- What can be wrong with a sequence of bytes. -/
inductive Reason where
  | invalidStart
  | invalidContinuation
  | unexpectedEnd
deriving DecidableEq, Repr

/-- The first fault of a byte sequence: the bytes from `position` on, `span` of
them, of which the first is `byte`. -/
structure Fault where
  position : Nat
  span : Nat
  byte : UInt8
  reason : Reason
deriving DecidableEq, Repr

/-- The reason in words. -/
def Reason.text : Reason → String
  | .invalidStart => "invalid start byte"
  | .invalidContinuation => "invalid continuation byte"
  | .unexpectedEnd => "unexpected end of data"

/-- The fault in words. -/
def Fault.message (f : Fault) : String :=
  let place :=
    if f.span = 1 then
      "byte 0x" ++ String.ofList (hexDigits 2 f.byte.toNat) ++ " in position " ++ toString f.position
    else
      "bytes in position " ++ toString f.position ++ "-" ++ toString (f.position + f.span - 1)
  "'utf-8' codec can't decode " ++ place ++ ": " ++ f.reason.text

/-! ### Decoding -/

/-- A byte `10xxxxxx`. -/
def isContinuation (b : UInt8) : Bool := 0x80 ≤ b && b < 0xC0

/-- The second bytes that may follow the first byte of a three-byte sequence. -/
def isSecondOfThree (first b : UInt8) : Bool :=
  isContinuation b && (first != 0xE0 || 0xA0 ≤ b) && (first != 0xED || b < 0xA0)

/-- The second bytes that may follow the first byte of a four-byte sequence. -/
def isSecondOfFour (first b : UInt8) : Bool :=
  isContinuation b && (first != 0xF0 || 0x90 ≤ b) && (first != 0xF4 || b < 0x90)

/-- The character with the given payload bits, six for each continuation byte. -/
def join (lead : Nat) (tail : List UInt8) : Char :=
  Char.ofNat (tail.foldl (fun n b => 64 * n + (b.toNat - 0x80)) lead)

/-- Decodes bytes of which the first stands at `pos`. -/
def decodeFrom (pos : Nat) : List UInt8 → Except Fault (List Char)
  | [] => .ok []
  | b :: rest =>
    let fault := fun span reason => Except.error (⟨pos, span, b, reason⟩ : Fault)
    if b < 0x80 then
      (Char.ofNat b.toNat :: ·) <$> decodeFrom (pos + 1) rest
    else if b < 0xC2 then fault 1 .invalidStart
    else if b < 0xE0 then
      match rest with
      | [] => fault 1 .unexpectedEnd
      | b₁ :: rest =>
        if isContinuation b₁ then
          (join (b.toNat - 0xC0) [b₁] :: ·) <$> decodeFrom (pos + 2) rest
        else fault 1 .invalidContinuation
    else if b < 0xF0 then
      match rest with
      | [] => fault 1 .unexpectedEnd
      | [b₁] => if isSecondOfThree b b₁ then fault 2 .unexpectedEnd else fault 1 .invalidContinuation
      | b₁ :: b₂ :: rest =>
        if !isSecondOfThree b b₁ then fault 1 .invalidContinuation
        else if !isContinuation b₂ then fault 2 .invalidContinuation
        else (join (b.toNat - 0xE0) [b₁, b₂] :: ·) <$> decodeFrom (pos + 3) rest
    else if b < 0xF5 then
      match rest with
      | [] => fault 1 .unexpectedEnd
      | [b₁] => if isSecondOfFour b b₁ then fault 2 .unexpectedEnd else fault 1 .invalidContinuation
      | [b₁, b₂] =>
        if !isSecondOfFour b b₁ then fault 1 .invalidContinuation
        else if !isContinuation b₂ then fault 2 .invalidContinuation
        else fault 3 .unexpectedEnd
      | b₁ :: b₂ :: b₃ :: rest =>
        if !isSecondOfFour b b₁ then fault 1 .invalidContinuation
        else if !isContinuation b₂ then fault 2 .invalidContinuation
        else if !isContinuation b₃ then fault 3 .invalidContinuation
        else (join (b.toNat - 0xF0) [b₁, b₂, b₃] :: ·) <$> decodeFrom (pos + 4) rest
    else fault 1 .invalidStart

/-- Decodes a whole byte sequence. -/
def decode (bytes : ByteArray) : Except Fault (List Char) :=
  decodeFrom 0 bytes.data.toList

end SharpEmit.Text.Utf8
