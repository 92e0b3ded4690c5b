import Ket.Invite.Signed
import Ket.Lib.Str

/-!
# The hand-typeable form of an invite (`invite-capsule/src/text/manual.rs`)

Crockford Base32 of the binary form and a checksum, in groups of five.  Texts are byte strings here:
a body that does not begin at a character begins with a byte that is no symbol, and is refused as the
source refuses it.  SHA-256 is a parameter.
-/

namespace Ket.Invite

open Ket.Lib

/-- `ManualText`. -/
structure ManualText where
  /-- Such as `APP1-`; matched without regard to case. -/
  lead : String
  checksumDomain : List UInt8

namespace Manual

def checksumBytes : ℕ := 4
def group : ℕ := 5
def dash : UInt8 := 0x2d
def crockford : List UInt8 := Str.bytes "0123456789ABCDEFGHJKMNPQRSTVWXYZ"

def symbol (n : ℕ) : UInt8 := crockford.getD n 0

/-- The symbols of the bits that are in the buffer, five at a time, and what is left of them. -/
def drain (buffer : ℕ) : ℕ → List UInt8 × ℕ × ℕ
  | bits + 5 =>
    let r := drain (buffer % 2 ^ bits) bits
    (symbol (buffer / 2 ^ bits % 32) :: r.1, r.2)
  | bits => ([], buffer, bits)

/-- The loop of `crockford_encode`, over a buffer of 16 bits. -/
def encodeBits (buffer bits : ℕ) : List UInt8 → List UInt8
  | [] => if 0 < bits then [symbol (buffer * 2 ^ (5 - bits) % 32)] else []
  | byte :: rest =>
    let r := drain ((buffer * 256 + byte.toNat) % 2 ^ 16) (bits + 8)
    r.1 ++ encodeBits r.2.1 r.2.2 rest

def crockfordEncode (value : List UInt8) : List UInt8 := encodeBits 0 0 value

def toAsciiUppercase (b : UInt8) : UInt8 := if 0x61 ≤ b ∧ b ≤ 0x7a then b - 0x20 else b

/-- `crockford_value`: the letter O is a zero, and I and L are ones. -/
def crockfordValue (byte : UInt8) : Option ℕ :=
  let value := toAsciiUppercase byte
  if value = 0x4f then some 0
  else if value = 0x49 ∨ value = 0x4c then some 1
  else crockford.findIdx? (· == value)

/-- The loop of `crockford_decode`. -/
def decodeBits (buffer bits : ℕ) : List UInt8 → Except CapsuleError (List UInt8)
  | [] => if 0 < bits ∧ buffer ≠ 0 then .error .invalid else .ok []
  | byte :: rest =>
    match crockfordValue byte with
    | none => .error .invalid
    | some decoded =>
      let buffer := (buffer * 32 + decoded) % 2 ^ 16
      let bits := bits + 5
      if 8 ≤ bits then do
        let output ← decodeBits (buffer % 2 ^ (bits - 8)) (bits - 8) rest
        return UInt8.ofNat (buffer / 2 ^ (bits - 8)) :: output
      else decodeBits buffer bits rest

def crockfordDecode (value : List UInt8) : Except CapsuleError (List UInt8) := do
  require (decide ((value.length * 5 + 7) / 8 ≤ maxBinaryInviteBytes + checksumBytes)) .tooLarge
  decodeBits 0 0 value

/-- A dash before each group but the first. -/
def dashed (encoded : List UInt8) : List UInt8 :=
  encoded.zipIdx.flatMap fun (character, index) =>
    if 0 < index ∧ index % group = 0 then [dash, character] else [character]

variable (sha256 : List UInt8 → Vector UInt8 32)

def checksum (form : ManualText) (value : List UInt8) : List UInt8 :=
  (sha256 (form.checksumDomain ++ value)).toList.take checksumBytes

end Manual

open Manual

variable (sha256 : List UInt8 → Vector UInt8 32)

/-- `encode_manual`. -/
def encodeManual (form : ManualText) (binary : List UInt8) : List UInt8 :=
  Str.bytes form.lead ++ dashed (crockfordEncode (binary ++ checksum sha256 form binary))

/-- `decode_manual`: the text begins with the form's lead. -/
def decodeManual (form : ManualText) (input : List UInt8) : Except CapsuleError (List UInt8) := do
  let body := input.drop (Str.bytes form.lead).length
  let isSymbol := fun b : UInt8 =>
    isAsciiDigit b || isAsciiLowercase b || isAsciiUppercase b || b == dash
  require (decide (body ≠ [] ∧ body.head? ≠ some dash ∧ body.getLast? ≠ some dash ∧
    ¬ [dash, dash] <:+: body) && body.all isSymbol) .invalid
  let decoded ← crockfordDecode (body.filter (· != dash))
  require (decide (checksumBytes < decoded.length ∧
    decoded.length ≤ maxBinaryInviteBytes + checksumBytes)) .invalid
  let split := decoded.length - checksumBytes
  let expected := checksum sha256 form (decoded.take split)
  let difference := ((decoded.drop split).zipWith (· ^^^ ·) expected).foldl (· ||| ·) 0
  require (difference == 0) .invalidChecksum
  return decoded.take split

/-- `has_prefix`: the test for the lead of the manual form. -/
def hasLead (input : String) (lead : String) : Bool :=
  ((Str.bytes input).take (Str.bytes lead).length).map toAsciiUppercase
    == (Str.bytes lead).map toAsciiUppercase

end Ket.Invite
