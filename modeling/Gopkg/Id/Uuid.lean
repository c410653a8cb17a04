import Gopkg.Digits.BigEndian
import Gopkg.Regex.Pattern

/-!
# UUIDs

`UUIDv7` of `id/id.go` and `UUID` of `validate/validate.go`.
-/

namespace Gopkg.Id

open Digits Regex RegularExpression

/-- The time in milliseconds and the random bytes are given. -/
def uuidv7Bytes (now : UInt64) (rand : Vector UInt8 16) : Vector UInt8 16 :=
  let b := rand
  let b := b.set 0 (now >>> 40).toUInt8
  let b := b.set 1 (now >>> 32).toUInt8
  let b := b.set 2 (now >>> 24).toUInt8
  let b := b.set 3 (now >>> 16).toUInt8
  let b := b.set 4 (now >>> 8).toUInt8
  let b := b.set 5 now.toUInt8
  let b := b.set 6 ((b[6] &&& 0x0F) ||| 0x70)
  let b := b.set 8 ((b[8] &&& 0x3F) ||| 0x80)
  b

def hexDigit (n : Nat) : Char := if n < 10 then Char.ofNat ('0'.toNat + n) else Char.ofNat ('a'.toNat + (n - 10))

/-- `hex.Encode` -/
def hexEncode (src : List UInt8) : List Char :=
  src.flatMap fun (v : UInt8) => [hexDigit (v >>> 4).toNat, hexDigit (v &&& 0x0F).toNat]

def uuidToString (b : Vector UInt8 16) : String :=
  let b := b.toList
  String.ofList (hexEncode (b.take 4) ++ ['-'] ++ hexEncode ((b.drop 4).take 2) ++ ['-'] ++
    hexEncode ((b.drop 6).take 2) ++ ['-'] ++ hexEncode ((b.drop 8).take 2) ++ ['-'] ++ hexEncode (b.drop 10))

def uuidv7 (now : UInt64) (rand : Vector UInt8 16) : String := uuidToString (uuidv7Bytes now rand)

/-! ## Validation -/

/-- The class `[0-9a-fA-F]`. -/
def hexClass : RegularExpression Char := oneOf "0123456789abcdefABCDEF".toList

/-- The anchors are left out: the whole string has to match. -/
def uuidRe : RegularExpression Char :=
  hexClass ^ 8 * (char '-' * (hexClass ^ 4 * (char '-' * ((oneOf "12345678".toList * hexClass ^ 3) * (char '-' *
    ((oneOf "89abAB".toList * hexClass ^ 3) * (char '-' * hexClass ^ 12)))))))

/-- The error of `validate.UUID`. -/
def validateUUID (s : String) : Option String :=
  if !uuidRe.rmatch s.toList then some "validate: invalid UUID" else none

/-! ## The number of a UUID -/

/-- The time, in six bytes. -/
def timeBytes (now : UInt64) : List UInt8 :=
  [(now >>> 40).toUInt8, (now >>> 32).toUInt8, (now >>> 24).toUInt8, (now >>> 16).toUInt8, (now >>> 8).toUInt8,
    now.toUInt8]

/-- The random bytes, with the version and the variant. -/
def randomBytes (rand : Vector UInt8 16) : List UInt8 :=
  [(rand[6] &&& 0x0F) ||| 0x70, rand[7], (rand[8] &&& 0x3F) ||| 0x80, rand[9], rand[10], rand[11], rand[12], rand[13],
    rand[14], rand[15]]

def hexValue (c : Char) : Nat :=
  if '0' ≤ c ∧ c ≤ '9' then c.toNat - '0'.toNat
  else if 'a' ≤ c ∧ c ≤ 'f' then c.toNat - 'a'.toNat + 10
  else if 'A' ≤ c ∧ c ≤ 'F' then c.toNat - 'A'.toNat + 10
  else 0

/-- The 128 bits that the digits stand for. -/
def uuidNumber (s : String) : Nat := bigEndian 16 ((s.toList.filter (· ≠ '-')).map hexValue)

end Gopkg.Id
