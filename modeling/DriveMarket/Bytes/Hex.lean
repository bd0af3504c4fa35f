import DriveMarket.Bytes.Text
import DriveMarket.Refusal

/-
  Hexadecimal text.

  Bytes are printed with two digits each.  Reading takes both
  letter cases, refuses an odd number of digits first, and
  then names the first byte of the text that is no digit.

  Key definitions include:
    * `Hex.upper`
    * `Hex.lower`
    * `Hex.decode`
    * `HexError`
    * `FixedBytes.ofHex`
-/

namespace DriveMarket

------------------------------------------------------------
-- Printing
------------------------------------------------------------

namespace Hex

/- The character of a digit, given the first letter past nine. -/
def digit
    (letters : Char)
    (n : Nat) : Char :=
  if n < 10 then
    Char.ofNat ('0'.toNat + n)
  else
    Char.ofNat (letters.toNat + (n - 10))

/- Two digits for each byte, high half first. -/
def encode
    (letters : Char)
    (bytes : Bytes) : String :=
  String.ofList
    (bytes.flatMap fun byte =>
      [digit letters (byte.toNat / 16),
        digit letters (byte.toNat % 16)])

/- Upper-case digits. -/
def upper
    (bytes : Bytes) : String :=
  encode 'A' bytes

/- Lower-case digits. -/
def lower
    (bytes : Bytes) : String :=
  encode 'a' bytes

end Hex

------------------------------------------------------------
-- Refusals
------------------------------------------------------------

/- Why a text is no hexadecimal byte string of the wanted width. -/
inductive HexError where
  | oddLength
  | invalidCharacter (byte : UInt8) (index : Nat)
  | invalidLength (expected actual : Nat)
deriving DecidableEq

namespace Hex

/-
  A byte of the text shown as the character with its number:
  quoted, with the short escapes for the usual control
  characters, the quote and the backslash, and a numbered
  escape for whatever else does not print.
-/
def showByte
    (byte : UInt8) : String :=
  let n := byte.toNat
  let blank :=
    n < 0x20 || (0x7f ≤ n && n ≤ 0xa0) || n == 0xad
  let body :=
    match n with
    | 0 => "\\0"
    | 9 => "\\t"
    | 10 => "\\n"
    | 13 => "\\r"
    | 39 => "\\'"
    | 92 => "\\\\"
    | _ =>
        if blank then
          "\\u\x7b" ++
            String.ofList (Nat.toDigits 16 n) ++ "\x7d"
        else
          String.singleton (Char.ofNat n)
  "'" ++ body ++ "'"

end Hex

namespace HexError

/- The wording of a refusal. -/
def message : HexError → String
  | .oddLength =>
      "Invalid hex string: Odd number of digits"
  | .invalidCharacter byte index =>
      "Invalid hex string: Invalid character " ++
        Hex.showByte byte ++ s!" at position {index}"
  | .invalidLength expected actual =>
      s!"Invalid length: expected {expected} bytes, " ++
        s!"got {actual}"

/- The code of a refusal. -/
def code : HexError → String
  | .oddLength => "InvalidHex"
  | .invalidCharacter .. => "InvalidHex"
  | .invalidLength .. => "InvalidLength"

instance : Refusal HexError :=
  ⟨code, message⟩

end HexError

------------------------------------------------------------
-- Reading
------------------------------------------------------------

namespace Hex

/- The value of a digit, given as a byte of the text. -/
def value?
    (byte : UInt8) : Option Nat :=
  let n := byte.toNat
  if 48 ≤ n ∧ n ≤ 57 then
    some (n - 48)
  else if 65 ≤ n ∧ n ≤ 70 then
    some (n - 55)
  else if 97 ≤ n ∧ n ≤ 102 then
    some (n - 87)
  else
    none

/- Read digit pairs, counting from the byte at `index`. -/
def decodePairs :
    (index : Nat) →
    (text : Bytes) →
    Except HexError Bytes
  | index, high :: low :: rest =>
      match value? high, value? low with
      | none, _ => .error (.invalidCharacter high index)
      | _, none =>
          .error (.invalidCharacter low (index + 1))
      | some h, some l => do
          let bytes ← decodePairs (index + 2) rest
          return UInt8.ofNat (16 * h + l) :: bytes
  | _, _ => .ok []

/- Read a text of hexadecimal digits. -/
def decode
    (text : String) : Except HexError Bytes :=
  let raw := Text.encode text
  if raw.length % 2 = 1 then
    .error .oddLength
  else
    decodePairs 0 raw

end Hex

/- Read a text that must spell exactly `width` bytes. -/
def FixedBytes.ofHex
    (width : Nat)
    (text : String) :
    Except HexError (FixedBytes width) := do
  let bytes ← Hex.decode text
  match FixedBytes.ofList? width bytes with
  | some value => return value
  | none => throw (.invalidLength width bytes.length)

/- The upper-case digits of a fixed-width value. -/
def FixedBytes.hex
    {width : Nat}
    (value : FixedBytes width) : String :=
  Hex.upper value.toList

end DriveMarket
