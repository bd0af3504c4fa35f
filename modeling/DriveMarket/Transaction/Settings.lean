import DriveMarket.Bytes.Hex
import DriveMarket.Deadline
import DriveMarket.Network
import DriveMarket.Quantity
import DriveMarket.Transaction.Error

/-
  The settings that transactions are made under.

  Environment variables override the defaults one by one; a
  variable that cannot be read leaves its default in place.

  Key definitions include:
    * `Settings`
    * `Settings.default`
    * `Settings.validate`
    * `Settings.ofEnvironment`
    * `Numeral.read?`
-/

namespace DriveMarket

------------------------------------------------------------
-- Settings
------------------------------------------------------------

/-
  What goes into every header, the hash of the network's first
  block, and how many seconds a transaction stays valid.
-/
structure Settings where
  network : Network
  generationHash : Digest
  maxFee : Amount
  window : UInt64
deriving DecidableEq

namespace Settings

/- The test network without fees, and an hour to confirm. -/
def default : Settings :=
  { network := .mijinTest
    generationHash := .zero 32
    maxFee := ⟨0⟩
    window := 3600 }

/- Refuse settings under which no transaction is valid. -/
def validate
    (settings : Settings) : Except TransactionError Unit :=
  if settings.generationHash.isZero then
    .error (.settings .zeroGenerationHash)
  else if settings.window = 0 then
    .error (.settings .zeroWindow)
  else
    .ok ()

end Settings

------------------------------------------------------------
-- Numerals
------------------------------------------------------------

namespace Numeral

/- The value of a digit in a base of at most sixteen. -/
def digit?
    (base : Nat)
    (c : Char) : Option Nat :=
  if c.val < 128 then
    (Hex.value? c.val.toUInt8).filter (· < base)
  else
    none

/-
  An unsigned number that does not exceed `limit`: digits,
  at least one, after at most one plus sign.
-/
def read?
    (base limit : Nat)
    (text : List Char) : Option Nat := do
  let digits :=
    match text with
    | '+' :: rest => rest
    | _ => text
  let values ← digits.mapM (digit? base)
  let n := values.foldl (fun n d => n * base + d) 0
  if values.isEmpty ∨ limit < n then
    none
  else
    some n

/- Characters that separate without being seen. -/
def isBlank
    (c : Char) : Bool :=
  let n := c.toNat
  (0x9 ≤ n && n ≤ 0xd) || n == 0x20 || n == 0x85 ||
    n == 0xa0 || n == 0x1680 || (0x2000 ≤ n && n ≤ 0x200a) ||
    n == 0x2028 || n == 0x2029 || n == 0x202f ||
    n == 0x205f || n == 0x3000

/- The text without blanks at either end. -/
def trim
    (text : String) : List Char :=
  ((text.toList.dropWhile isBlank).reverse.dropWhile
    isBlank).reverse

/- A decimal 64-bit number between blanks. -/
def word64?
    (text : String) : Option UInt64 :=
  (read? 10 Word64.top (trim text)).map UInt64.ofNat

/- A byte between blanks, in decimal or marked hexadecimal. -/
def byte?
    (text : String) : Option UInt8 :=
  let n :=
    match trim text with
    | '0' :: 'x' :: digits => read? 16 255 digits
    | '0' :: 'X' :: digits => read? 16 255 digits
    | digits => read? 10 255 digits
  n.map UInt8.ofNat

end Numeral

------------------------------------------------------------
-- Environment
------------------------------------------------------------

namespace Settings

/- The network of a variable's text. -/
def readNetwork?
    (text : String) : Option Network :=
  (Numeral.byte? text).bind Network.ofByte?

/- The generation hash of a variable's text. -/
def readHash?
    (text : String) : Option Digest :=
  (FixedBytes.ofHex 32
    (String.ofList (Numeral.trim text))).toOption

/- The settings that variables with the given texts make. -/
def ofEnvironment
    (lookup : String → Option String) : Settings :=
  let read {α : Type}
      (name : String)
      (parse : String → Option α)
      (fallback : α) : α :=
    ((lookup name).bind parse).getD fallback
  { network :=
      read "SM_NETWORK_TYPE" readNetwork? default.network
    generationHash :=
      read "SM_GENERATION_HASH" readHash?
        default.generationHash
    maxFee :=
      ⟨read "SM_MAX_FEE" Numeral.word64?
        default.maxFee.value⟩
    window :=
      read "SM_DEADLINE_SECS" Numeral.word64? default.window }

end Settings

end DriveMarket
