import DriveMarket.Bytes.Text
import DriveMarket.Json.Value
import DriveMarket.ModelError

/-
  How values are written as JSON, and read back.

  A form pairs a reader with a writer.  Reading refuses what
  has another shape, and what has the right shape but breaks
  a rule of the market.

  Key definitions include:
    * `JsonFault`
    * `JsonForm`
    * `JsonForm.unsigned`
    * `JsonForm.fixedBytes`
    * `JsonForm.list`
    * `JsonForm.named`
    * `JsonForm.checked`
-/

namespace DriveMarket

/- Why a JSON value is refused. -/
inductive JsonFault where
  | malformed
  | refused (cause : ModelError)
deriving DecidableEq

/- A way to write values as JSON, and to read them. -/
structure JsonForm (α : Type) where
  read : JsonValue → Except JsonFault α
  write : α → JsonValue

namespace JsonForm

variable {α β : Type}

/- A form for values that another type's values spell. -/
def convert
    (ofSpelling : α → β)
    (spelling : β → α)
    (form : JsonForm α) : JsonForm β :=
  { read := fun value => (form.read value).map ofSpelling
    write := fun item => form.write (spelling item) }

/- A form that reads only what a rule of the market admits. -/
def checked
    (rule : α → Except ModelError α)
    (form : JsonForm α) : JsonForm α :=
  { read := fun value => do
      let item ← form.read value
      (rule item).mapError .refused
    write := form.write }

------------------------------------------------------------
-- Numbers
------------------------------------------------------------

/- Integers from `low` up to but not including `high`. -/
def integer
    (low high : Int) : JsonForm Int :=
  { read := fun
      | .integer n =>
          if low ≤ n ∧ n < high then
            .ok n
          else
            .error .malformed
      | _ => .error .malformed
    write := .integer }

/- Natural numbers below a limit. -/
def unsigned
    (limit : Nat) : JsonForm Nat :=
  (integer 0 limit).convert Int.toNat Int.ofNat

/- 8-bit numbers. -/
def uint8 : JsonForm UInt8 :=
  (unsigned 0x100).convert UInt8.ofNat UInt8.toNat

/- 16-bit numbers. -/
def uint16 : JsonForm UInt16 :=
  (unsigned 0x10000).convert UInt16.ofNat UInt16.toNat

/- 32-bit numbers. -/
def uint32 : JsonForm UInt32 :=
  (unsigned 0x100000000).convert UInt32.ofNat UInt32.toNat

/- 64-bit numbers. -/
def uint64 : JsonForm UInt64 :=
  (unsigned 0x10000000000000000).convert
    UInt64.ofNat UInt64.toNat

/- 32-bit numbers with a sign. -/
def int32 : JsonForm Int32 :=
  (integer (-0x80000000) 0x80000000).convert
    Int32.ofInt Int32.toInt

------------------------------------------------------------
-- Truth Values and Texts
------------------------------------------------------------

/- Truth values. -/
def bool : JsonForm Bool :=
  { read := fun
      | .bool value => .ok value
      | _ => .error .malformed
    write := .bool }

/- Texts. -/
def text : JsonForm String :=
  { read := fun
      | .text value => .ok value
      | _ => .error .malformed
    write := .text }

/-
  Values with names.  A name may also be given as an object
  whose only member has that name and is null.
-/
def named
    (name : α → String)
    (ofName? : String → Option α) : JsonForm α :=
  let ofText (text : String) :=
    match ofName? text with
    | some item => .ok item
    | none => .error .malformed
  { read := fun
      | .text text => ofText text
      | .object [(text, .null)] => ofText text
      | _ => .error .malformed
    write := fun item => .text (name item) }

------------------------------------------------------------
-- Lists and Optional Values
------------------------------------------------------------

/- Lists whose items have one form. -/
def list
    (form : JsonForm α) : JsonForm (List α) :=
  { read := fun
      | .list items => items.mapM form.read
      | _ => .error .malformed
    write := fun items => .list (items.map form.write) }

/- Pairs, as lists of two items. -/
def pair
    (first : JsonForm α)
    (second : JsonForm β) : JsonForm (α × β) :=
  { read := fun
      | .list [a, b] => do
          let a ← first.read a
          let b ← second.read b
          return (a, b)
      | _ => .error .malformed
    write := fun both =>
      .list [first.write both.1, second.write both.2] }

/- Values that may be null. -/
def optional
    (form : JsonForm α) : JsonForm (Option α) :=
  { read := fun
      | .null => .ok none
      | value => (form.read value).map some
    write := fun
      | some item => form.write item
      | none => .null }

------------------------------------------------------------
-- Bytes
------------------------------------------------------------

/- Bytes as a list of numbers. -/
def bytes : JsonForm Bytes :=
  list uint8

/- Bytes that must have a width. -/
def ofWidth
    (width : Nat)
    (bytes : Bytes) :
    Except JsonFault (FixedBytes width) :=
  match FixedBytes.ofList? width bytes with
  | some fixed => .ok fixed
  | none => .error .malformed

/- A number of bytes of one width, as a list of numbers. -/
def fixedBytes
    (width : Nat) : JsonForm (FixedBytes width) :=
  { read := fun value => do
      let items ← bytes.read value
      ofWidth width items
    write := fun fixed => bytes.write fixed.toList }

/-
  Bytes of one width that may also be given as a text, whose
  encoding is then meant.
-/
def fixedBytesOrText
    (width : Nat) : JsonForm (FixedBytes width) :=
  { read := fun
      | .text value => ofWidth width (Text.encode value)
      | value => (fixedBytes width).read value
    write := (fixedBytes width).write }

end JsonForm

end DriveMarket
