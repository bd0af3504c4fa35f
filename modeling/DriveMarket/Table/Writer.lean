import DriveMarket.Table.Value

/-
  Writing tables.

  Fields are set in any order and written in the order of the
  layout, with defaults for those never set.  The only thing
  that can go wrong in writing is a length that does not fit
  its 32-bit prefix.  Nested tables are set and written the
  same way, one row at a time.

  Key definitions include:
    * `TableWriter`
    * `TableWriter.set`
    * `FieldKind.encode`
    * `encodeFields`
    * `encodeTable`
    * `TableWriter.finish`
    * `writeTable`
-/

namespace DriveMarket

------------------------------------------------------------
-- Setting Fields
------------------------------------------------------------

/- A table under construction: what each slot was set to. -/
structure TableWriter where
  layout : Layout
  values : List (Option Value)

namespace TableWriter

/- A table with no field set. -/
def empty
    (layout : Layout) : TableWriter :=
  { layout := layout
    values := List.replicate layout.fieldCount none }

/-
  Set a field, over any value it had.  A value that does not
  fit leaves the table as it was.
-/
def set
    (writer : TableWriter)
    (slot : Nat)
    (value : Value) : Except TableError TableWriter :=
  match writer.layout.field? slot with
  | none =>
      .error (.unknownSlot writer.layout.name slot)
  | some field => do
      field.kind.check writer.layout.name field.name value
      return { writer with
        values := writer.values.set slot (some value) }

/- Set the fields from a slot on to the given values. -/
def setFrom
    (writer : TableWriter) :
    (slot : Nat) →
    (values : List Value) →
    Except TableError TableWriter
  | _, [] => .ok writer
  | slot, value :: values => do
      let writer ← writer.set slot value
      setFrom writer (slot + 1) values

/- Set the field of a name. -/
def setNamed
    (writer : TableWriter)
    (name : String)
    (value : Value) : Except TableError TableWriter :=
  match writer.layout.slotOf? name with
  | none =>
      .error (.unknownField writer.layout.name name)
  | some slot => writer.set slot value

/- Whether a slot has been set. -/
def isSet
    (writer : TableWriter)
    (slot : Nat) : Bool :=
  (writer.values[slot]?.join).isSome

/- The value of each field: the one set, or the default. -/
def filled
    (writer : TableWriter) : List Value :=
  List.zipWith (fun field value => value.getD field.kind.default)
    writer.layout.fields writer.values

end TableWriter

------------------------------------------------------------
-- Encoding
------------------------------------------------------------

/- A count or a size as its four bytes. -/
def encodeLength
    (table name : String)
    (length : Nat) : Except TableError Bytes :=
  if length < 0x100000000 then
    .ok (LittleEndian.encode 4 length)
  else
    .error (.lengthOverflow table name length)

/- A number as two 32-bit words, low word first. -/
def encodeWords
    (n : UInt64) : Bytes :=
  LittleEndian.encode 4 (n.toNat % 0x100000000) ++
    LittleEndian.encode 4 (n.toNat / 0x100000000)

/- The bytes of a table, and where each of its fields starts. -/
structure EncodedTable where
  bytes : Bytes
  offsets : List Nat
deriving DecidableEq

/- Put the size in front of the fields of a table. -/
def sealTable
    (table : String)
    (fields : Bytes × List Nat) :
    Except TableError EncodedTable := do
  let size ←
    encodeLength table "size" (sizeWidth + fields.1.length)
  return {
    bytes := size ++ fields.1
    offsets := fields.2 }

mutual

/- The bytes of one field. -/
def FieldKind.encode
    (table name : String) :
    FieldKind →
    Value →
    Except TableError Bytes
  | .u8, .u8 n => .ok [n]
  | .u16, .u16 n => .ok (LittleEndian.encode 2 n.toNat)
  | .u32, .u32 n => .ok (LittleEndian.encode 4 n.toNat)
  | .u64, .u64 n => .ok (encodeWords n)
  | .fixed _, .fixed bytes => .ok bytes
  | .bytes, .bytes bytes => do
      let count ← encodeLength table name bytes.length
      return count ++ bytes
  | .array _, .array items => do
      let count ← encodeLength table name items.length
      return count ++ items.flatten
  | .tables fields, .tables rows => do
      let count ← encodeLength table name rows.length
      let tables ← rows.mapM fun row => do
        let writer ←
          (TableWriter.empty (.table name fields)).setFrom 0 row
        let body ←
          encodeFields name fields sizeWidth writer.filled
        let encoded ← sealTable name body
        return encoded.bytes
      return count ++ tables.flatten
  | .entities, .entities items => do
      let count ← encodeLength table name items.length
      return count ++ items.flatten
  | kind, _ =>
      .error (.kindMismatch table name kind.describe)
  termination_by structural kind => kind

/-
  The bytes of the fields of a table one after the other, and
  where each starts, the first of them at `offset`.
-/
def encodeFields
    (table : String) :
    List Field →
    (offset : Nat) →
    List Value →
    Except TableError (Bytes × List Nat)
  | ⟨name, kind⟩ :: fields, offset, value :: values => do
      let bytes ← FieldKind.encode table name kind value
      let (rest, offsets) ←
        encodeFields table fields (offset + bytes.length) values
      return (bytes ++ rest, offset :: offsets)
  | _, _, _ => .ok ([], [])
  termination_by structural fields => fields

end

/- A whole table with its size prefix. -/
def encodeTable
    (layout : Layout)
    (values : List Value) : Except TableError EncodedTable := do
  let body ←
    encodeFields layout.name layout.fields sizeWidth values
  sealTable layout.name body

/- The finished table of a writer. -/
def TableWriter.finish
    (writer : TableWriter) : Except TableError EncodedTable :=
  encodeTable writer.layout writer.filled

/- The table of a layout with all its slots set in order. -/
def writeTable
    (layout : Layout)
    (values : List Value) :
    Except TableError EncodedTable := do
  let writer ← (TableWriter.empty layout).setFrom 0 values
  writer.finish

end DriveMarket
