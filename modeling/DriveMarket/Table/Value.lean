import DriveMarket.Bytes.Endian
import DriveMarket.Table.Error
import DriveMarket.Table.Schema

/-
  The values of fields, and which values fit which fields.

  Key definitions include:
    * `Value`
    * `FieldKind.default`
    * `FieldKind.check`
    * `checkRow`
-/

namespace DriveMarket

------------------------------------------------------------
-- Values
------------------------------------------------------------

/-
  The value of one field.  A nested table is the list of its
  values in field order, and an entity is its raw bytes.
-/
inductive Value where
  | u8 (n : UInt8)
  | u16 (n : UInt16)
  | u32 (n : UInt32)
  | u64 (n : UInt64)
  | fixed (bytes : Bytes)
  | bytes (bytes : Bytes)
  | array (items : List Bytes)
  | tables (rows : List (List Value))
  | entities (items : List Bytes)

namespace FieldKind

/- The value of a field that was left out. -/
def default : FieldKind → Value
  | .u8 => .u8 0
  | .u16 => .u16 0
  | .u32 => .u32 0
  | .u64 => .u64 0
  | .fixed width => .fixed (List.replicate width 0)
  | .bytes => .bytes []
  | .array _ => .array []
  | .tables _ => .tables []
  | .entities => .entities []

end FieldKind

------------------------------------------------------------
-- Fitting
------------------------------------------------------------

/- The size that the first four bytes declare. -/
def declaredSize
    (bytes : Bytes) : Nat :=
  LittleEndian.decode (bytes.take sizeWidth)

/- An entity must carry a size prefix equal to its length. -/
def checkEntity
    (table name : String)
    (entity : Bytes) : Except TableError Unit :=
  if entity.length < sizeWidth then
    .error
      (.malformedBuffer table name 0 sizeWidth entity.length)
  else if declaredSize entity ≠ entity.length then
    .error
      (.sizeMismatch table (declaredSize entity) entity.length)
  else
    .ok ()

mutual

/-
  Whether a value fits a field of the given kind.  Nested
  tables are reported under the name of the field that holds
  them.
-/
def FieldKind.check
    (table name : String) :
    FieldKind →
    Value →
    Except TableError Unit
  | .u8, .u8 _ => .ok ()
  | .u16, .u16 _ => .ok ()
  | .u32, .u32 _ => .ok ()
  | .u64, .u64 _ => .ok ()
  | .bytes, .bytes _ => .ok ()
  | .fixed width, .fixed bytes =>
      if bytes.length = width then
        .ok ()
      else
        .error
          (.kindMismatch table name
            (FieldKind.fixed width).describe)
  | .array width, .array items =>
      if items.all (·.length == width) then
        .ok ()
      else
        .error
          (.kindMismatch table name
            (FieldKind.array width).describe)
  | .tables fields, .tables rows =>
      rows.forM fun row =>
        if row.length = fields.length then
          checkRow name fields row
        else
          .error
            (.kindMismatch table name
              (FieldKind.tables fields).describe)
  | .entities, .entities items =>
      items.forM (checkEntity table name)
  | kind, _ =>
      .error (.kindMismatch table name kind.describe)
  termination_by structural kind => kind

/- Whether the values of a table fit its fields, one by one. -/
def checkRow
    (table : String) :
    List Field →
    List Value →
    Except TableError Unit
  | ⟨name, kind⟩ :: fields, value :: values => do
      FieldKind.check table name kind value
      checkRow table fields values
  | _, _ => .ok ()
  termination_by structural fields => fields

end

end DriveMarket
