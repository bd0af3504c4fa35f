import DriveMarket.Table.Reader

/-
  Typed access to the fields of a table that has been read,
  and of its nested tables.

  Key definitions include:
    * `Record`
    * `Record.get`
    * `Record.u64`
    * `Record.fixed`
    * `Record.rows`
    * `DecodedTable.record`
-/

namespace DriveMarket

/- Named fields with their values. -/
structure Record where
  name : String
  fields : List Field
  values : List Value

namespace Record

/- The field at a slot with its value. -/
def get
    (record : Record)
    (slot : Nat) : Except TableError (Field × Value) :=
  match record.fields[slot]?, record.values[slot]? with
  | some field, some value => .ok (field, value)
  | _, _ => .error (.unknownSlot record.name slot)

/- What a slot holds, as seen through one kind of value. -/
def view
    {α : Type}
    (see : Value → Option α)
    (record : Record)
    (slot : Nat) : Except TableError α := do
  let (field, value) ← record.get slot
  match see value with
  | some content => return content
  | none =>
      throw
        (.kindMismatch record.name field.name
          field.kind.describe)

/- An 8-bit number. -/
def u8 : Record → Nat → Except TableError UInt8 :=
  view fun
    | .u8 n => some n
    | _ => none

/- A 16-bit number. -/
def u16 : Record → Nat → Except TableError UInt16 :=
  view fun
    | .u16 n => some n
    | _ => none

/- A 32-bit number. -/
def u32 : Record → Nat → Except TableError UInt32 :=
  view fun
    | .u32 n => some n
    | _ => none

/- A 64-bit number. -/
def u64 : Record → Nat → Except TableError UInt64 :=
  view fun
    | .u64 n => some n
    | _ => none

/- A byte string of fixed width, which must be the given one. -/
def fixed
    (width : Nat) :
    Record → Nat → Except TableError (FixedBytes width) :=
  view fun
    | .fixed bytes => FixedBytes.ofList? width bytes
    | _ => none

/- A byte string. -/
def bytes : Record → Nat → Except TableError Bytes :=
  view fun
    | .bytes bytes => some bytes
    | _ => none

/- Elements of one width. -/
def array : Record → Nat → Except TableError (List Bytes) :=
  view fun
    | .array items => some items
    | _ => none

/- Entities. -/
def entities : Record → Nat → Except TableError (List Bytes) :=
  view fun
    | .entities items => some items
    | _ => none

/- Nested tables, named after the field that holds them. -/
def rows
    (record : Record)
    (slot : Nat) : Except TableError (List Record) := do
  let (field, value) ← record.get slot
  match field.kind, value with
  | .tables fields, .tables rows =>
      return rows.map (Record.mk field.name fields)
  | _, _ =>
      throw
        (.kindMismatch record.name field.name
          field.kind.describe)

end Record

/- The top level of a table that has been read. -/
def DecodedTable.record
    (table : DecodedTable) : Record :=
  { name := table.layout.name
    fields := table.layout.fields
    values := table.values }

end DriveMarket
