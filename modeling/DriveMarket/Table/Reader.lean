import DriveMarket.Quantity
import DriveMarket.Table.Value

/-
  Reading tables.

  A table may come from an older or a newer writer.  If it
  ends exactly where a field would start, that field and all
  later ones take their defaults and count as absent; bytes
  after the last known field are ignored.  A table that ends
  inside a field is malformed.

  Every count is checked against the bytes that are left
  before anything is read for it.

  Key definitions include:
    * `Cursor`
    * `Cursor.take`
    * `Cursor.count`
    * `readNested`
    * `FieldKind.read`
    * `readFields`
    * `DecodedTable`
    * `readTable`
-/

namespace DriveMarket

------------------------------------------------------------
-- Cursors
------------------------------------------------------------

/-
  A place in a table: how far it is from the table's start,
  and the bytes from there to the table's end.
-/
structure Cursor where
  position : Nat
  rest : Bytes

namespace Cursor

/- The complaint that a field needs more bytes than are left. -/
def malformed
    (table name : String)
    (needed : Nat)
    (cursor : Cursor) : TableError :=
  .malformedBuffer table name cursor.position needed
    cursor.rest.length

/- The next `n` bytes, and the place after them. -/
def take
    (table name : String)
    (n : Nat)
    (cursor : Cursor) : Except TableError (Bytes × Cursor) :=
  if n ≤ cursor.rest.length then
    .ok (cursor.rest.take n,
      { position := cursor.position + n
        rest := cursor.rest.drop n })
  else
    .error (cursor.malformed table name n)

/- A number of `width` bytes. -/
def number
    (table name : String)
    (width : Nat)
    (cursor : Cursor) : Except TableError (Nat × Cursor) := do
  let (bytes, next) ← cursor.take table name width
  return (LittleEndian.decode bytes, next)

/-
  A count of elements of at least `width` bytes each, refused
  at once if that many cannot follow.  The product is taken
  no further than a 64-bit number reaches.
-/
def count
    (table name : String)
    (width : Nat)
    (cursor : Cursor) : Except TableError (Nat × Cursor) := do
  let (n, next) ← cursor.number table name countWidth
  let needed := min (n * width) Word64.top
  if needed ≤ next.rest.length then
    return (n, next)
  else
    throw (next.malformed table name needed)

/- Read the same thing `n` times. -/
def times
    {α : Type}
    (read : Cursor → Except TableError (α × Cursor)) :
    (n : Nat) →
    (cursor : Cursor) →
    Except TableError (List α × Cursor)
  | 0, cursor => .ok ([], cursor)
  | n + 1, cursor => do
      let (item, next) ← read cursor
      let (items, last) ← times read n next
      return (item :: items, last)

end Cursor

/- The size prefix at the start of a buffer, if it is in range. -/
def readSize
    (table name : String)
    (buffer : Bytes) : Except TableError Nat :=
  if buffer.length < sizeWidth then
    .error
      (.malformedBuffer table name 0 sizeWidth buffer.length)
  else
    let size := declaredSize buffer
    if sizeWidth ≤ size ∧ size ≤ buffer.length then
      .ok size
    else
      .error
        (.malformedBuffer table name 0 (max size sizeWidth)
          buffer.length)

/- The place of the first field in a buffer of a known size. -/
def Cursor.start
    (size : Nat)
    (buffer : Bytes) : Cursor :=
  { position := sizeWidth
    rest := (buffer.take size).drop sizeWidth }

------------------------------------------------------------
-- Fields
------------------------------------------------------------

/- The value read for a field, and where, unless it was absent. -/
structure ReadField where
  value : Value
  offset : Option Nat

/- One entity with its size prefix. -/
def readEntity
    (table name : String)
    (cursor : Cursor) : Except TableError (Bytes × Cursor) := do
  let size ← readSize table name cursor.rest
  cursor.take table name size

/-
  One nested table, given how its fields are read: its values,
  and the place after it.  Its fields see only its own bytes.
-/
def readNested
    (table : String)
    (read : Cursor → Except TableError (List ReadField))
    (cursor : Cursor) :
    Except TableError (List Value × Cursor) := do
  let size ← readSize table "size" cursor.rest
  let fields ← read (.start size cursor.rest)
  return (fields.map (·.value),
    { position := cursor.position + size
      rest := cursor.rest.drop size })

mutual

/- The value of one field, and the place after it. -/
def FieldKind.read
    (table name : String) :
    FieldKind →
    Cursor →
    Except TableError (Value × Cursor)
  | .u8, cursor => do
      let (n, next) ← cursor.number table name 1
      return (.u8 (UInt8.ofNat n), next)
  | .u16, cursor => do
      let (n, next) ← cursor.number table name 2
      return (.u16 (UInt16.ofNat n), next)
  | .u32, cursor => do
      let (n, next) ← cursor.number table name 4
      return (.u32 (UInt32.ofNat n), next)
  | .u64, cursor => do
      let (low, next) ← cursor.number table name 4
      let (high, next) ← next.number table name 4
      let n := low + 0x100000000 * high
      return (.u64 (UInt64.ofNat n), next)
  | .fixed width, cursor => do
      let (bytes, next) ← cursor.take table name width
      return (.fixed bytes, next)
  | .bytes, cursor => do
      let (n, next) ← cursor.count table name 1
      let (bytes, next) ← next.take table name n
      return (.bytes bytes, next)
  | .array width, cursor =>
      if width = 0 then
        .error (.zeroWidth table name)
      else do
        let (n, next) ← cursor.count table name width
        let (bytes, next) ← next.take table name (n * width)
        return (.array (bytes.chunks width n), next)
  | .tables fields, cursor => do
      let (n, next) ← cursor.count table name sizeWidth
      let (rows, next) ←
        next.times
          (readNested name (fun c => readFields name fields c))
          n
      return (.tables rows, next)
  | .entities, cursor => do
      let (n, next) ← cursor.count table name sizeWidth
      let (items, next) ← next.times (readEntity table name) n
      return (.entities items, next)
  termination_by structural kind => kind

/- The fields of a table, absent ones at their defaults. -/
def readFields
    (table : String) :
    List Field →
    Cursor →
    Except TableError (List ReadField)
  | [], _ => .ok []
  | ⟨name, kind⟩ :: fields, cursor =>
      if cursor.rest.isEmpty then do
        let rest ← readFields table fields cursor
        return {
          value := kind.default
          offset := none } :: rest
      else do
        let (value, next) ←
          FieldKind.read table name kind cursor
        let rest ← readFields table fields next
        return {
          value := value
          offset := some cursor.position } :: rest
  termination_by structural fields => fields

end

------------------------------------------------------------
-- Tables
------------------------------------------------------------

/- A table that has been read, with the size it declared. -/
structure DecodedTable where
  layout : Layout
  fields : List ReadField
  size : Nat

namespace DecodedTable

/- The values of all fields. -/
def values
    (table : DecodedTable) : List Value :=
  table.fields.map (·.value)

/- The offset at which a slot was read, if it was present. -/
def offset?
    (table : DecodedTable)
    (slot : Nat) : Option Nat :=
  table.fields[slot]?.bind (·.offset)

/- Whether a slot was there to be read. -/
def isPresent
    (table : DecodedTable)
    (slot : Nat) : Bool :=
  (table.offset? slot).isSome

end DecodedTable

/- Read one table from the start of a buffer. -/
def readTable
    (layout : Layout)
    (buffer : Bytes) : Except TableError DecodedTable := do
  let size ← readSize layout.name "size" buffer
  let fields ←
    readFields layout.name layout.fields (.start size buffer)
  return {
    layout := layout
    fields := fields
    size := size }

end DriveMarket
