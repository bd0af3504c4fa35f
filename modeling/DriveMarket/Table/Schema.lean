import DriveMarket.Quantity

/-
  The layouts of binary tables.

  A table is a size prefix followed by its fields in a fixed
  order.  A layout names the fields and says how each is laid
  out; fields of a shared header come before those of the
  body, and slots number both in that order.

  Key definitions include:
    * `FieldKind`
    * `FieldKind.fixedWidth`
    * `FieldKind.describe`
    * `Field`
    * `Layout`
    * `Layout.fixedOffset`
    * `Layout.minSize`
-/

namespace DriveMarket

------------------------------------------------------------
-- Fields
------------------------------------------------------------

/- A name with what lies under it. -/
structure FieldOf (Kind : Type) where
  name : String
  kind : Kind

/-
  How a field is laid out.  Everything of varying length
  starts with a 32-bit count: of bytes, of elements of one
  width, of nested tables, or of entities that carry their
  own size.
-/
inductive FieldKind where
  | u8
  | u16
  | u32
  | u64
  | fixed (width : Nat)
  | bytes
  | array (width : Nat)
  | tables (fields : List (FieldOf FieldKind))
  | entities

/- A named field of a table. -/
abbrev Field :=
  FieldOf FieldKind

/- The width of a table's size prefix. -/
def sizeWidth : Nat :=
  4

/- The width of a count. -/
def countWidth : Nat :=
  4

namespace FieldKind

/- The width of a field, unless it varies with the value. -/
def fixedWidth : FieldKind → Option Nat
  | .u8 => some 1
  | .u16 => some 2
  | .u32 => some 4
  | .u64 => some 8
  | .fixed width => some width
  | _ => none

/- The least width of a field: an empty one is just its count. -/
def minWidth
    (kind : FieldKind) : Nat :=
  kind.fixedWidth.getD countWidth

/- A short description of a kind. -/
def describe : FieldKind → String
  | .u8 => "u8"
  | .u16 => "u16"
  | .u32 => "u32"
  | .u64 => "u64"
  | .fixed width => s!"fixed[{width}]"
  | .bytes => "bytes"
  | .array width => s!"array[{width}]"
  | .tables fields => s!"tables({fields.length} fields)"
  | .entities => "entities"

end FieldKind

------------------------------------------------------------
-- Layouts
------------------------------------------------------------

/- The ordered fields of one kind of table. -/
structure Layout where
  name : String
  header : List Field
  body : List Field

namespace Layout

/- A layout without a header. -/
def table
    (name : String)
    (fields : List Field) : Layout :=
  { name := name
    header := []
    body := fields }

/- All fields, header first. -/
def fields
    (layout : Layout) : List Field :=
  layout.header ++ layout.body

/- The number of fields. -/
def fieldCount
    (layout : Layout) : Nat :=
  layout.fields.length

/- The slot of the first field of the body. -/
def bodyStart
    (layout : Layout) : Nat :=
  layout.header.length

/- The field at a slot. -/
def field?
    (layout : Layout)
    (slot : Nat) : Option Field :=
  layout.fields[slot]?

/- The first slot whose field has the given name. -/
def slotOf?
    (layout : Layout)
    (name : String) : Option Nat :=
  layout.fields.findIdx? (·.name == name)

/- The width of fields that all have a fixed width. -/
def fixedSpan?
    (fields : List Field) : Option Nat :=
  fields.foldlM
    (fun span field => field.kind.fixedWidth.map (span + ·))
    0

/-
  The offset of a slot in every table of the layout, known
  when all fields before it have a fixed width.  Offsets and
  sizes are 64-bit numbers, whatever the widths declared.
-/
def fixedOffset
    (layout : Layout)
    (slot : Nat) : Option Nat :=
  if slot < layout.fieldCount then
    (fixedSpan? (layout.fields.take slot)).map fun span =>
      Word64.wrap (sizeWidth + span)
  else
    none

/- The fixed offset of each slot. -/
def offsetTable
    (layout : Layout) : List (Option Nat) :=
  (List.range layout.fieldCount).map layout.fixedOffset

/- The size of a table with every field at its least width. -/
def minSize
    (layout : Layout) : Nat :=
  Word64.wrap
    (layout.fields.foldr (·.kind.minWidth + ·) sizeWidth)

end Layout

end DriveMarket
