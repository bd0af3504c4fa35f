import DriveMarket.Refusal

/-
  Why a table cannot be read or written.

  Key definitions include:
    * `TableError`
    * `TableError.message`
-/

namespace DriveMarket

/-
  The causes.  A buffer is malformed when it ends inside a
  field or a size prefix is out of range; the offset is the
  one where reading stopped, in the innermost table.
-/
inductive TableError where
  | malformedBuffer
      (table field : String)
      (offset needed available : Nat)
  | sizeMismatch
      (table : String)
      (declared actual : Nat)
  | zeroWidth
      (table field : String)
  | unknownField
      (table field : String)
  | kindMismatch
      (table field expected : String)
  | unknownSlot
      (table : String)
      (slot : Nat)
  | lengthOverflow
      (table field : String)
      (length : Nat)
deriving DecidableEq

namespace TableError

/- The wording of each cause. -/
def message : TableError → String
  | .malformedBuffer table field offset needed available =>
      s!"Malformed buffer: {table}.{field} at offset " ++
        s!"{offset} needs {needed} bytes, " ++
        s!"{available} available"
  | .sizeMismatch table declared actual =>
      s!"Size mismatch: {table} declares {declared} bytes, " ++
        s!"buffer holds {actual}"
  | .zeroWidth table field =>
      s!"Schema mismatch: {table}.{field} declares " ++
        "zero-width elements"
  | .unknownField table field =>
      s!"Schema mismatch: {table} has no field {field}"
  | .kindMismatch table field expected =>
      s!"Kind mismatch: {table}.{field} expects {expected}"
  | .unknownSlot table slot =>
      s!"Unknown field slot: {table}[{slot}]"
  | .lengthOverflow table field length =>
      s!"Length overflow: {table}.{field} has length {length}"

/- The code of each cause. -/
def code : TableError → String
  | .malformedBuffer .. => "MalformedBuffer"
  | .sizeMismatch .. => "SizeMismatch"
  | .zeroWidth .. => "SchemaMismatch"
  | .unknownField .. => "SchemaMismatch"
  | .kindMismatch .. => "KindMismatch"
  | .unknownSlot .. => "UnknownSlot"
  | .lengthOverflow .. => "LengthOverflow"

instance : Refusal TableError :=
  ⟨code, message⟩

end TableError

end DriveMarket
