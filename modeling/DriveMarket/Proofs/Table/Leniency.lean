import DriveMarket.Proofs.Results
import DriveMarket.Table.Reader

/-
  How much a reader overlooks.

  A table may end early or late: fields that it does not reach
  take their defaults, and bytes behind its last field are
  ignored.  The values that are read tell of neither.  An
  audit reads the same and also counts both, in the table and
  in all tables nested in it.

  Key definitions include:
    * `Leniency`
    * `FieldKind.audit`
    * `auditFields`
    * `auditTable`

  Correctness is proven by:
    * `FieldKind.read_eq_audit`
    * `readTable_eq_auditTable`
-/

namespace DriveMarket

------------------------------------------------------------
-- Counting
------------------------------------------------------------

/-
  How many fields were absent, and how many bytes were ignored
  behind the last field of a table.
-/
structure Leniency where
  absent : Nat
  ignored : Nat
deriving DecidableEq

namespace Leniency

/- Nothing was overlooked. -/
def none : Leniency :=
  ⟨0, 0⟩

/- What was overlooked in two places. -/
def add
    (a b : Leniency) : Leniency :=
  ⟨a.absent + b.absent, a.ignored + b.ignored⟩

/- What was overlooked in several places. -/
def sum
    (all : List Leniency) : Leniency :=
  all.foldr add none

theorem sum_cons
    (first : Leniency)
    (rest : List Leniency) :
    sum (first :: rest) = first.add (sum rest) :=
  rfl

theorem none_add
    (a : Leniency) : none.add a = a := by
  simp [none, add]

theorem add_eq_none_iff
    {a b : Leniency} :
    a.add b = none ↔ a = none ∧ b = none := by
  rcases a with ⟨absent, ignored⟩
  rcases b with ⟨absent', ignored'⟩
  simp only [add, none, Leniency.mk.injEq]
  omega

theorem eq_none_iff
    {a : Leniency} :
    a = none ↔ a.absent = 0 ∧ a.ignored = 0 := by
  rcases a with ⟨absent, ignored⟩
  exact Leniency.mk.injEq _ _ _ _ ▸ Iff.rfl

end Leniency

------------------------------------------------------------
-- Auditing
------------------------------------------------------------

/- A nested table, given how its fields are audited. -/
def auditNested
    (table : String)
    (audit :
      Cursor →
      Except TableError (List ReadField × Leniency))
    (cursor : Cursor) :
    Except TableError
      ((List Value × Leniency) × Cursor) := do
  let size ← readSize table "size" cursor.rest
  let (fields, leniency) ← audit (.start size cursor.rest)
  return ((fields.map (·.value), leniency),
    { position := cursor.position + size
      rest := cursor.rest.drop size })

mutual

/- Only nested tables can hide something that is overlooked. -/
def FieldKind.audit
    (table name : String) :
    FieldKind →
    Cursor →
    Except TableError ((Value × Leniency) × Cursor)
  | .tables fields, cursor => do
      let (n, next) ← cursor.count table name sizeWidth
      let (rows, next) ←
        next.times
          (auditNested name (fun c => auditFields name fields c))
          n
      return ((.tables (rows.map (·.1)),
        .sum (rows.map (·.2))), next)
  | kind, cursor => do
      let (value, next) ← kind.read table name cursor
      return ((value, .none), next)
  termination_by structural kind => kind

/-
  Where a table ends before a field, one more is absent.  What
  is left behind the last field is ignored.
-/
def auditFields
    (table : String) :
    List Field →
    Cursor →
    Except TableError (List ReadField × Leniency)
  | [], cursor => .ok ([], ⟨0, cursor.rest.length⟩)
  | ⟨name, kind⟩ :: fields, cursor =>
      if cursor.rest.isEmpty then do
        let (rest, leniency) ← auditFields table fields cursor
        return ({
          value := kind.default
          offset := none } :: rest, .add ⟨1, 0⟩ leniency)
      else do
        let ((value, first), next) ←
          FieldKind.audit table name kind cursor
        let (rest, leniency) ← auditFields table fields next
        return ({
          value := value
          offset := some cursor.position } :: rest,
          first.add leniency)
  termination_by structural fields => fields

end

/- A table from the start of a buffer, and what it overlooks. -/
def auditTable
    (layout : Layout)
    (buffer : Bytes) :
    Except TableError (DecodedTable × Leniency) := do
  let size ← readSize layout.name "size" buffer
  let (fields, leniency) ←
    auditFields layout.name layout.fields (.start size buffer)
  return ({
    layout := layout
    fields := fields
    size := size }, leniency)

------------------------------------------------------------
-- Reading and Auditing
------------------------------------------------------------

/- Reading again and again is auditing without the counts. -/
theorem Cursor.times_eq_audit
    {α : Type}
    {read : Cursor → Except TableError (α × Cursor)}
    {audit :
      Cursor → Except TableError ((α × Leniency) × Cursor)}
    (hEach :
      ∀ cursor,
        read cursor =
          (audit cursor).map fun found =>
            (found.1.1, found.2))
    (n : Nat)
    (cursor : Cursor) :
    times read n cursor =
      (times audit n cursor).map fun found =>
        (found.1.map (·.1), found.2) := by
  induction n generalizing cursor with
  | zero => rfl
  | succ n ih =>
      rw [times, times, hEach]
      cases audit cursor with
      | error cause => rfl
      | ok found =>
          simp only [Except.map, ok_bind, ih]
          cases times audit n found.2 with
          | error cause => rfl
          | ok others => rfl

theorem readNested_eq_audit
    {read : Cursor → Except TableError (List ReadField)}
    {audit :
      Cursor →
      Except TableError (List ReadField × Leniency)}
    (table : String)
    (hFields :
      ∀ cursor, read cursor = (audit cursor).map (·.1))
    (cursor : Cursor) :
    readNested table read cursor =
      (auditNested table audit cursor).map fun found =>
        (found.1.1, found.2) := by
  unfold readNested auditNested
  cases readSize table "size" cursor.rest with
  | error cause => rfl
  | ok size =>
      simp only [ok_bind, hFields]
      cases audit (.start size cursor.rest) with
      | error cause => rfl
      | ok found => rfl

mutual

/- A field is read as it is audited. -/
theorem FieldKind.read_eq_audit
    (table name : String)
    (kind : FieldKind)
    (cursor : Cursor) :
    kind.read table name cursor =
      (kind.audit table name cursor).map fun found =>
        (found.1.1, found.2) := by
  have hPlain
      (read : Except TableError (Value × Cursor)) :
      read =
        (do
          let found ← read
          return ((found.1, .none), found.2) :
            Except TableError
              ((Value × Leniency) × Cursor)).map
            fun found => (found.1.1, found.2) := by
    cases read with
    | error cause => rfl
    | ok found => rfl
  match kind with
  | .u8 => exact hPlain _
  | .u16 => exact hPlain _
  | .u32 => exact hPlain _
  | .u64 => exact hPlain _
  | .fixed width => exact hPlain _
  | .bytes => exact hPlain _
  | .array width => exact hPlain _
  | .entities => exact hPlain _
  | .tables fields =>
      have hRows :=
        Cursor.times_eq_audit
          (readNested_eq_audit name
            (readFields_eq_audit name fields))
      rw [FieldKind.read, FieldKind.audit]
      cases cursor.count table name sizeWidth with
      | error cause => rfl
      | ok counted =>
          simp only [ok_bind, hRows]
          cases counted.2.times
              (auditNested name
                fun c => auditFields name fields c)
              counted.1 with
          | error cause => rfl
          | ok found => rfl
  termination_by structural kind

/- So are the fields of a table. -/
theorem readFields_eq_audit
    (table : String)
    (fields : List Field)
    (cursor : Cursor) :
    readFields table fields cursor =
      (auditFields table fields cursor).map (·.1) := by
  match fields with
  | [] => rfl
  | ⟨name, kind⟩ :: fields =>
      rw [readFields, auditFields]
      split
      · rw [readFields_eq_audit table fields cursor]
        cases auditFields table fields cursor with
        | error cause => rfl
        | ok found => rfl
      · rw [FieldKind.read_eq_audit table name kind cursor]
        cases FieldKind.audit table name kind cursor with
        | error cause => rfl
        | ok found =>
            simp only [Except.map, ok_bind,
              readFields_eq_audit table fields found.2]
            cases auditFields table fields found.2 with
            | error cause => rfl
            | ok rest => rfl
  termination_by structural fields

end

/- A table is read as it is audited, or refused alike. -/
theorem readTable_eq_auditTable
    (layout : Layout)
    (buffer : Bytes) :
    readTable layout buffer =
      (auditTable layout buffer).map (·.1) := by
  rw [readTable, auditTable]
  cases readSize layout.name "size" buffer with
  | error cause => rfl
  | ok size =>
      simp only [ok_bind, readFields_eq_audit]
      cases auditFields layout.name layout.fields
          (.start size buffer) with
      | error cause => rfl
      | ok found => rfl

end DriveMarket
