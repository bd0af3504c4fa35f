import DriveMarket.Proofs.Table.RoundTrip
import Mathlib.Algebra.GroupWithZero.Nat

/-
  Which lengths a table has, and how many bytes it takes up.

  Counts, and the sizes of tables, are written as numbers of
  32 bits.  They can be told from the values alone.  Writing
  values that fit is to check these lengths one after the
  other, and fails with the first that is too large.

  Key definitions include:
    * `Length`
    * `Sized`
    * `FieldKind.span`
    * `FieldKind.lengths`
    * `tableLengths`
    * `TableError.IsOverflow`

  Correctness is proven by:
    * `Sized.bind`
    * `Sized.mapM`
    * `FieldKind.Fits.sized_encode`
    * `RowFits.sized_encodeFields`
    * `RowFits.sized_writeTable`
    * `RowFits.encodeTable_error`
-/

namespace DriveMarket

------------------------------------------------------------
-- Lengths
------------------------------------------------------------

/- A length, and the field of a table that it is written for. -/
structure Length where
  table : String
  field : String
  length : Nat

namespace Length

/- A length is a number of 32 bits. -/
def IsSmall
    (length : Length) : Prop :=
  length.length < 0x100000000

/- The error of a length that is not. -/
def overflow
    (length : Length) : TableError :=
  .lengthOverflow length.table length.field length.length

/- A length is refused if it is too large. -/
def check
    (length : Length) : Except TableError Unit :=
  if length.length < 0x100000000 then
    .ok ()
  else
    .error length.overflow

theorem check_eq_ok_iff
    {length : Length} :
    length.check = .ok () ↔ length.IsSmall := by
  unfold check IsSmall
  split
  · rename_i hSmall
    simp [hSmall]
  · rename_i hLarge
    simp [hLarge]

/- Check some lengths, one after the other. -/
def checkAll
    (lengths : List Length) : Except TableError Unit :=
  lengths.forM check

theorem checkAll_cons
    (length : Length)
    (lengths : List Length) :
    checkAll (length :: lengths) =
      (length.check >>= fun _ => checkAll lengths) :=
  rfl

theorem checkAll_singleton
    (length : Length) :
    checkAll [length] = length.check :=
  bind_pure_unit

theorem checkAll_append
    (lengths more : List Length) :
    checkAll (lengths ++ more) =
      (checkAll lengths >>= fun _ => checkAll more) :=
  List.forM_append

/- To check what items stand for is to check item by item. -/
theorem checkAll_flatMap
    {α : Type}
    (f : α → List Length)
    (items : List α) :
    checkAll (items.flatMap f) =
      items.forM fun item => checkAll (f item) := by
  induction items with
  | nil => rfl
  | cons item items ih =>
      rw [List.flatMap_cons, checkAll_append, ih]
      rfl

theorem checkAll_eq_ok_iff
    {lengths : List Length} :
    checkAll lengths = .ok () ↔
      ∀ length ∈ lengths, length.IsSmall := by
  simp only [checkAll, forM_eq_ok_iff, check_eq_ok_iff]

/- Of some lengths, one that is too large is refused. -/
theorem exists_overflow_of_checkAll
    {lengths : List Length}
    {cause : TableError}
    (hError : checkAll lengths = .error cause) :
    ∃ length ∈ lengths,
      ¬ length.IsSmall ∧ length.overflow = cause := by
  rcases exists_mem_of_forM_error hError with
    ⟨length, hMem, hCheck⟩
  refine ⟨length, hMem, ?_⟩
  unfold check at hCheck
  split at hCheck
  · cases hCheck
  · rename_i hLarge
    cases hCheck
    exact ⟨hLarge, rfl⟩

end Length

------------------------------------------------------------
-- Sizes of Results
------------------------------------------------------------

/-
  A computation succeeds if a check does, with a result of a
  given size, and fails as the check fails.
-/
def Sized
    {ε α : Type}
    (size : α → Nat)
    (x : Except ε α)
    (check : Except ε Unit)
    (n : Nat) : Prop :=
  x.map size = check.map fun _ => n

namespace Sized

variable {ε α β : Type}
variable {size : α → Nat}
variable {x : Except ε α}
variable {check : Except ε Unit}
variable {n : Nat}

theorem ok
    (size : α → Nat)
    (a : α) :
    Sized size (.ok a : Except ε α) (.ok ()) (size a) :=
  rfl

/- Nothing is checked more than once. -/
theorem bind
    {size' : β → Nat}
    {f : α → Except ε β}
    {check' : Except ε Unit}
    {m : Nat}
    (hX : Sized size x check n)
    (hF :
      ∀ a, x = .ok a → size a = n →
        Sized size' (f a) check' m) :
    Sized size' (x >>= f) (check >>= fun _ => check') m := by
  unfold Sized at hX
  cases x with
  | error cause =>
      cases check with
      | error cause' =>
          cases hX
          rfl
      | ok _ => cases hX
  | ok a =>
      cases check with
      | error cause' => cases hX
      | ok _ =>
          have hSize : size a = n := Except.ok.inj hX
          exact hF a rfl hSize

/- The last step of a computation checks nothing. -/
theorem map
    {size' : β → Nat}
    {f : α → β}
    {m : Nat}
    (hX : Sized size x check n)
    (hF : ∀ a, size a = n → size' (f a) = m) :
    Sized size' (x >>= fun a => .ok (f a)) check m := by
  unfold Sized at hX ⊢
  cases x with
  | error cause =>
      cases check with
      | error cause' =>
          cases hX
          rfl
      | ok _ => cases hX
  | ok a =>
      cases check with
      | error cause' => cases hX
      | ok _ =>
          exact congrArg Except.ok (hF a (Except.ok.inj hX))

/- Over a list the checks are made, and the sizes add up. -/
theorem mapM
    {f : α → Except ε β}
    {size : β → Nat}
    {check : α → Except ε Unit}
    {n : α → Nat}
    {items : List α}
    (hEach :
      ∀ item ∈ items,
        Sized size (f item) (check item) (n item)) :
    Sized (fun results => (results.map size).sum)
      (items.mapM f) (items.forM check) (items.map n).sum := by
  induction items with
  | nil => exact ok _ []
  | cons item items ih =>
      rw [List.mapM_cons, List.forM, List.map_cons,
        List.sum_cons]
      refine (hEach item List.mem_cons_self).bind ?_
      intro result _ hResult
      refine (ih fun other hMem =>
        hEach other (List.mem_cons_of_mem _ hMem)).map ?_
      intro results hResults
      rw [List.map_cons, List.sum_cons, hResult, hResults]

theorem mapError
    {ε' : Type}
    (f : ε → ε')
    (hX : Sized size x check n) :
    Sized size (x.mapError f) (check.mapError f) n := by
  unfold Sized at hX ⊢
  cases x with
  | error cause =>
      cases check with
      | error cause' =>
          cases hX
          rfl
      | ok _ => cases hX
  | ok a =>
      cases check with
      | error cause' => cases hX
      | ok _ => exact congrArg Except.ok (Except.ok.inj hX)

/- What is returned has the size. -/
theorem size_eq
    {a : α}
    (hX : Sized size x check n)
    (hOk : x = .ok a) : size a = n := by
  subst hOk
  unfold Sized at hX
  cases check with
  | error cause => cases hX
  | ok _ => exact Except.ok.inj hX

theorem exists_ok_iff
    (hX : Sized size x check n) :
    (∃ a, x = .ok a) ↔ check = .ok () := by
  unfold Sized at hX
  cases x with
  | error cause =>
      cases check with
      | error cause' => simp
      | ok _ => cases hX
  | ok a =>
      cases check with
      | error cause' => cases hX
      | ok _ => simp

theorem error_iff
    {cause : ε}
    (hX : Sized size x check n) :
    x = .error cause ↔ check = .error cause := by
  unfold Sized at hX
  cases x with
  | error cause' =>
      cases check with
      | error cause'' =>
          cases hX
          simp
      | ok _ => cases hX
  | ok a =>
      cases check with
      | error cause' => cases hX
      | ok _ => simp

end Sized

------------------------------------------------------------
-- Lengths of Values
------------------------------------------------------------

mutual

/- How many bytes a field takes up. -/
def FieldKind.span : FieldKind → Value → Nat
  | .u8, _ => 1
  | .u16, _ => 2
  | .u32, _ => 4
  | .u64, _ => 8
  | .fixed _, .fixed bytes => bytes.length
  | .bytes, .bytes bytes => countWidth + bytes.length
  | .array _, .array items =>
      countWidth + (items.map (·.length)).sum
  | .tables fields, .tables rows =>
      countWidth +
        (rows.map fun row => sizeWidth + rowSpan fields row).sum
  | .entities, .entities items =>
      countWidth + (items.map (·.length)).sum
  | _, _ => 0
  termination_by structural kind => kind

/- How many bytes the fields of a table take up. -/
def rowSpan : List Field → List Value → Nat
  | ⟨_, kind⟩ :: fields, value :: values =>
      kind.span value + rowSpan fields values
  | _, _ => 0
  termination_by structural fields => fields

end

mutual

/- The lengths that are written for a field, in their order. -/
def FieldKind.lengths
    (table name : String) :
    FieldKind → Value → List Length
  | .bytes, .bytes bytes => [⟨table, name, bytes.length⟩]
  | .array _, .array items => [⟨table, name, items.length⟩]
  | .tables fields, .tables rows =>
      ⟨table, name, rows.length⟩ ::
        rows.flatMap fun row =>
          rowLengths name fields row ++
            [⟨name, "size", sizeWidth + rowSpan fields row⟩]
  | .entities, .entities items =>
      [⟨table, name, items.length⟩]
  | _, _ => []
  termination_by structural kind => kind

/- The lengths that are written for the fields of a table. -/
def rowLengths
    (table : String) :
    List Field → List Value → List Length
  | ⟨name, kind⟩ :: fields, value :: values =>
      kind.lengths table name value ++
        rowLengths table fields values
  | _, _ => []
  termination_by structural fields => fields

end

theorem rowSpan_append
    {fields more : List Field}
    {values others : List Value}
    (hFits : RowFits fields values) :
    rowSpan (fields ++ more) (values ++ others) =
      rowSpan fields values + rowSpan more others := by
  induction fields generalizing values with
  | nil =>
      cases hFits
      exact (Nat.zero_add _).symm
  | cons field fields ih =>
      cases hFits with
      | cons _ hValues =>
          rw [List.cons_append, List.cons_append, rowSpan,
            rowSpan, ih hValues, Nat.add_assoc]

theorem rowLengths_append
    {fields more : List Field}
    {values others : List Value}
    (table : String)
    (hFits : RowFits fields values) :
    rowLengths table (fields ++ more) (values ++ others) =
      rowLengths table fields values ++
        rowLengths table more others := by
  induction fields generalizing values with
  | nil =>
      cases hFits
      rfl
  | cons field fields ih =>
      cases hFits with
      | cons _ hValues =>
          rw [List.cons_append, List.cons_append, rowLengths,
            rowLengths, ih hValues, List.append_assoc]

/- The lengths of a whole table; its size comes last. -/
def tableLengths
    (table : String)
    (fields : List Field)
    (values : List Value) : List Length :=
  rowLengths table fields values ++
    [⟨table, "size", sizeWidth + rowSpan fields values⟩]

/- Of rows made one way, each has the lengths of its item. -/
theorem lengths_tables_map
    {α : Type}
    {fields : List Field}
    {row : α → List Value}
    {each : α → List Length}
    (table name : String)
    (items : List α)
    (hEach :
      ∀ item, tableLengths name fields (row item) = each item) :
    FieldKind.lengths table name (.tables fields)
        (.tables (items.map row)) =
      ⟨table, name, items.length⟩ :: items.flatMap each := by
  have hRows :
      (items.map row).flatMap (tableLengths name fields) =
        items.flatMap each := by
    rw [List.flatMap_map]
    exact congrArg (items.flatMap ·) (funext hEach)
  rw [FieldKind.lengths, List.length_map, ← hRows]
  rfl

------------------------------------------------------------
-- Writing
------------------------------------------------------------

theorem sized_encodeLength
    (table name : String)
    (length : Nat) :
    Sized List.length (encodeLength table name length)
      (Length.check ⟨table, name, length⟩) countWidth := by
  unfold encodeLength Length.check
  dsimp only
  split
  · exact congrArg Except.ok (LittleEndian.length_encode _ _)
  · rfl

/- What stands behind a count is written as it is. -/
theorem sized_encode_counted
    (table name : String)
    (length : Nat)
    (rest : Bytes) :
    Sized List.length
      (do
        let count ← encodeLength table name length
        return count ++ rest)
      (Length.checkAll [⟨table, name, length⟩])
      (countWidth + rest.length) := by
  have hCount :
      Sized List.length (encodeLength table name length)
        (Length.checkAll [⟨table, name, length⟩])
        countWidth := by
    rw [Length.checkAll_singleton]
    exact sized_encodeLength table name length
  refine hCount.map ?_
  intro count hLength
  rw [List.length_append, hLength]

theorem sized_sealTable
    (table : String)
    (fields : Bytes × List Nat) :
    Sized (·.bytes.length) (sealTable table fields)
      (Length.check
        ⟨table, "size", sizeWidth + fields.1.length⟩)
      (sizeWidth + fields.1.length) := by
  refine (sized_encodeLength table "size" _).map ?_
  intro size hLength
  exact List.length_append.trans (by rw [hLength]; rfl)

/- A table is sealed once its fields are written. -/
theorem sized_encodeTable_of_fields
    {layout : Layout}
    {values : List Value}
    (hFields :
      Sized (·.1.length)
        (encodeFields layout.name layout.fields sizeWidth
          values)
        (Length.checkAll
          (rowLengths layout.name layout.fields values))
        (rowSpan layout.fields values)) :
    Sized (·.bytes.length) (encodeTable layout values)
      (Length.checkAll
        (tableLengths layout.name layout.fields values))
      (sizeWidth + rowSpan layout.fields values) := by
  rw [tableLengths, Length.checkAll_append,
    Length.checkAll_singleton]
  refine hFields.bind ?_
  intro fields _ hLength
  rw [← hLength]
  exact sized_sealTable layout.name fields

mutual

/- A value that fits is written if its lengths are small. -/
theorem FieldKind.Fits.sized_encode
    (table name : String)
    {kind : FieldKind}
    {value : Value}
    (hFits : kind.Fits value) :
    Sized List.length (kind.encode table name value)
      (Length.checkAll (kind.lengths table name value))
      (kind.span value) := by
  match hFits with
  | .u8 _ => rfl
  | .u16 _ => rfl
  | .u32 _ => rfl
  | .u64 _ => rfl
  | .fixed _ => rfl
  | .bytes bytes => exact sized_encode_counted _ _ _ _
  | @FieldKind.Fits.array width items hItems =>
      have hCounted :=
        sized_encode_counted table name items.length
          items.flatten
      rw [List.length_flatten] at hCounted
      exact hCounted
  | @FieldKind.Fits.entities items hItems =>
      have hCounted :=
        sized_encode_counted table name items.length
          items.flatten
      rw [List.length_flatten] at hCounted
      exact hCounted
  | @FieldKind.Fits.tables fields rows hRows =>
      have hEach :
          ∀ row ∈ rows,
            Sized List.length (encodeRow name fields row)
              (Length.checkAll (tableLengths name fields row))
              (sizeWidth + rowSpan fields row) := by
        intro row hMem
        have hTable :=
          @sized_encodeTable_of_fields (.table name fields) row
            (RowFits.sized_encodeFields name sizeWidth
              (hRows row hMem))
        exact hTable.map fun encoded hLength => hLength
      rw [FieldKind.encode_tables table name hRows,
        FieldKind.lengths, FieldKind.span,
        Length.checkAll_cons, Length.checkAll_flatMap]
      refine (sized_encodeLength table name rows.length).bind ?_
      intro count _ hCount
      refine (Sized.mapM hEach).map ?_
      intro tables hTables
      rw [List.length_append, List.length_flatten, hCount,
        hTables]
  termination_by structural hFits

/- So are the values of a table. -/
theorem RowFits.sized_encodeFields
    (table : String)
    (offset : Nat)
    {fields : List Field}
    {values : List Value}
    (hFits : RowFits fields values) :
    Sized (·.1.length) (encodeFields table fields offset values)
      (Length.checkAll (rowLengths table fields values))
      (rowSpan fields values) := by
  match hFits with
  | .nil => rfl
  | .cons hValue hValues =>
      rw [encodeFields_cons, rowLengths, rowSpan,
        Length.checkAll_append]
      refine
        (FieldKind.Fits.sized_encode table _ hValue).bind ?_
      intro bytes _ hFirst
      refine (RowFits.sized_encodeFields table
        (offset + bytes.length) hValues).map ?_
      intro rest hRest
      rw [List.length_append, hFirst, hRest]
  termination_by structural hFits

end

/- A table is written if all its lengths are small. -/
theorem RowFits.sized_encodeTable
    {layout : Layout}
    {values : List Value}
    (hFits : RowFits layout.fields values) :
    Sized (·.bytes.length) (encodeTable layout values)
      (Length.checkAll
        (tableLengths layout.name layout.fields values))
      (sizeWidth + rowSpan layout.fields values) :=
  sized_encodeTable_of_fields
    (hFits.sized_encodeFields layout.name sizeWidth)

theorem RowFits.sized_writeTable
    {layout : Layout}
    {values : List Value}
    (hFits : RowFits layout.fields values) :
    Sized (·.bytes.length) (writeTable layout values)
      (Length.checkAll
        (tableLengths layout.name layout.fields values))
      (sizeWidth + rowSpan layout.fields values) := by
  rw [hFits.writeTable_eq]
  exact hFits.sized_encodeTable

------------------------------------------------------------
-- Failures
------------------------------------------------------------

/- A length that does not fit its 32-bit prefix. -/
def TableError.IsOverflow : TableError → Prop
  | .lengthOverflow _ _ length => 0x100000000 ≤ length
  | _ => False

/- Writing values that fit fails only on a length. -/
theorem RowFits.encodeTable_error
    {layout : Layout}
    {values : List Value}
    {cause : TableError}
    (hFits : RowFits layout.fields values)
    (hError : encodeTable layout values = .error cause) :
    cause.IsOverflow := by
  rw [hFits.sized_encodeTable.error_iff] at hError
  rcases Length.exists_overflow_of_checkAll hError with
    ⟨length, -, hLarge, rfl⟩
  exact Nat.le_of_not_lt hLarge

theorem TableError.IsOverflow.exists_length
    {cause : TableError}
    (hOverflow : cause.IsOverflow) :
    ∃ table field length,
      cause = .lengthOverflow table field length ∧
      0x100000000 ≤ length := by
  cases cause with
  | lengthOverflow table field length =>
      exact ⟨table, field, length, rfl, hOverflow⟩
  | _ => cases hOverflow

end DriveMarket
