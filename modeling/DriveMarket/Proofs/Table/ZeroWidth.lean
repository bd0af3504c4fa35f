import DriveMarket.Proofs.Table.Reading
import DriveMarket.Proofs.Table.Typing

/-
  Why a reader fails.

  A reader of any layout fails because the buffer is malformed
  or because it comes to an array whose elements have no
  width.  Whether it comes there depends on the bytes: fields
  that are absent are not looked at, and the layout of nested
  tables is looked at only if there is a nested table.

  Key definitions include:
    * `FieldKind.ReachesZeroWidth`
    * `FieldsReachZeroWidth`
    * `Layout.ReachesZeroWidth`

  Correctness is proven by:
    * `FieldKind.read_error`
    * `FieldKind.ReachesZeroWidth.read_eq_error`
    * `readTable_error`
    * `readTable_eq_zeroWidth_iff`
-/

namespace DriveMarket

------------------------------------------------------------
-- Repeated and Nested Reading
------------------------------------------------------------

/- Reading again and again fails at the first item that does. -/
theorem Cursor.times_eq_error_iff
    {α : Type}
    {read : Cursor → Except TableError (α × Cursor)}
    {n : Nat}
    {cursor : Cursor}
    {cause : TableError} :
    cursor.times read n = .error cause ↔
      ∃ before items place,
        before < n ∧
        cursor.times read before = .ok (items, place) ∧
        read place = .error cause := by
  induction n generalizing cursor with
  | zero => simp [times]
  | succ n ih =>
      rw [times, bind_eq_error_iff]
      constructor
      · rintro (hFirst | ⟨⟨item, next⟩, hFirst, hRest⟩)
        · exact ⟨0, [], cursor, Nat.succ_pos n, rfl, hFirst⟩
        · rw [bind_eq_error_iff] at hRest
          rcases hRest with hRest | ⟨_, -, hPure⟩
          · rcases ih.mp hRest with
              ⟨before, items, place, hBefore, hItems, hLast⟩
            refine ⟨before + 1, item :: items, place,
              Nat.succ_lt_succ hBefore, ?_, hLast⟩
            rw [times, hFirst, ok_bind]
            dsimp only
            rw [hItems]
            rfl
          · cases hPure
      · rintro ⟨before, items, place, hBefore, hItems, hLast⟩
        cases before with
        | zero =>
            cases hItems
            exact .inl hLast
        | succ before =>
            simp only [times, bind_eq_ok_iff] at hItems
            rcases hItems with
              ⟨⟨item, next⟩, hFirst, ⟨others, last⟩, hOthers,
                hPure⟩
            cases hPure
            have hRest :=
              ih.mpr ⟨before, others, last,
                Nat.lt_of_succ_lt_succ hBefore, hOthers, hLast⟩
            refine .inr ⟨(item, next), hFirst, ?_⟩
            dsimp only
            rw [hRest]
            rfl

/- A nested table fails for its size or for its fields. -/
theorem readNested_eq_error_iff
    {table : String}
    {read : Cursor → Except TableError (List ReadField)}
    {cursor : Cursor}
    {cause : TableError} :
    readNested table read cursor = .error cause ↔
      readSize table "size" cursor.rest = .error cause ∨
        ∃ size,
          readSize table "size" cursor.rest = .ok size ∧
          read (.start size cursor.rest) = .error cause := by
  simp [readNested, bind_eq_error_iff, pure, Except.pure]

------------------------------------------------------------
-- Arrays without Width
------------------------------------------------------------

mutual

/-
  A reader of a kind comes to an array without width: to the
  one it reads, or to one in a nested table that it reads
  after those before it.
-/
inductive FieldKind.ReachesZeroWidth
    (inner field : String) :
    String → String → FieldKind → Cursor → Prop
  | array
      {cursor : Cursor} :
      FieldKind.ReachesZeroWidth inner field inner field
        (.array 0) cursor
  | row
      {table name : String}
      {fields : List Field}
      {cursor next place : Cursor}
      {n before size : Nat}
      {rows : List (List Value)}
      (hCount :
        cursor.count table name sizeWidth = .ok (n, next))
      (hBefore : before < n)
      (hRows :
        next.times
            (readNested name fun c => readFields name fields c)
            before =
          .ok (rows, place))
      (hSize : readSize name "size" place.rest = .ok size)
      (hRow :
        FieldsReachZeroWidth inner field name fields
          (.start size place.rest)) :
      FieldKind.ReachesZeroWidth inner field table name
        (.tables fields) cursor

/- A reader of fields comes to one, past fields that it read. -/
inductive FieldsReachZeroWidth
    (inner field : String) :
    String → List Field → Cursor → Prop
  | here
      {table name : String}
      {kind : FieldKind}
      {fields : List Field}
      {cursor : Cursor}
      (hLeft : ¬ cursor.rest.isEmpty)
      (hKind :
        kind.ReachesZeroWidth inner field table name cursor) :
      FieldsReachZeroWidth inner field table
        (⟨name, kind⟩ :: fields) cursor
  | later
      {table name : String}
      {kind : FieldKind}
      {fields : List Field}
      {cursor next : Cursor}
      {value : Value}
      (hLeft : ¬ cursor.rest.isEmpty)
      (hRead :
        kind.read table name cursor = .ok (value, next))
      (hRest :
        FieldsReachZeroWidth inner field table fields next) :
      FieldsReachZeroWidth inner field table
        (⟨name, kind⟩ :: fields) cursor

end

/- The reader of a buffer comes to an array without width. -/
def Layout.ReachesZeroWidth
    (layout : Layout)
    (buffer : Bytes)
    (table field : String) : Prop :=
  ∃ size,
    readSize layout.name "size" buffer = .ok size ∧
    FieldsReachZeroWidth table field layout.name layout.fields
      (.start size buffer)

variable {inner field : String}
variable {cause : TableError}

mutual

/- A field fails on its bytes, or on an array without width. -/
theorem FieldKind.read_error
    {table name : String}
    (kind : FieldKind)
    (cursor : Cursor)
    (hError : kind.read table name cursor = .error cause) :
    cause.IsMalformed ∨
      ∃ inner field,
        cause = .zeroWidth inner field ∧
        kind.ReachesZeroWidth inner field table name
          cursor := by
  have hPlain (hPositive : kind.isPositive) :
      cause.IsMalformed :=
    (FieldKind.read_yields table name kind hPositive
      cursor).failed cause hError
  match kind with
  | .u8 => exact .inl (hPlain rfl)
  | .u16 => exact .inl (hPlain rfl)
  | .u32 => exact .inl (hPlain rfl)
  | .u64 => exact .inl (hPlain rfl)
  | .bytes => exact .inl (hPlain rfl)
  | .entities => exact .inl (hPlain rfl)
  | .fixed width =>
      rw [FieldKind.read, bind_eq_error_iff] at hError
      rcases hError with hTake | ⟨_, -, hPure⟩
      · exact .inl
          ((cursor.take_yields table name width).failed cause
            hTake)
      · cases hPure
  | .array width =>
      by_cases hWidth : width = 0
      · cases hWidth
        cases hError
        exact .inr ⟨table, name, rfl, .array⟩
      · exact .inl (hPlain (bne_iff_ne.mpr hWidth))
  | .tables fields =>
      rw [FieldKind.read, bind_eq_error_iff] at hError
      rcases hError with hCount | ⟨⟨n, next⟩, hCount, hRows⟩
      · exact .inl
          ((cursor.count_yields table name sizeWidth).failed
            cause hCount)
      rw [bind_eq_error_iff] at hRows
      rcases hRows with hTimes | ⟨_, -, hPure⟩
      · rcases Cursor.times_eq_error_iff.mp hTimes with
          ⟨before, rows, place, hBefore, hRows, hRow⟩
        rcases readNested_eq_error_iff.mp hRow with
          hSize | ⟨size, hSize, hFields⟩
        · exact .inl
            ((readSize_yields name "size" place.rest).failed
              cause hSize)
        · rcases readFields_error fields _ hFields with
            hMalformed | ⟨inner, field, rfl, hReaches⟩
          · exact .inl hMalformed
          · exact .inr ⟨inner, field, rfl,
              .row hCount hBefore hRows hSize hReaches⟩
      · cases hPure
  termination_by structural kind

/- So do the fields of a table. -/
theorem readFields_error
    {table : String}
    (fields : List Field)
    (cursor : Cursor)
    (hError : readFields table fields cursor = .error cause) :
    cause.IsMalformed ∨
      ∃ inner field,
        cause = .zeroWidth inner field ∧
        FieldsReachZeroWidth inner field table fields
          cursor := by
  match fields with
  | [] => cases hError
  | ⟨name, kind⟩ :: fields =>
      by_cases hEnd : cursor.rest.isEmpty
      · rcases cursor with ⟨position, rest⟩
        cases List.isEmpty_iff.mp hEnd
        rw [readFields_nil] at hError
        cases hError
      · rw [readFields, if_neg hEnd, bind_eq_error_iff]
          at hError
        rcases hError with
          hFirst | ⟨⟨value, next⟩, hFirst, hRest⟩
        · rcases FieldKind.read_error kind cursor hFirst with
            hMalformed | ⟨inner, field, rfl, hReaches⟩
          · exact .inl hMalformed
          · exact .inr ⟨inner, field, rfl, .here hEnd hReaches⟩
        · rw [bind_eq_error_iff] at hRest
          rcases hRest with hRest | ⟨_, -, hPure⟩
          · rcases readFields_error fields next hRest with
              hMalformed | ⟨inner, field, rfl, hReaches⟩
            · exact .inl hMalformed
            · exact .inr ⟨inner, field, rfl,
                .later hEnd hFirst hReaches⟩
          · cases hPure
  termination_by structural fields

end

mutual

/- An array without width that a field comes to is its end. -/
theorem FieldKind.ReachesZeroWidth.read_eq_error
    {table name : String}
    {kind : FieldKind}
    {cursor : Cursor}
    (hReaches :
      kind.ReachesZeroWidth inner field table name cursor) :
    kind.read table name cursor =
      .error (.zeroWidth inner field) := by
  cases hReaches with
  | array => rfl
  | row hCount hBefore hRows hSize hRow =>
      have hNested :=
        readNested_eq_error_iff.mpr
          (.inr ⟨_, hSize, hRow.readFields_eq_error⟩)
      have hTimes :=
        Cursor.times_eq_error_iff.mpr
          ⟨_, _, _, hBefore, hRows, hNested⟩
      rw [FieldKind.read, hCount, ok_bind]
      dsimp only
      rw [hTimes]
      rfl

theorem FieldsReachZeroWidth.readFields_eq_error
    {table : String}
    {fields : List Field}
    {cursor : Cursor}
    (hReaches :
      FieldsReachZeroWidth inner field table fields cursor) :
    readFields table fields cursor =
      .error (.zeroWidth inner field) := by
  cases hReaches with
  | here hLeft hKind =>
      rw [readFields, if_neg hLeft, hKind.read_eq_error]
      rfl
  | later hLeft hRead hRest =>
      rw [readFields, if_neg hLeft, hRead, ok_bind]
      dsimp only
      rw [hRest.readFields_eq_error]
      rfl

end

------------------------------------------------------------
-- Tables
------------------------------------------------------------

/- A table fails on its bytes, or on an array without width. -/
theorem readTable_error
    {layout : Layout}
    {buffer : Bytes}
    (hError : readTable layout buffer = .error cause) :
    cause.IsMalformed ∨
      ∃ table field,
        cause = .zeroWidth table field ∧
        layout.ReachesZeroWidth buffer table field := by
  rw [readTable, bind_eq_error_iff] at hError
  rcases hError with hSize | ⟨size, hSize, hFields⟩
  · exact .inl
      ((readSize_yields layout.name "size" buffer).failed cause
        hSize)
  rw [bind_eq_error_iff] at hFields
  rcases hFields with hFields | ⟨_, -, hPure⟩
  · rcases readFields_error layout.fields _ hFields with
      hMalformed | ⟨table, field, hCause, hReaches⟩
    · exact .inl hMalformed
    · exact .inr ⟨table, field, hCause, size, hSize, hReaches⟩
  · cases hPure

/- It fails there exactly on those that it comes to. -/
theorem readTable_eq_zeroWidth_iff
    {layout : Layout}
    {buffer : Bytes}
    {table field : String} :
    readTable layout buffer = .error (.zeroWidth table field) ↔
      layout.ReachesZeroWidth buffer table field := by
  constructor
  · intro hError
    rcases readTable_error hError with
      hMalformed | ⟨table, field, hCause, hReaches⟩
    · cases hMalformed
    · cases hCause
      exact hReaches
  · rintro ⟨size, hSize, hReaches⟩
    rw [readTable, hSize, ok_bind, hReaches.readFields_eq_error]
    rfl

end DriveMarket
