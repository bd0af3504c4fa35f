import DriveMarket.Proofs.Table.Typing
import DriveMarket.Proofs.Table.Writing

/-
  Tables that are cut short.

  What a reader makes of its bytes stays the same when more
  bytes follow.  So a field cannot be read from only the first
  of the bytes that were written for it, since the reader
  would have to stop there also when all of them are present.
  A table may be cut before a field, which leaves that field
  and all later ones out, and is malformed if it is cut
  anywhere inside one.

  Key definitions include:
    * `Cursor.Steady`
    * `EncodedTable.cut`
    * `cutFields`

  Correctness is proven by:
    * `FieldKind.steady_read`
    * `FieldKind.Fits.read_cut`
    * `RowFits.readFields_cut`
    * `RowFits.readTable_of_cut`
    * `TableWriter.readTable_cut`
-/

namespace DriveMarket

------------------------------------------------------------
-- Steady Readers
------------------------------------------------------------

namespace Cursor

/- The same place, with more bytes at the end of the table. -/
def followedBy
    (suffix : Bytes)
    (cursor : Cursor) : Cursor :=
  { cursor with rest := cursor.rest ++ suffix }

/- What was read once is read again if more bytes follow. -/
def Steady
    {α : Type}
    (read : Cursor → Except TableError (α × Cursor)) : Prop :=
  ∀ ⦃cursor item next⦄ (suffix : Bytes),
    read cursor = .ok (item, next) →
    read (cursor.followedBy suffix) =
      .ok (item, next.followedBy suffix)

variable {α β : Type}
variable {read : Cursor → Except TableError (α × Cursor)}

/- One steady reader after another is steady. -/
theorem Steady.bind
    (hRead : Steady read)
    (later : α → Cursor → Except TableError (β × Cursor))
    (hLater : ∀ item, Steady (later item)) :
    Steady (fun cursor => do
      let (item, next) ← read cursor
      later item next) := by
  intro cursor item last suffix hBoth
  rw [bind_eq_ok_iff] at hBoth
  rcases hBoth with ⟨⟨first, next⟩, hFirst, hSecond⟩
  simp only [hRead suffix hFirst, ok_bind]
  exact hLater first suffix hSecond

theorem Steady.map
    (hRead : Steady read)
    (f : α → β) :
    Steady (fun cursor => do
      let (item, next) ← read cursor
      return (f item, next)) := by
  apply hRead.bind fun item next => .ok (f item, next)
  intro item cursor value next suffix hPure
  cases hPure
  rfl

/- Reading again and again is steady if reading once is. -/
theorem Steady.times
    (hRead : Steady read)
    (n : Nat) : Steady (times read n) := by
  induction n with
  | zero =>
      intro cursor items next suffix hNone
      cases hNone
      rfl
  | succ n ih =>
      exact hRead.bind _ fun item => ih.map (item :: ·)

theorem steady_take
    (table name : String)
    (n : Nat) : Steady (take table name n) := by
  intro cursor bytes next suffix hTake
  unfold take at hTake
  by_cases hEnough : n ≤ cursor.rest.length
  · rw [if_pos hEnough] at hTake
    cases hTake
    have hStill :
        n ≤ (cursor.followedBy suffix).rest.length := by
      rw [followedBy, List.length_append]
      omega
    rw [take, if_pos hStill, followedBy, followedBy,
      List.take_append_of_le_length hEnough,
      List.drop_append_of_le_length hEnough]
  · rw [if_neg hEnough] at hTake
    cases hTake

theorem steady_number
    (table name : String)
    (width : Nat) : Steady (number table name width) :=
  (steady_take table name width).map LittleEndian.decode

/- A count that was not too large is not so with more bytes. -/
theorem steady_count
    (table name : String)
    (width : Nat) : Steady (count table name width) := by
  apply (steady_number table name countWidth).bind
    fun n next =>
      if min (n * width) Word64.top ≤ next.rest.length then
        .ok (n, next)
      else
        .error
          (next.malformed table name
            (min (n * width) Word64.top))
  intro n cursor m next suffix hCount
  by_cases hNeeded :
      min (n * width) Word64.top ≤ cursor.rest.length
  · have hPure := (if_pos hNeeded).symm.trans hCount
    cases hPure
    have hStill :
        min (n * width) Word64.top ≤
          (cursor.followedBy suffix).rest.length := by
      rw [followedBy, List.length_append]
      omega
    exact if_pos hStill
  · have hThrow := (if_neg hNeeded).symm.trans hCount
    cases hThrow

end Cursor

------------------------------------------------------------
-- Steady Fields
------------------------------------------------------------

/- A size in range stays in range when more bytes follow. -/
theorem readSize_followed
    {table name : String}
    {buffer : Bytes}
    {size : Nat}
    (suffix : Bytes)
    (hSize : readSize table name buffer = .ok size) :
    readSize table name (buffer ++ suffix) = .ok size ∧
      size ≤ buffer.length := by
  rcases (readSize_yields table name buffer).returned size
      hSize with
    ⟨hWide, hEnough, hDeclared⟩
  have hPrefix : sizeWidth ≤ buffer.length := by
    omega
  have hLonger :
      buffer.length ≤ (buffer ++ suffix).length := by
    rw [List.length_append]
    omega
  have hSame : declaredSize (buffer ++ suffix) = size := by
    rw [declaredSize,
      List.take_append_of_le_length hPrefix]
    exact hDeclared
  refine ⟨?_, hEnough⟩
  rw [readSize, if_neg (by omega)]
  simp only [hSame]
  rw [if_pos ⟨hWide, by omega⟩]

theorem steady_readEntity
    (table name : String) :
    Cursor.Steady (readEntity table name) := by
  intro cursor entity next suffix hRead
  unfold readEntity at hRead ⊢
  rw [bind_eq_ok_iff] at hRead
  rcases hRead with ⟨size, hSize, hTake⟩
  rw [Cursor.followedBy, (readSize_followed suffix hSize).1,
    ok_bind]
  exact Cursor.steady_take table name size suffix hTake

/- A nested table sees nothing of what follows it. -/
theorem steady_readNested
    (table : String)
    (read : Cursor → Except TableError (List ReadField)) :
    Cursor.Steady (readNested table read) := by
  intro cursor values next suffix hRead
  unfold readNested at hRead ⊢
  simp only [bind_eq_ok_iff] at hRead
  rcases hRead with ⟨size, hSize, fields, hFields, hPure⟩
  cases hPure
  rcases readSize_followed suffix hSize with
    ⟨hStill, hEnough⟩
  have hStart :
      Cursor.start size (cursor.rest ++ suffix) =
        .start size cursor.rest := by
    rw [Cursor.start, Cursor.start,
      List.take_append_of_le_length hEnough]
  simp only [Cursor.followedBy, hStill, ok_bind, hStart,
    hFields, List.drop_append_of_le_length hEnough]
  rfl

theorem FieldKind.steady_read
    (table name : String)
    (kind : FieldKind) :
    Cursor.Steady (kind.read table name) := by
  have hNumber := Cursor.steady_number table name
  have hCount := Cursor.steady_count table name
  have hTake := Cursor.steady_take table name
  cases kind with
  | u8 =>
      exact (hNumber 1).map fun n => Value.u8 (UInt8.ofNat n)
  | u16 =>
      exact (hNumber 2).map fun n => Value.u16 (UInt16.ofNat n)
  | u32 =>
      exact (hNumber 4).map fun n => Value.u32 (UInt32.ofNat n)
  | u64 =>
      exact (hNumber 4).bind _ fun low =>
        (hNumber 4).map fun high =>
          Value.u64 (UInt64.ofNat (low + 0x100000000 * high))
  | fixed width => exact (hTake width).map Value.fixed
  | bytes =>
      exact (hCount 1).bind _ fun n =>
        (hTake n).map Value.bytes
  | array width =>
      by_cases hWidth : width = 0
      · intro cursor value next suffix hRead
        rw [FieldKind.read, if_pos hWidth] at hRead
        cases hRead
      · have hItems :=
          (hCount width).bind _ fun n =>
            (hTake (n * width)).map fun bytes =>
              Value.array (bytes.chunks width n)
        intro cursor value next suffix hRead
        rw [FieldKind.read, if_neg hWidth] at hRead ⊢
        exact hItems suffix hRead
  | tables fields =>
      have hRow :=
        steady_readNested name fun c => readFields name fields c
      exact (hCount sizeWidth).bind _ fun n =>
        (hRow.times n).map Value.tables
  | entities =>
      have hEntity := steady_readEntity table name
      exact (hCount sizeWidth).bind _ fun n =>
        (hEntity.times n).map Value.entities

------------------------------------------------------------
-- Cut Fields
------------------------------------------------------------

/- A field is not read from a part of what was written for it. -/
theorem FieldKind.Fits.read_cut
    {kind : FieldKind}
    {value : Value}
    {table name : String}
    {bytes : Bytes}
    {n : Nat}
    (table' name' : String)
    (position : Nat)
    (hFits : kind.Fits value)
    (hPositive : kind.isPositive)
    (hEncode : kind.encode table name value = .ok bytes)
    (hCut : n < bytes.length) :
    ∃ cause,
      kind.read table' name' ⟨position, bytes.take n⟩ =
        .error cause ∧
      cause.IsMalformed := by
  have hYields :=
    kind.read_yields table' name' hPositive
      ⟨position, bytes.take n⟩
  cases hRead :
      kind.read table' name' ⟨position, bytes.take n⟩ with
  | error cause =>
      exact ⟨cause, rfl, hYields.failed cause hRead⟩
  | ok found =>
      exfalso
      -- The rest of the bytes would be left over behind them.
      have hLonger :=
        kind.steady_read table' name' (bytes.drop n) hRead
      have hWhole :=
        hFits.reads_encode table' name' hPositive hEncode
          position []
      simp only [Cursor.followedBy, List.take_append_drop]
        at hLonger
      rw [List.append_nil, hLonger, Except.ok.injEq,
        Prod.mk.injEq, Cursor.mk.injEq] at hWhole
      have hNone := List.append_eq_nil_iff.mp hWhole.2.2
      have hAll := List.drop_eq_nil_iff.mp hNone.2
      omega

/- No field starts before the first one. -/
theorem le_of_mem_offsets
    {table : String}
    {fields : List Field}
    {values : List Value}
    {offset start : Nat}
    {bytes : Bytes}
    {offsets : List Nat}
    (hEncode :
      encodeFields table fields offset values =
        .ok (bytes, offsets))
    (hStart : start ∈ offsets) :
    offset ≤ start := by
  induction fields generalizing values offset bytes offsets with
  | nil =>
      cases hEncode
      cases hStart
  | cons field fields ih =>
      cases values with
      | nil =>
          cases hEncode
          cases hStart
      | cons value values =>
          rw [encodeFields_cons_eq_ok_iff] at hEncode
          rcases hEncode with
            ⟨first, rest, later, -, hRest, -, rfl⟩
          rcases List.mem_cons.mp hStart with hFirst | hLater
          · exact Nat.le_of_eq hFirst.symm
          · have hBehind := ih hRest hLater
            omega

/-
  What is read of written fields up to a place: those that
  start before it are present, all others have defaults.
-/
def cutFields
    (place : Nat) :
    List Field →
    List Value →
    (offsets : List Nat) →
    List ReadField
  | field :: fields, value :: values, offset :: offsets =>
      (if offset < place then
        ⟨value, some offset⟩
      else
        ⟨field.kind.default, none⟩) ::
        cutFields place fields values offsets
  | _, _, _ => []

theorem getElem?_cutFields
    {fields : List Field}
    {values : List Value}
    {offsets : List Nat}
    {slot : Nat}
    {field : Field}
    (place : Nat)
    (hValues : values.length = fields.length)
    (hOffsets : offsets.length = fields.length)
    (hField : fields[slot]? = some field) :
    ∃ value offset,
      values[slot]? = some value ∧
        offsets[slot]? = some offset ∧
        (cutFields place fields values offsets)[slot]? =
          some
            (if offset < place then
              ⟨value, some offset⟩
            else
              ⟨field.kind.default, none⟩) := by
  induction fields generalizing values offsets slot with
  | nil => cases hField
  | cons first fields ih =>
      cases values with
      | nil => cases hValues
      | cons value values =>
          cases offsets with
          | nil => cases hOffsets
          | cons offset offsets =>
              cases slot with
              | zero =>
                  cases hField
                  exact ⟨value, offset, rfl, rfl, rfl⟩
              | succ slot =>
                  exact ih (Nat.succ.inj hValues)
                    (Nat.succ.inj hOffsets) hField

theorem length_cutFields
    {fields : List Field}
    {values : List Value}
    {offsets : List Nat}
    (place : Nat)
    (hValues : values.length = fields.length)
    (hOffsets : offsets.length = fields.length) :
    (cutFields place fields values offsets).length =
      fields.length := by
  induction fields generalizing values offsets with
  | nil => rfl
  | cons field fields ih =>
      cases values with
      | nil => cases hValues
      | cons value values =>
          cases offsets with
          | nil => cases hOffsets
          | cons offset offsets =>
              rw [cutFields, List.length_cons,
                List.length_cons,
                ih (Nat.succ.inj hValues)
                  (Nat.succ.inj hOffsets)]

/- Nothing is present before the first field. -/
theorem cutFields_before
    {fields : List Field}
    {values : List Value}
    {offsets : List Nat}
    {place : Nat}
    (hValues : values.length = fields.length)
    (hOffsets : offsets.length = fields.length)
    (hBefore : ∀ offset ∈ offsets, place ≤ offset) :
    cutFields place fields values offsets =
      fields.map fun field =>
        ⟨field.kind.default, none⟩ := by
  induction fields generalizing values offsets with
  | nil => rfl
  | cons field fields ih =>
      cases values with
      | nil => cases hValues
      | cons value values =>
          cases offsets with
          | nil => cases hOffsets
          | cons offset offsets =>
              rw [List.forall_mem_cons] at hBefore
              rw [cutFields,
                if_neg (Nat.not_lt_of_le hBefore.1),
                ih (Nat.succ.inj hValues)
                  (Nat.succ.inj hOffsets) hBefore.2,
                List.map_cons]

section

variable {name : String}
variable {kind : FieldKind}
variable {value : Value}
variable {table : String}
variable {bytes : Bytes}

/- Fields are not read if the first of them is cut inside. -/
theorem FieldKind.Fits.readFields_cut_inside
    {n : Nat}
    (table' : String)
    (fields : List Field)
    (position : Nat)
    (hFits : kind.Fits value)
    (hPositive : kind.isPositive)
    (hEncode : kind.encode table name value = .ok bytes)
    (hSome : n ≠ 0)
    (hCut : n < bytes.length) :
    ∃ cause,
      readFields table' (⟨name, kind⟩ :: fields)
          ⟨position, bytes.take n⟩ =
        .error cause ∧
      cause.IsMalformed := by
  have hNonempty : (bytes.take n).isEmpty = false := by
    rw [List.isEmpty_eq_false_iff_exists_mem]
    refine ⟨bytes[0], ?_⟩
    rw [List.mem_take_iff_getElem]
    exact ⟨0, by omega, rfl⟩
  rcases hFits.read_cut table' name position hPositive hEncode
      hCut with
    ⟨cause, hRead, hMalformed⟩
  refine ⟨cause, ?_, hMalformed⟩
  rw [readFields]
  simp only [hNonempty, hRead, Bool.false_eq_true, if_false,
    error_bind]

/- Behind a field that is written, the others are read. -/
theorem FieldKind.Fits.readFields_behind
    (table' : String)
    (fields : List Field)
    (position : Nat)
    (hFits : kind.Fits value)
    (hPositive : kind.isPositive)
    (hEncode : kind.encode table name value = .ok bytes)
    (rest : Bytes) :
    readFields table' (⟨name, kind⟩ :: fields)
        ⟨position, bytes ++ rest⟩ = (do
      let others ←
        readFields table' fields
          ⟨position + bytes.length, rest⟩
      return ⟨value, some position⟩ :: others) := by
  have hRead :=
    hFits.reads_encode table' name hPositive hEncode position
      rest
  have hNonempty : (bytes ++ rest).isEmpty = false := by
    simp [hFits.encode_ne_nil hPositive hEncode]
  rw [readFields]
  simp only [hNonempty, hRead, Bool.false_eq_true, if_false,
    ok_bind]

end

/-
  Fields that are cut off at their end or before one of them
  are read as far as they go.  A cut anywhere else is inside a
  field.
-/
theorem RowFits.readFields_cut
    {fields : List Field}
    {values : List Value}
    {table : String}
    {offset n : Nat}
    {bytes : Bytes}
    {offsets : List Nat}
    (table' : String)
    (hFits : RowFits fields values)
    (hPositive : arePositive fields)
    (hEncode :
      encodeFields table fields offset values =
        .ok (bytes, offsets))
    (hCut : n ≤ bytes.length) :
    (n = bytes.length ∨ offset + n ∈ offsets →
      readFields table' fields ⟨offset, bytes.take n⟩ =
        .ok (cutFields (offset + n) fields values offsets)) ∧
    (¬ (n = bytes.length ∨ offset + n ∈ offsets) →
      ∃ cause,
        readFields table' fields ⟨offset, bytes.take n⟩ =
          .error cause ∧
        cause.IsMalformed) := by
  induction fields
      generalizing values offset n bytes offsets with
  | nil =>
      cases hFits
      cases hEncode
      have hNone : n = 0 := Nat.le_zero.mp hCut
      subst hNone
      exact ⟨fun _ => rfl, fun hInside =>
        absurd (.inl rfl) hInside⟩
  | cons field fields ih =>
      by_cases hNone : n = 0
      · -- The cut is before the first of these fields.
        subst hNone
        have hLength := hFits.length_offsets hEncode
        have hValues := hFits.length_eq
        have hAbsent :=
          cutFields_before hValues (hLength.trans hValues)
            fun _ => le_of_mem_offsets hEncode
        have hRead :=
          readFields_nil table' (field :: fields) offset
        have hFirst : offset ∈ offsets := by
          cases hFits with
          | cons hValue hValues =>
              rw [encodeFields_cons_eq_ok_iff] at hEncode
              rcases hEncode with
                ⟨first, rest, later, -, -, -, rfl⟩
              exact List.mem_cons_self
        rw [Nat.add_zero, hAbsent, List.take_zero]
        exact ⟨fun _ => hRead, fun hInside =>
          absurd (.inr hFirst) hInside⟩
      rcases field with ⟨name, kind⟩
      cases hFits with
      | cons hValue hValues =>
          rw [encodeFields_cons_eq_ok_iff] at hEncode
          rcases hEncode with
            ⟨first, rest, later, hFirst, hRest, rfl, rfl⟩
          rw [arePositive, Bool.and_eq_true] at hPositive
          rw [List.length_append] at hCut ⊢
          have hLater :
              offset + n ∈ offset :: later ↔
                offset + n ∈ later := by
            rw [List.mem_cons, or_iff_right (by omega)]
          by_cases hInside : n < first.length
          · -- The cut is inside the first of these fields.
            have hBehind : ¬ offset + n ∈ later := by
              intro hMem
              have hLeast := le_of_mem_offsets hRest hMem
              omega
            have hMiddle :
                ¬ (n = first.length + rest.length ∨
                  offset + n ∈ offset :: later) := by
              rw [hLater]
              rintro (hEnd | hMem)
              · omega
              · exact hBehind hMem
            have hTake :
                (first ++ rest).take n = first.take n :=
              List.take_append_of_le_length
                (Nat.le_of_lt hInside)
            rw [hTake]
            exact ⟨fun hPlace => absurd hPlace hMiddle,
              fun _ => hValue.readFields_cut_inside table'
                fields offset hPositive.1 hFirst hNone
                hInside⟩
          · -- The cut is behind the first of these fields.
            obtain ⟨m, rfl⟩ :=
              Nat.exists_eq_add_of_le
                (Nat.le_of_not_lt hInside)
            have hTake :
                (first ++ rest).take (first.length + m) =
                  first ++ rest.take m :=
              List.take_length_add_append m
            have hRead :=
              hValue.readFields_behind table' fields offset
                hPositive.1 hFirst (rest.take m)
            have hPlace :
                (first.length + m =
                    first.length + rest.length ∨
                  offset + (first.length + m) ∈
                    offset :: later) ↔
                  (m = rest.length ∨
                    offset + first.length + m ∈ later) := by
              rw [hLater, Nat.add_left_cancel_iff,
                Nat.add_assoc]
            have hStarts :
                offset < offset + (first.length + m) := by
              omega
            have hMore := ih hValues hPositive.2 hRest
              (Nat.le_of_add_le_add_left hCut)
            rw [hPlace, hTake, hRead]
            refine ⟨fun hOutside => ?_, fun hWithin => ?_⟩
            · rw [hMore.1 hOutside, cutFields,
                if_pos hStarts, ← Nat.add_assoc]
              rfl
            · rcases hMore.2 hWithin with
                ⟨cause, hError, hMalformed⟩
              exact ⟨cause, by rw [hError]; rfl, hMalformed⟩

------------------------------------------------------------
-- Cut Tables
------------------------------------------------------------

/- The first bytes of a table, under a size that counts them. -/
def EncodedTable.cut
    (n : Nat)
    (table : EncodedTable) : Bytes :=
  LittleEndian.encode sizeWidth n ++
    (table.bytes.take n).drop sizeWidth

/- A cut table is an entity with the first of the fields. -/
theorem EncodedTable.cut_isEntity
    {table : EncodedTable}
    {n : Nat}
    (hTable : table.bytes.IsEntity)
    (hFrom : sizeWidth ≤ n)
    (hTo : n ≤ table.bytes.length) :
    (table.cut n).IsEntity ∧
      (table.cut n).length = n ∧
      (table.cut n).drop sizeWidth =
        (table.bytes.drop sizeWidth).take (n - sizeWidth) := by
  have hLength :
      sizeWidth +
          ((table.bytes.take n).drop sizeWidth).length =
        n := by
    rw [List.length_drop, List.length_take_of_le hTo]
    omega
  have hBound := hTable.length_lt
  have hEntity :=
    isEntity_size_append (lt_of_eq_of_lt hLength (by omega))
  rw [hLength] at hEntity
  refine ⟨hEntity, ?_, ?_⟩
  · rw [cut, List.length_append, LittleEndian.length_encode]
    exact hLength
  · exact (drop_size_append n _).trans List.drop_take

/- A cut table has the first of the fields, or is malformed. -/
theorem RowFits.readTable_of_cut
    {layout : Layout}
    {values : List Value}
    {encoded : EncodedTable}
    {n : Nat}
    (hFits : RowFits layout.fields values)
    (hPositive : arePositive layout.fields)
    (hEncode : encodeTable layout values = .ok encoded)
    (hFrom : sizeWidth ≤ n)
    (hTo : n ≤ encoded.bytes.length) :
    (n = encoded.bytes.length ∨ n ∈ encoded.offsets →
      readTable layout (encoded.cut n) =
        .ok
          ⟨layout,
            cutFields n layout.fields values encoded.offsets,
            n⟩) ∧
    (¬ (n = encoded.bytes.length ∨ n ∈ encoded.offsets) →
      ∃ cause,
        readTable layout (encoded.cut n) = .error cause ∧
        cause.IsMalformed) := by
  rcases encodeTable_eq_ok hEncode with
    ⟨body, hBody, hEntity, hDrop⟩
  rcases encoded.cut_isEntity hEntity hFrom hTo with
    ⟨hCutEntity, hSize, hCutDrop⟩
  have hSum := hEntity.length_behind_size
  rw [hDrop] at hCutDrop hSum
  have hBefore : n - sizeWidth ≤ body.length := by
    omega
  have hPlace : sizeWidth + (n - sizeWidth) = n := by
    omega
  have hEnd :
      n - sizeWidth = body.length ↔
        n = encoded.bytes.length := by
    omega
  have hFields :=
    hFits.readFields_cut layout.name hPositive hBody hBefore
  rw [hPlace, hEnd] at hFields
  rw [hCutEntity.readTable_eq layout, hCutDrop, hSize]
  constructor
  · intro hOutside
    rw [hFields.1 hOutside]
    rfl
  · intro hInside
    rcases hFields.2 hInside with ⟨cause, hError, hMalformed⟩
    exact ⟨cause, by rw [hError]; rfl, hMalformed⟩

namespace TableWriter

/-
  A finished table that is cut short is read exactly if the
  cut is at its end or where a field starts.  Then fields that
  start before the cut are there as they were written, and all
  others have their defaults.  Any other cut is malformed.
-/
theorem readTable_cut
    {encoded : EncodedTable}
    {n : Nat}
    (layout : Layout)
    (calls : List Call)
    (hPositive : arePositive layout.fields)
    (hFinish :
      ((empty layout).after calls).finish = .ok encoded)
    (hFrom : 4 ≤ n)
    (hTo : n ≤ encoded.bytes.length) :
    ((∃ table, readTable layout (encoded.cut n) = .ok table) ↔
      n = encoded.bytes.length ∨ n ∈ encoded.offsets) ∧
    (∀ table,
      readTable layout (encoded.cut n) = .ok table →
      table.size = n ∧
      table.fields.length = layout.fieldCount ∧
      encoded.offsets.length = layout.fieldCount ∧
      ∀ slot field,
        layout.field? slot = some field →
        ∃ start,
          encoded.offsets[slot]? = some start ∧
          (start < n →
            table.values[slot]? =
              some
                (((empty layout).lastSet? calls slot).getD
                  field.kind.default) ∧
            table.isPresent slot ∧
            table.offset? slot = some start) ∧
          (n ≤ start →
            table.values[slot]? = some field.kind.default ∧
            ¬ table.isPresent slot ∧
            table.offset? slot = none)) ∧
    (∀ cause,
      readTable layout (encoded.cut n) = .error cause →
      ∃ table field offset needed available,
        cause =
          .malformedBuffer table field offset needed
            available) := by
  have hLayout :
      ((empty layout).after calls).layout = layout :=
    layout_after _ calls
  have hFits :=
    ((WellFormed.empty layout).after calls).filled_fits
  rw [hLayout] at hFits
  unfold finish at hFinish
  rw [hLayout] at hFinish
  rcases encodeTable_eq_ok hFinish with ⟨body, hBody, -⟩
  have hOffsets := hFits.length_offsets hBody
  have hStarts := hOffsets.trans hFits.length_eq
  have hRead :=
    hFits.readTable_of_cut hPositive hFinish hFrom hTo
  by_cases hOutside :
      n = encoded.bytes.length ∨ n ∈ encoded.offsets
  · rw [hRead.1 hOutside]
    refine ⟨iff_of_true ⟨_, rfl⟩ hOutside, ?_, ?_⟩
    · intro table hTable
      cases hTable
      refine ⟨rfl,
        length_cutFields n hFits.length_eq hStarts, hStarts,
        ?_⟩
      intro slot field hField
      rcases getElem?_cutFields n hFits.length_eq hStarts
          hField with
        ⟨value, start, hValue, hStart, hItem⟩
      rw [getElem?_filled_after calls hField,
        Option.some.injEq] at hValue
      refine ⟨start, hStart, ?_, ?_⟩
      · intro hThere
        rw [if_pos hThere, ← hValue] at hItem
        simp [DecodedTable.values, DecodedTable.isPresent,
          DecodedTable.offset?, hItem]
      · intro hNotThere
        rw [if_neg (Nat.not_lt_of_le hNotThere)] at hItem
        simp [DecodedTable.values, DecodedTable.isPresent,
          DecodedTable.offset?, hItem]
    · intro cause hError
      cases hError
  · rcases hRead.2 hOutside with ⟨cause, hError, hMalformed⟩
    rw [hError]
    refine ⟨iff_of_false ?_ hOutside, ?_, ?_⟩
    · rintro ⟨table, hTable⟩
      cases hTable
    · intro table hTable
      cases hTable
    · intro other hOther
      cases hOther
      cases cause with
      | malformedBuffer table field offset needed available =>
          exact ⟨table, field, offset, needed, available, rfl⟩
      | _ => cases hMalformed

/-
  A row with a text in it starts at 6 and ends at 21.  A cut at
  its end leaves the array behind it out; a cut at 15, where
  the text in the row starts, is inside the row.
-/
theorem readTable_cut_nested :
    let layout : Layout := {
      name := "Order"
      header := [⟨"version", .u16⟩]
      body :=
        [⟨"rows", .tables [⟨"tag", .u8⟩, ⟨"note", .bytes⟩]⟩,
          ⟨"keys", .array 2⟩] }
    let rows : Value := .tables [[.u8 7, .bytes [1, 2]]]
    let calls : List Call :=
      [.set 1 rows, .set 0 (.u16 5), .setNamed "none" rows]
    arePositive layout.fields ∧
    ∃ encoded table field offset needed available,
      ((empty layout).after calls).finish = .ok encoded ∧
      encoded.bytes.length = 25 ∧
      encoded.offsets = [4, 6, 21] ∧
      (∃ cut,
        readTable layout (encoded.cut 21) = .ok cut ∧
        cut.values[1]? = some rows ∧
        cut.offset? 1 = some 6 ∧
        ¬ cut.isPresent 2) ∧
      readTable layout (encoded.cut 15) =
        .error
          (.malformedBuffer table field offset needed
            available) := by
  intro layout rows calls
  have hPositive : arePositive layout.fields := by
    decide
  have hShape :
      (((empty layout).after calls).finish.map fun encoded =>
          (encoded.bytes.length, encoded.offsets)) =
        .ok (25, [4, 6, 21]) := by
    decide +kernel
  cases hFinish : ((empty layout).after calls).finish with
  | error cause =>
      rw [hFinish] at hShape
      cases hShape
  | ok encoded =>
      rw [hFinish] at hShape
      injection hShape with hPair
      injection hPair with hLength hOffsets
      rcases readTable_cut layout calls hPositive hFinish
          (show 4 ≤ 21 by omega) (by omega) with
        ⟨hCut, hFields, -⟩
      rcases readTable_cut layout calls hPositive hFinish
          (show 4 ≤ 15 by omega) (by omega) with
        ⟨hInside, -, hErrors⟩
      rw [hLength, hOffsets] at hCut hInside
      rcases hCut.mpr (by decide) with ⟨cut, hRead⟩
      rcases hFields cut hRead with ⟨-, -, -, hSlots⟩
      rcases hSlots 1 _ rfl with ⟨first, hFirst, hThere, -⟩
      rcases hSlots 2 _ rfl with ⟨last, hLast, -, hAbsent⟩
      rw [hOffsets] at hFirst hLast
      cases hFirst
      cases hLast
      cases hError : readTable layout (encoded.cut 15) with
      | ok found =>
          have hNowhere : ¬ (15 = 25 ∨ 15 ∈ [4, 6, 21]) := by
            decide
          exact absurd (hInside.mp ⟨found, hError⟩) hNowhere
      | error cause =>
          rcases hErrors cause hError with
            ⟨table, field, offset, needed, available, rfl⟩
          have hRows := hThere (by omega)
          have hKeys := hAbsent (by omega)
          exact ⟨hPositive, encoded, table, field, offset,
            needed, available, rfl, hLength, hOffsets,
            ⟨cut, hRead, hRows.1, hRows.2.2, hKeys.2.1⟩, hError⟩

end TableWriter

end DriveMarket
