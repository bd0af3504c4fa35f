import DriveMarket.Proofs.Table.Presence
import DriveMarket.Proofs.Table.Writing

/-
  Where fields start, and how long tables are.

  A layout tells the offset of a field from the widths of the
  fields before it.  A writer knows it from the bytes that it
  has written so far, and a reader from the bytes that it has
  passed.  All three count the same: a field of fixed width
  takes up just that width whatever its value, and any other
  at least its count.

  Offsets and sizes wrap around at 64 bits.  That cannot make
  a difference to any table, since the size of a table is a
  number of 32 bits.

  Key definitions include:
    * `Cursor.Takes`
    * `Layout.leastSize`
    * `Layout.Writes`

  Correctness is proven by:
    * `FieldKind.Fits.length_encode`
    * `RowFits.offset_eq`
    * `RowFits.leastSpan_le`
    * `readFields_offset`
    * `Layout.offsets_agree`
-/

namespace DriveMarket

------------------------------------------------------------
-- Fixed Spans
------------------------------------------------------------

namespace Layout

/- A span may be counted from any start. -/
theorem foldlM_fixedSpan?
    (start : Nat)
    (fields : List Field) :
    fields.foldlM
        (fun span field =>
          field.kind.fixedWidth.map (span + ·))
        start =
      (fixedSpan? fields).map (start + ·) := by
  induction fields generalizing start with
  | nil => rfl
  | cons field fields ih =>
      rw [fixedSpan?, List.foldlM_cons, List.foldlM_cons]
      cases field.kind.fixedWidth with
      | none => rfl
      | some width =>
          simp [ih (start + width), ih width,
            Function.comp_def, Nat.add_assoc]

/- The widths of fields add up, the first with the others. -/
theorem fixedSpan?_cons
    (field : Field)
    (fields : List Field) :
    fixedSpan? (field :: fields) =
      field.kind.fixedWidth.bind fun width =>
        (fixedSpan? fields).map (width + ·) := by
  rw [fixedSpan?, List.foldlM_cons]
  cases field.kind.fixedWidth with
  | none => rfl
  | some width =>
      simp [foldlM_fixedSpan?]

theorem fixedSpan?_cons_eq_some_iff
    {field : Field}
    {fields : List Field}
    {span : Nat} :
    fixedSpan? (field :: fields) = some span ↔
      ∃ width rest,
        field.kind.fixedWidth = some width ∧
        fixedSpan? fields = some rest ∧
        width + rest = span := by
  rw [fixedSpan?_cons, Option.bind_eq_some_iff]
  simp only [Option.map_eq_some_iff, exists_and_left]

/- Fields have a fixed span unless one of them varies. -/
theorem fixedSpan?_eq_none_iff
    {fields : List Field} :
    fixedSpan? fields = none ↔
      ∃ field ∈ fields, field.kind.fixedWidth = none := by
  induction fields with
  | nil => simp [fixedSpan?]
  | cons field fields ih =>
      rw [fixedSpan?_cons, List.exists_mem_cons_iff, ← ih]
      cases field.kind.fixedWidth with
      | none => simp
      | some width => simp

end Layout

------------------------------------------------------------
-- Written Widths
------------------------------------------------------------

namespace FieldKind.Fits

variable {kind : FieldKind}
variable {value : Value}
variable {table name : String}
variable {bytes : Bytes}

/- A field of fixed width is written in that many bytes. -/
theorem length_encode
    {width : Nat}
    (hFits : kind.Fits value)
    (hWidth : kind.fixedWidth = some width)
    (hEncode : kind.encode table name value = .ok bytes) :
    bytes.length = width := by
  cases hFits with
  | u8 n =>
      cases hEncode
      cases hWidth
      rfl
  | u16 n =>
      cases hEncode
      cases hWidth
      rfl
  | u32 n =>
      cases hEncode
      cases hWidth
      rfl
  | u64 n =>
      cases hEncode
      cases hWidth
      rfl
  | fixed hLength =>
      cases hEncode
      cases hWidth
      exact hLength
  | _ => cases hWidth

/- Any other field starts with its count. -/
theorem countWidth_le
    (hFits : kind.Fits value)
    (hWidth : kind.fixedWidth = none)
    (hEncode : kind.encode table name value = .ok bytes) :
    countWidth ≤ bytes.length := by
  have hCounted :
      ∃ n rest,
        LittleEndian.encode countWidth n ++ rest = bytes := by
    cases hFits with
    | bytes content =>
        rw [FieldKind.encode, encode_counted_eq_ok_iff]
          at hEncode
        exact ⟨_, _, hEncode.2⟩
    | array hItems =>
        rw [FieldKind.encode, encode_counted_eq_ok_iff]
          at hEncode
        exact ⟨_, _, hEncode.2⟩
    | tables hRows =>
        rw [FieldKind.encode_tables_eq_ok_iff hRows]
          at hEncode
        rcases hEncode with ⟨-, tables, -, hBytes⟩
        exact ⟨_, _, hBytes⟩
    | entities hItems =>
        rw [FieldKind.encode, encode_counted_eq_ok_iff]
          at hEncode
        exact ⟨_, _, hEncode.2⟩
    | _ => cases hWidth
  rcases hCounted with ⟨n, rest, rfl⟩
  rw [List.length_append, LittleEndian.length_encode]
  exact Nat.le_add_right _ _

/- No field is written in less than its least width. -/
theorem minWidth_le
    (hFits : kind.Fits value)
    (hEncode : kind.encode table name value = .ok bytes) :
    kind.minWidth ≤ bytes.length := by
  unfold minWidth
  cases hWidth : kind.fixedWidth with
  | none => exact hFits.countWidth_le hWidth hEncode
  | some width =>
      exact Nat.le_of_eq
        (hFits.length_encode hWidth hEncode).symm

end FieldKind.Fits

/- A field that is left out is written in its least width. -/
theorem FieldKind.encode_default
    (table name : String)
    (kind : FieldKind) :
    ∃ bytes,
      kind.encode table name kind.default = .ok bytes ∧
        bytes.length = kind.minWidth := by
  cases kind with
  | u8 => exact ⟨_, rfl, rfl⟩
  | u16 => exact ⟨_, rfl, rfl⟩
  | u32 => exact ⟨_, rfl, rfl⟩
  | u64 => exact ⟨_, rfl, rfl⟩
  | fixed width => exact ⟨_, rfl, List.length_replicate⟩
  | bytes => exact ⟨_, rfl, rfl⟩
  | array width => exact ⟨_, rfl, rfl⟩
  | tables fields => exact ⟨_, rfl, rfl⟩
  | entities => exact ⟨_, rfl, rfl⟩

------------------------------------------------------------
-- Written Offsets
------------------------------------------------------------

namespace RowFits

variable {table : String}
variable {fields : List Field}
variable {values : List Value}
variable {offset : Nat}
variable {bytes : Bytes}
variable {offsets : List Nat}

/-
  Behind fields of fixed width a field is written where their
  widths end, which is not behind all that is written.
-/
theorem offset_eq
    {slot span : Nat}
    (hFits : RowFits fields values)
    (hEncode :
      encodeFields table fields offset values =
        .ok (bytes, offsets))
    (hSlot : slot < fields.length)
    (hSpan :
      Layout.fixedSpan? (fields.take slot) = some span) :
    offsets[slot]? = some (offset + span) ∧
      span ≤ bytes.length := by
  induction fields generalizing
      values offset bytes offsets slot span with
  | nil => cases hSlot
  | cons field fields ih =>
      cases hFits with
      | cons hValue hValues =>
          rw [encodeFields_cons_eq_ok_iff] at hEncode
          rcases hEncode with
            ⟨first, rest, later, hFirst, hRest, rfl, rfl⟩
          cases slot with
          | zero =>
              cases hSpan
              exact ⟨rfl, Nat.zero_le _⟩
          | succ slot =>
              rw [List.take_succ_cons,
                Layout.fixedSpan?_cons_eq_some_iff] at hSpan
              rcases hSpan with
                ⟨width, others, hWidth, hOthers, rfl⟩
              have hLength :=
                hValue.length_encode hWidth hFirst
              rcases ih hValues hRest
                  (Nat.lt_of_succ_lt_succ hSlot) hOthers with
                ⟨hOffset, hWithin⟩
              rw [hLength, Nat.add_assoc] at hOffset
              refine ⟨hOffset, ?_⟩
              rw [List.length_append, hLength]
              exact Nat.add_le_add_left hWithin width

/- Fields are not written in less than their least widths. -/
theorem leastSpan_le
    (start : Nat)
    (hFits : RowFits fields values)
    (hEncode :
      encodeFields table fields offset values =
        .ok (bytes, offsets)) :
    fields.foldr (·.kind.minWidth + ·) start ≤
      start + bytes.length := by
  induction fields generalizing
      values offset bytes offsets with
  | nil => exact Nat.le_add_right _ _
  | cons field fields ih =>
      cases hFits with
      | cons hValue hValues =>
          rw [encodeFields_cons_eq_ok_iff] at hEncode
          rcases hEncode with
            ⟨first, rest, later, hFirst, hRest, rfl, rfl⟩
          have hHead := hValue.minWidth_le hFirst
          have hTail := ih hValues hRest
          rw [List.foldr_cons, List.length_append]
          omega

end RowFits

/- Fields that are left out are written in just those widths. -/
theorem encodeFields_default
    (table : String)
    (fields : List Field)
    (offset start : Nat) :
    ∃ bytes offsets,
      encodeFields table fields offset
          (fields.map (·.kind.default)) =
        .ok (bytes, offsets) ∧
      start + bytes.length =
        fields.foldr (·.kind.minWidth + ·) start := by
  induction fields generalizing offset with
  | nil => exact ⟨[], [], rfl, rfl⟩
  | cons field fields ih =>
      rcases field.kind.encode_default table field.name with
        ⟨first, hFirst, hHead⟩
      rcases ih (offset + first.length) with
        ⟨rest, later, hRest, hTail⟩
      refine ⟨first ++ rest, offset :: later, ?_, ?_⟩
      · rw [List.map_cons, encodeFields_cons_eq_ok_iff]
        exact ⟨first, rest, later, hFirst, hRest, rfl, rfl⟩
      · rw [List.foldr_cons, ← hTail, List.length_append,
          hHead]
        omega

------------------------------------------------------------
-- Read Widths
------------------------------------------------------------

namespace Cursor

/- What is read is read from just so many bytes. -/
def Takes
    {α : Type}
    (width : Nat)
    (read : Cursor → Except TableError (α × Cursor)) : Prop :=
  ∀ ⦃cursor item next⦄,
    read cursor = .ok (item, next) →
    ∃ bytes, bytes.length = width ∧ cursor.Passes bytes next

variable {α β : Type}
variable {width more : Nat}
variable {read : Cursor → Except TableError (α × Cursor)}

/- One reader after another takes what both of them take. -/
theorem Takes.bind
    (hRead : Takes width read)
    (later : α → Cursor → Except TableError (β × Cursor))
    (hLater : ∀ item, Takes more (later item)) :
    Takes (width + more) (fun cursor => do
      let (item, next) ← read cursor
      later item next) := by
  intro cursor item last hBoth
  rw [bind_eq_ok_iff] at hBoth
  rcases hBoth with ⟨⟨first, next⟩, hFirst, hSecond⟩
  rcases hRead hFirst with ⟨front, rfl, hFront⟩
  rcases hLater first hSecond with ⟨back, rfl, hBack⟩
  exact ⟨_, List.length_append, hFront.trans hBack⟩

/- Making something of an item takes nothing. -/
theorem Takes.map
    (hRead : Takes width read)
    (f : α → β) :
    Takes width (fun cursor => do
      let (item, next) ← read cursor
      return (f item, next)) := by
  intro cursor item last hBoth
  rw [bind_eq_ok_iff] at hBoth
  rcases hBoth with ⟨⟨first, next⟩, hFirst, hPure⟩
  cases hPure
  exact hRead hFirst

theorem takes_take
    (table name : String)
    (n : Nat) : Takes n (take table name n) :=
  fun _ _ _ hTake => ⟨_, take_eq_ok hTake⟩

theorem takes_number
    (table name : String)
    (width : Nat) : Takes width (number table name width) :=
  (takes_take table name width).map LittleEndian.decode

end Cursor

/- A field of fixed width is read from that many bytes. -/
theorem FieldKind.takes_read
    {kind : FieldKind}
    {width : Nat}
    (table name : String)
    (hWidth : kind.fixedWidth = some width) :
    Cursor.Takes width (kind.read table name) := by
  have hNumber := Cursor.takes_number table name
  cases kind with
  | u8 =>
      cases hWidth
      exact (hNumber 1).map fun n => Value.u8 (UInt8.ofNat n)
  | u16 =>
      cases hWidth
      exact (hNumber 2).map fun n => Value.u16 (UInt16.ofNat n)
  | u32 =>
      cases hWidth
      exact (hNumber 4).map fun n => Value.u32 (UInt32.ofNat n)
  | u64 =>
      cases hWidth
      exact (hNumber 4).bind _ fun low =>
        (hNumber 4).map fun high =>
          Value.u64 (UInt64.ofNat (low + 0x100000000 * high))
  | fixed length =>
      cases hWidth
      exact (Cursor.takes_take table name _).map Value.fixed
  | _ => cases hWidth

------------------------------------------------------------
-- Read Offsets
------------------------------------------------------------

/-
  Behind fields of fixed width a field that is there is read
  where their widths end, which is not behind all that is left.
-/
theorem readFields_offset
    {table : String}
    {fields : List Field}
    {cursor : Cursor}
    {found : List ReadField}
    {slot span start : Nat}
    (hRead : readFields table fields cursor = .ok found)
    (hSpan :
      Layout.fixedSpan? (fields.take slot) = some span)
    (hPresent : found[slot]?.bind (·.offset) = some start) :
    start = cursor.position + span ∧
      span ≤ cursor.rest.length := by
  induction fields generalizing cursor found slot span with
  | nil =>
      cases hRead
      cases hPresent
  | cons field fields ih =>
      by_cases hEnd : cursor.rest = []
      · rw [readFields_at_end hEnd hRead] at hPresent
        cases hPresent
      · have hMore : ¬ cursor.rest.isEmpty :=
          fun hNil => hEnd (List.isEmpty_iff.mp hNil)
        rw [readFields, if_neg hMore] at hRead
        simp only [bind_eq_ok_iff] at hRead
        rcases hRead with
          ⟨⟨value, next⟩, hValue, rest, hRest, hPure⟩
        cases hPure
        cases slot with
        | zero =>
            cases hSpan
            cases hPresent
            exact ⟨rfl, Nat.zero_le _⟩
        | succ slot =>
            rw [List.take_succ_cons,
              Layout.fixedSpan?_cons_eq_some_iff] at hSpan
            rcases hSpan with
              ⟨width, others, hWidth, hOthers, rfl⟩
            rcases FieldKind.takes_read _ _ hWidth hValue with
              ⟨bytes, rfl, hPasses⟩
            rcases ih hRest hOthers hPresent with
              ⟨hStart, hWithin⟩
            rw [hPasses.rest, List.length_append]
            refine ⟨?_, Nat.add_le_add_left hWithin _⟩
            rw [hStart, hPasses.position, Nat.add_assoc]

------------------------------------------------------------
-- Layouts
------------------------------------------------------------

/- A number of 32 bits does not wrap around at 64 bits. -/
theorem Word64.wrap_eq_self
    {n : Nat}
    (hSmall : n < 0x100000000) : wrap n = n :=
  Nat.mod_eq_of_lt (Nat.lt_trans hSmall (by decide))

namespace TableWriter

/- What is written if nothing is set. -/
theorem filled_empty
    (layout : Layout) :
    (empty layout).filled =
      layout.fields.map (·.kind.default) := by
  apply List.ext_getElem
  · simp [filled, empty, Layout.fieldCount]
  · intro slot hLeft hRight
    simp [filled, empty]

end TableWriter

namespace Layout

variable {layout : Layout}
variable {slot offset : Nat}

/- An offset is where the widths before it end. -/
theorem fixedOffset_eq_some_iff :
    layout.fixedOffset slot = some offset ↔
      slot < layout.fields.length ∧
        ∃ span,
          fixedSpan? (layout.fields.take slot) = some span ∧
          Word64.wrap (sizeWidth + span) = offset := by
  unfold fixedOffset fieldCount
  by_cases hSlot : slot < layout.fields.length
  · rw [if_pos hSlot, Option.map_eq_some_iff,
      and_iff_right hSlot]
  · rw [if_neg hSlot]
    exact iff_of_false nofun fun hBoth => hSlot hBoth.1

/- It is unknown out of range and behind fields that vary. -/
theorem fixedOffset_eq_none_iff :
    layout.fixedOffset slot = none ↔
      layout.field? slot = none ∨
        ∃ earlier field,
          earlier < slot ∧
          layout.field? earlier = some field ∧
          field.kind.fixedWidth = none := by
  unfold fixedOffset fieldCount field?
  by_cases hSlot : slot < layout.fields.length
  · rw [if_pos hSlot, Option.map_eq_none_iff,
      fixedSpan?_eq_none_iff]
    constructor
    · rintro ⟨field, hMem, hVaries⟩
      rcases List.mem_take_iff_getElem.mp hMem with
        ⟨earlier, hBefore, hField⟩
      refine .inr ⟨earlier, field, by omega, ?_, hVaries⟩
      rw [← hField, List.getElem?_eq_getElem]
    · rintro (hOut | ⟨earlier, field, hBefore, hField,
        hVaries⟩)
      · rw [List.getElem?_eq_getElem hSlot] at hOut
        cases hOut
      · rw [← List.getElem?_take_of_lt hBefore] at hField
        exact ⟨field, List.mem_of_getElem? hField, hVaries⟩
  · rw [if_neg hSlot]
    exact iff_of_true rfl
      (.inl (List.getElem?_eq_none (Nat.le_of_not_lt hSlot)))

/- The offset table lists the offsets that are known. -/
theorem getElem?_offsetTable
    (layout : Layout)
    (slot : Nat) :
    layout.offsetTable[slot]?.join =
      layout.fixedOffset slot := by
  unfold offsetTable
  by_cases hSlot : slot < layout.fieldCount
  · rw [List.getElem?_map, List.getElem?_range hSlot]
    rfl
  · rw [fixedOffset, if_neg hSlot, List.getElem?_eq_none]
    · rfl
    · rw [List.length_map, List.length_range]
      exact Nat.le_of_not_lt hSlot

/- The size of a table of least widths, before it wraps. -/
def leastSize
    (layout : Layout) : Nat :=
  layout.fields.foldr (·.kind.minWidth + ·) sizeWidth

theorem minSize_eq
    (hSize : layout.leastSize < 0x100000000) :
    layout.minSize = layout.leastSize :=
  Word64.wrap_eq_self hSize

------------------------------------------------------------
-- Written Tables
------------------------------------------------------------

/- Some calls of a writer finish the table. -/
def Writes
    (layout : Layout)
    (encoded : EncodedTable) : Prop :=
  ∃ calls,
    ((TableWriter.empty layout).after calls).finish =
      .ok encoded

namespace Writes

variable {encoded : EncodedTable}

/- A finished table is a row of values that fit. -/
theorem exists_body
    (hWrites : layout.Writes encoded) :
    ∃ values body,
      RowFits layout.fields values ∧
      encodeFields layout.name layout.fields sizeWidth
          values = .ok (body, encoded.offsets) ∧
      sizeWidth + body.length = encoded.bytes.length ∧
      encoded.bytes.length < 0x100000000 := by
  rcases hWrites with ⟨calls, hFinish⟩
  have hFits :=
    ((TableWriter.WellFormed.empty layout).after
      calls).filled_fits
  unfold TableWriter.finish at hFinish
  rw [TableWriter.layout_after] at hFits hFinish
  rcases encodeTable_eq_ok hFinish with
    ⟨body, hBody, hEntity, rfl⟩
  exact ⟨_, _, hFits, hBody, hEntity.length_behind_size,
    hEntity.length_lt⟩

/- A field whose offset is known is written there. -/
theorem getElem?_offsets
    (hWrites : layout.Writes encoded)
    (hFixed : layout.fixedOffset slot = some offset) :
    encoded.offsets[slot]? = some offset := by
  rcases hWrites.exists_body with
    ⟨values, body, hFits, hBody, hLength, hBound⟩
  rcases fixedOffset_eq_some_iff.mp hFixed with
    ⟨hSlot, span, hSpan, rfl⟩
  rcases hFits.offset_eq hBody hSlot hSpan with
    ⟨hOffset, hWithin⟩
  rw [hOffset, Word64.wrap_eq_self (by omega)]

/- No table is smaller than its least widths together. -/
theorem leastSize_le
    (hWrites : layout.Writes encoded) :
    layout.leastSize ≤ encoded.bytes.length := by
  rcases hWrites.exists_body with
    ⟨values, body, hFits, hBody, hLength, -⟩
  rw [← hLength]
  exact hFits.leastSpan_le sizeWidth hBody

theorem leastSize_lt
    (hWrites : layout.Writes encoded) :
    layout.leastSize < 0x100000000 := by
  rcases hWrites.exists_body with ⟨-, -, -, -, -, hBound⟩
  exact Nat.lt_of_le_of_lt hWrites.leastSize_le hBound

end Writes

/- If nothing is set, the least widths are all there is. -/
theorem exists_finish_empty
    (hSize : layout.leastSize < 0x100000000) :
    ∃ encoded,
      (TableWriter.empty layout).finish = .ok encoded ∧
        encoded.bytes.length = layout.leastSize := by
  rcases encodeFields_default layout.name layout.fields
      sizeWidth sizeWidth with
    ⟨bytes, offsets, hFields, hLength⟩
  have hFits : sizeWidth + bytes.length < 0x100000000 := by
    rw [hLength]
    exact hSize
  have hSeal :
      sealTable layout.name (bytes, offsets) =
        .ok
          ⟨LittleEndian.encode 4 (sizeWidth + bytes.length) ++
            bytes, offsets⟩ :=
    sealTable_eq_ok_iff.mpr ⟨hFits, rfl, rfl⟩
  rw [TableWriter.finish, TableWriter.filled_empty]
  refine ⟨_, bind_eq_ok_iff.mpr ⟨_, hFields, hSeal⟩, ?_⟩
  rw [List.length_append, LittleEndian.length_encode]
  exact hLength

/- That is the size that the layout states. -/
theorem length_finish_empty
    {encoded : EncodedTable}
    (hFinish :
      (TableWriter.empty layout).finish = .ok encoded) :
    layout.leastSize < 0x100000000 ∧
      encoded.bytes.length = layout.minSize := by
  have hWrites : layout.Writes encoded := ⟨[], hFinish⟩
  have hSize := hWrites.leastSize_lt
  rcases exists_finish_empty hSize with
    ⟨least, hLeast, hLength⟩
  rw [hFinish] at hLeast
  cases hLeast
  exact ⟨hSize, hLength.trans (minSize_eq hSize).symm⟩

------------------------------------------------------------
-- Read Tables
------------------------------------------------------------

/- A field whose offset is known is read there if present. -/
theorem offset?_of_readTable
    {buffer : Bytes}
    {table : DecodedTable}
    (hRead : readTable layout buffer = .ok table)
    (hFixed : layout.fixedOffset slot = some offset)
    (hPresent : table.isPresent slot) :
    table.offset? slot = some offset := by
  rcases fixedOffset_eq_some_iff.mp hFixed with
    ⟨-, span, hSpan, rfl⟩
  rcases Option.isSome_iff_exists.mp hPresent with
    ⟨start, hStart⟩
  unfold readTable at hRead
  simp only [bind_eq_ok_iff] at hRead
  rcases hRead with ⟨size, hSize, fields, hFields, hPure⟩
  cases hPure
  rcases readFields_offset hFields hSpan hStart with
    ⟨hOffset, hWithin⟩
  rcases (readSize_yields _ _ buffer).returned size hSize with
    ⟨hWide, hEnough, hDeclared⟩
  have hEntity := isEntity_take hWide hEnough hDeclared
  have hLength := hEntity.length_behind_size
  have hBound := hEntity.length_lt
  have hEnd :
      span ≤ ((buffer.take size).drop sizeWidth).length :=
    hWithin
  rw [hStart, hOffset, Word64.wrap_eq_self (by omega)]
  rfl

------------------------------------------------------------
-- Agreement
------------------------------------------------------------

/-
  What a layout tells beforehand is so in every table.  An
  offset that it knows is where the field is written in any
  table that is finished, and where it is read in any buffer
  that is accepted, unless the field is absent there.  It
  knows all offsets in range but those behind fields of
  varying width.  A table in which nothing is set has just the
  size it states, as soon as 32 bits can count that many
  bytes, and no other table is smaller.
-/
theorem offsets_agree
    (layout : Layout) :
    (∀ slot offset,
      layout.fixedOffset slot = some offset →
      (∀ encoded,
        layout.Writes encoded →
        encoded.offsets[slot]? = some offset) ∧
      ∀ buffer table,
        readTable layout buffer = .ok table →
        table.isPresent slot →
        table.offset? slot = some offset) ∧
    (∀ slot,
      layout.offsetTable[slot]?.join =
        layout.fixedOffset slot) ∧
    (∀ slot,
      layout.fixedOffset slot = none ↔
        layout.field? slot = none ∨
          ∃ earlier field,
            earlier < slot ∧
            layout.field? earlier = some field ∧
            field.kind.fixedWidth = none) ∧
    ((∃ encoded,
      (TableWriter.empty layout).finish = .ok encoded) ↔
        layout.leastSize < 0x100000000) ∧
    (∀ encoded,
      (TableWriter.empty layout).finish = .ok encoded →
      encoded.bytes.length = layout.minSize) ∧
    ∀ encoded,
      layout.Writes encoded →
      layout.minSize ≤ encoded.bytes.length := by
  refine ⟨?_, getElem?_offsetTable layout,
    fun _ => fixedOffset_eq_none_iff, ?_, ?_, ?_⟩
  · intro slot offset hFixed
    constructor
    · intro encoded hWrites
      exact hWrites.getElem?_offsets hFixed
    · intro buffer table hRead hPresent
      exact offset?_of_readTable hRead hFixed hPresent
  · constructor
    · rintro ⟨encoded, hFinish⟩
      exact (length_finish_empty hFinish).1
    · intro hSize
      rcases exists_finish_empty hSize with
        ⟨encoded, hFinish, -⟩
      exact ⟨encoded, hFinish⟩
  · intro encoded hFinish
    exact (length_finish_empty hFinish).2
  · intro encoded hWrites
    rw [minSize_eq hWrites.leastSize_lt]
    exact hWrites.leastSize_le

/-
  The amount starts at 8 behind a number and a key, both in a
  table that is written and in one that ends with the amount.
  Where the mark behind the rows starts is not known.
-/
theorem offsets_agree_rows :
    let layout : Layout := {
      name := "Order"
      header := [⟨"version", .u16⟩, ⟨"key", .fixed 2⟩]
      body :=
        [⟨"amount", .u64⟩,
          ⟨"rows", .tables [⟨"tag", .u8⟩]⟩,
          ⟨"mark", .u8⟩] }
    let calls : List TableWriter.Call :=
      [.setNamed "rows" (.tables [[.u8 7]]),
        .set 1 (.fixed [1, 2])]
    let buffer : Bytes :=
      [16, 0, 0, 0] ++ [5, 0] ++ [1, 2] ++
        [9, 0, 0, 0, 0, 0, 0, 0]
    layout.fixedOffset 2 = some 8 ∧
    layout.fixedOffset 4 = none ∧
    layout.minSize = 21 ∧
    (∃ encoded,
      ((TableWriter.empty layout).after calls).finish =
        .ok encoded ∧
      encoded.offsets[2]? = some 8 ∧
      21 ≤ encoded.bytes.length) ∧
    (∃ table,
      readTable layout buffer = .ok table ∧
      table.isPresent 2 ∧
      table.offset? 2 = some 8) ∧
    ∃ least,
      (TableWriter.empty layout).finish = .ok least ∧
      least.bytes.length = 21 := by
  intro layout calls buffer
  rcases offsets_agree layout with
    ⟨hOffsets, -, hUnknown, hExists, hLeast, hBound⟩
  have hFixed : layout.fixedOffset 2 = some 8 := by
    decide
  have hVaries : layout.fixedOffset 4 = none :=
    (hUnknown 4).mpr (.inr ⟨3, _, by omega, rfl, rfl⟩)
  rcases hOffsets 2 8 hFixed with ⟨hWritten, hRead⟩
  have hFinish :
      ∃ encoded,
        ((TableWriter.empty layout).after calls).finish =
          .ok encoded :=
    exists_eq_ok (by decide +kernel)
  have hTable :
      ∃ table,
        readTable layout buffer = .ok table ∧
          table.isPresent 2 :=
    ⟨_, rfl, rfl⟩
  rcases hFinish with ⟨encoded, hEncoded⟩
  rcases hTable with ⟨table, hAccepted, hPresent⟩
  rcases hExists.mpr (by decide) with ⟨least, hEmpty⟩
  have hWrites : layout.Writes encoded := ⟨calls, hEncoded⟩
  exact ⟨hFixed, hVaries, rfl,
    ⟨encoded, hEncoded, hWritten encoded hWrites,
      hBound encoded hWrites⟩,
    ⟨table, hAccepted, hPresent,
      hRead buffer table hAccepted hPresent⟩,
    ⟨least, hEmpty, hLeast least hEmpty⟩⟩

end Layout

end DriveMarket
