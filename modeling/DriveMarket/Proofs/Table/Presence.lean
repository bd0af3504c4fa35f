import DriveMarket.Proofs.Table.RoundTrip
import DriveMarket.Proofs.Table.Typing

/-
  Fields that were there to be read.

  A field is absent only where its table ends, and then it has
  its default.  So a value other than the default was there.
  Up to a field that was there, fields of fixed width stand in
  the table as they are written for the values that were read.

  Key definitions include:
    * `Cursor.Passes`
    * `Bytes.HasFront`

  Correctness is proven by:
    * `FieldKind.encode_of_read`
    * `readFields_front`
    * `Bytes.HasFront.values_eq`
    * `readTable_present`
-/

namespace DriveMarket

------------------------------------------------------------
-- Passing Bytes
------------------------------------------------------------

namespace Cursor

/- From one place to another lie exactly these bytes. -/
structure Passes
    (cursor : Cursor)
    (bytes : Bytes)
    (next : Cursor) : Prop where
  rest : cursor.rest = bytes ++ next.rest
  position : next.position = cursor.position + bytes.length

theorem Passes.trans
    {cursor middle next : Cursor}
    {bytes more : Bytes}
    (hPasses : cursor.Passes bytes middle)
    (hNext : middle.Passes more next) :
    cursor.Passes (bytes ++ more) next := by
  constructor
  · rw [hPasses.rest, hNext.rest, List.append_assoc]
  · rw [hNext.position, hPasses.position, List.length_append,
      Nat.add_assoc]

variable {table name : String}
variable {cursor next : Cursor}

theorem take_eq_ok
    {n : Nat}
    {bytes : Bytes}
    (hTake : cursor.take table name n = .ok (bytes, next)) :
    bytes.length = n ∧ cursor.Passes bytes next := by
  unfold take at hTake
  by_cases hEnough : n ≤ cursor.rest.length
  · rw [if_pos hEnough] at hTake
    cases hTake
    have hLength : (cursor.rest.take n).length = n :=
      List.length_take_of_le hEnough
    refine ⟨hLength, (List.take_append_drop n _).symm, ?_⟩
    rw [hLength]
  · rw [if_neg hEnough] at hTake
    cases hTake

/- A number that is read is in range and as it is written. -/
theorem number_eq_ok
    {width n : Nat}
    (hNumber :
      cursor.number table name width = .ok (n, next)) :
    n < byteSpan width ∧
      cursor.Passes (LittleEndian.encode width n) next := by
  simp only [number, bind_eq_ok_iff] at hNumber
  rcases hNumber with ⟨⟨bytes, last⟩, hTake, hPure⟩
  cases hPure
  rcases take_eq_ok hTake with ⟨rfl, hPasses⟩
  refine ⟨LittleEndian.decode_lt bytes, ?_⟩
  rw [LittleEndian.encode_decode]
  exact hPasses

end Cursor

------------------------------------------------------------
-- Fields of Fixed Width
------------------------------------------------------------

/- Two words that are read are a number as it is written. -/
theorem encodeWords_ofNat
    {low high : Nat}
    (hLow : low < byteSpan 4)
    (hHigh : high < byteSpan 4) :
    encodeWords (UInt64.ofNat (low + 0x100000000 * high)) =
      LittleEndian.encode 4 low ++
        LittleEndian.encode 4 high := by
  have hWord : byteSpan 4 = 0x100000000 := rfl
  rw [hWord] at hLow hHigh
  have hNumber :
      (UInt64.ofNat (low + 0x100000000 * high)).toNat =
        low + 0x100000000 * high := by
    rw [UInt64.toNat_ofNat']
    omega
  have hMod :
      (low + 0x100000000 * high) % 0x100000000 = low := by
    omega
  have hDiv :
      (low + 0x100000000 * high) / 0x100000000 = high := by
    omega
  rw [encodeWords, hNumber, hMod, hDiv]

/- A field of fixed width is read as it is written. -/
theorem FieldKind.encode_of_read
    {table name : String}
    {kind : FieldKind}
    {cursor next : Cursor}
    {value : Value}
    (hFixed : kind.fixedWidth.isSome)
    (hRead :
      kind.read table name cursor = .ok (value, next)) :
    ∃ bytes,
      kind.encode table name value = .ok bytes ∧
        cursor.Passes bytes next := by
  cases kind with
  | u8 =>
      simp only [FieldKind.read, bind_eq_ok_iff] at hRead
      rcases hRead with ⟨⟨n, last⟩, hNumber, hPure⟩
      cases hPure
      rcases Cursor.number_eq_ok hNumber with
        ⟨hRange, hPasses⟩
      have hSmall : n % 256 = n := Nat.mod_eq_of_lt hRange
      rw [LittleEndian.encode, LittleEndian.encode, hSmall]
        at hPasses
      exact ⟨_, rfl, hPasses⟩
  | u16 =>
      simp only [FieldKind.read, bind_eq_ok_iff] at hRead
      rcases hRead with ⟨⟨n, last⟩, hNumber, hPure⟩
      cases hPure
      rcases Cursor.number_eq_ok hNumber with
        ⟨hRange, hPasses⟩
      refine ⟨_, rfl, ?_⟩
      rw [UInt16.toNat_ofNat_of_lt' hRange]
      exact hPasses
  | u32 =>
      simp only [FieldKind.read, bind_eq_ok_iff] at hRead
      rcases hRead with ⟨⟨n, last⟩, hNumber, hPure⟩
      cases hPure
      rcases Cursor.number_eq_ok hNumber with
        ⟨hRange, hPasses⟩
      refine ⟨_, rfl, ?_⟩
      rw [UInt32.toNat_ofNat_of_lt' hRange]
      exact hPasses
  | u64 =>
      simp only [FieldKind.read, bind_eq_ok_iff] at hRead
      rcases hRead with
        ⟨⟨low, middle⟩, hLow, ⟨high, last⟩, hHigh, hPure⟩
      cases hPure
      rcases Cursor.number_eq_ok hLow with
        ⟨hLowRange, hFirst⟩
      rcases Cursor.number_eq_ok hHigh with
        ⟨hHighRange, hSecond⟩
      refine ⟨_, rfl, ?_⟩
      rw [encodeWords_ofNat hLowRange hHighRange]
      exact hFirst.trans hSecond
  | fixed width =>
      simp only [FieldKind.read, bind_eq_ok_iff] at hRead
      rcases hRead with ⟨⟨bytes, last⟩, hTake, hPure⟩
      cases hPure
      exact ⟨bytes, rfl, (Cursor.take_eq_ok hTake).2⟩
  | _ => cases hFixed

------------------------------------------------------------
-- Present Fields
------------------------------------------------------------

/- A field that is absent has its default. -/
theorem readFields_absent
    {table : String}
    {fields : List Field}
    {cursor : Cursor}
    {found : List ReadField}
    {i : Nat}
    {field : Field}
    {item : ReadField}
    (hRead : readFields table fields cursor = .ok found)
    (hField : fields[i]? = some field)
    (hItem : found[i]? = some item)
    (hAbsent : item.offset = none) :
    item.value = field.kind.default := by
  induction fields generalizing cursor found i with
  | nil => cases hField
  | cons first fields ih =>
      rw [readFields] at hRead
      split at hRead
      · rw [bind_eq_ok_iff] at hRead
        rcases hRead with ⟨rest, hRest, hPure⟩
        cases hPure
        cases i with
        | zero =>
            cases hField
            cases hItem
            rfl
        | succ i => exact ih hRest hField hItem
      · simp only [bind_eq_ok_iff] at hRead
        rcases hRead with ⟨⟨value, next⟩, -, rest, hRest, hPure⟩
        cases hPure
        cases i with
        | zero =>
            cases hItem
            cases hAbsent
        | succ i => exact ih hRest hField hItem

/- Nothing is present behind the end of a table. -/
theorem readFields_at_end
    {table : String}
    {fields : List Field}
    {cursor : Cursor}
    {found : List ReadField}
    {i : Nat}
    (hEnd : cursor.rest = [])
    (hRead : readFields table fields cursor = .ok found) :
    found[i]?.bind (·.offset) = none := by
  rcases cursor with ⟨position, rest⟩
  cases hEnd
  rw [readFields_nil] at hRead
  cases hRead
  rw [List.getElem?_map]
  cases fields[i]? with
  | none => rfl
  | some field => rfl

/-
  Up to a field that is present, fields of fixed width are
  read as they are written.
-/
theorem readFields_front
    {table : String}
    {fields : List Field}
    {cursor : Cursor}
    {found : List ReadField}
    {i offset : Nat}
    (hRead : readFields table fields cursor = .ok found)
    (hFixed :
      ∀ field ∈ fields.take (i + 1),
        field.kind.fixedWidth.isSome)
    (hPresent : found[i]?.bind (·.offset) = some offset) :
    ∃ front offsets next,
      encodeFields table (fields.take (i + 1)) cursor.position
          ((found.map (·.value)).take (i + 1)) =
        .ok (front, offsets) ∧
      cursor.Passes front next := by
  induction fields generalizing cursor found i with
  | nil =>
      cases hRead
      cases hPresent
  | cons first fields ih =>
      rw [List.take_succ_cons, List.forall_mem_cons] at hFixed
      by_cases hEnd : cursor.rest = []
      · rw [readFields_at_end hEnd hRead] at hPresent
        cases hPresent
      · have hMore : ¬ cursor.rest.isEmpty :=
          fun hNil => hEnd (List.isEmpty_iff.mp hNil)
        rw [readFields, if_neg hMore] at hRead
        simp only [bind_eq_ok_iff] at hRead
        rcases hRead with
          ⟨⟨value, middle⟩, hValue, rest, hRest, hPure⟩
        cases hPure
        rcases FieldKind.encode_of_read hFixed.1 hValue with
          ⟨bytes, hBytes, hPasses⟩
        cases i with
        | zero =>
            refine ⟨bytes ++ [], [cursor.position], middle,
              ?_, ?_⟩
            · rw [List.map_cons, List.take_succ_cons,
                List.take_succ_cons, encodeFields, hBytes]
              rfl
            · rw [List.append_nil]
              exact hPasses
        | succ i =>
            rcases ih hRest hFixed.2 hPresent with
              ⟨front, offsets, last, hFront, hLast⟩
            refine ⟨bytes ++ front, cursor.position :: offsets,
              last, ?_, hPasses.trans hLast⟩
            rw [hPasses.position] at hFront
            rw [List.map_cons, List.take_succ_cons,
              List.take_succ_cons, encodeFields, hBytes,
              ok_bind, hFront]
            rfl

------------------------------------------------------------
-- Fronts
------------------------------------------------------------

/- A buffer is a table that starts with fields as written. -/
structure Bytes.HasFront
    (buffer : Bytes)
    (fields : List Field)
    (values : List Value)
    (front : Bytes) : Prop where
  entity : buffer.IsEntity
  fits : RowFits fields values
  encode :
    ∃ name offsets,
      encodeFields name fields sizeWidth values =
        .ok (front, offsets)
  leads : front <+: buffer.drop sizeWidth

/- Whoever reads a front finds its values. -/
theorem Bytes.HasFront.values_eq
    {buffer front : Bytes}
    {fields more : List Field}
    {values : List Value}
    {layout : Layout}
    {table : DecodedTable}
    (hFront : buffer.HasFront fields values front)
    (hPositive : arePositive fields)
    (hLayout : layout.fields = fields ++ more)
    (hRead : readTable layout buffer = .ok table) :
    ∃ others, table.values = values ++ others := by
  rcases hFront.encode with ⟨name, offsets, hEncode⟩
  rcases hFront.leads with ⟨rest, hRest⟩
  have hTable :=
    hFront.fits.readTable_front hPositive hLayout hEncode
      hFront.entity hRest.symm
  rw [hRead, eq_comm, bind_eq_ok_iff] at hTable
  rcases hTable with ⟨later, -, hPure⟩
  cases hPure
  refine ⟨later.map (·.value), ?_⟩
  rw [DecodedTable.values, List.map_append,
    presentFields_values
      (hFront.fits.length_offsets hEncode)]

/-
  If a value is not the default, it was there, and fields of
  fixed width up to it stand in the buffer as written.
-/
theorem readTable_present
    {layout : Layout}
    {buffer : Bytes}
    {table : DecodedTable}
    {slot : Nat}
    {field : Field}
    {value : Value}
    (hRead : readTable layout buffer = .ok table)
    (hEntity : buffer.IsEntity)
    (hFits : RowFits layout.fields table.values)
    (hField : layout.fields[slot]? = some field)
    (hValue : table.values[slot]? = some value)
    (hDiffers : value ≠ field.kind.default)
    (hFixed :
      ∀ field ∈ layout.fields.take (slot + 1),
        field.kind.fixedWidth.isSome) :
    ∃ front,
      buffer.HasFront (layout.fields.take (slot + 1))
        (table.values.take (slot + 1)) front := by
  rw [hEntity.readTable_eq, bind_eq_ok_iff] at hRead
  rcases hRead with ⟨found, hFound, hPure⟩
  cases hPure
  rw [DecodedTable.values, List.getElem?_map,
    Option.map_eq_some_iff] at hValue
  rcases hValue with ⟨item, hItem, rfl⟩
  cases hOffset : item.offset with
  | none =>
      exact absurd
        (readFields_absent hFound hField hItem hOffset)
        hDiffers
  | some offset =>
      have hPresent :
          found[slot]?.bind (·.offset) = some offset := by
        rw [hItem]
        exact hOffset
      rcases readFields_front hFound hFixed hPresent with
        ⟨front, offsets, next, hFront, hPasses⟩
      exact ⟨front, {
        entity := hEntity
        fits := hFits.take (slot + 1)
        encode := ⟨_, offsets, hFront⟩
        leads := ⟨next.rest, hPasses.rest.symm⟩ }⟩

end DriveMarket
