import DriveMarket.Proofs.Table.Reading
import DriveMarket.Table.Record

/-
  Tables are read back as they were written.

  Both directions go through the fields in the order of the
  layout.  What is written for a value is never empty when its
  kind is positive, so that no field that was written is taken
  for an absent one.

  Key definitions include:
    * `presentFields`

  Correctness is proven by:
    * `RowFits.readFields_encode`
    * `RowFits.readTable_record`
-/

namespace DriveMarket

------------------------------------------------------------
-- Lengths
------------------------------------------------------------

theorem encodeLength_eq_ok_iff
    {table name : String}
    {length : Nat}
    {bytes : Bytes} :
    encodeLength table name length = .ok bytes ↔
      length < 0x100000000 ∧
        LittleEndian.encode 4 length = bytes := by
  unfold encodeLength
  by_cases hFits : length < 0x100000000
  · simp [hFits]
  · simp [hFits]

/- What stands behind a count is written as it is. -/
theorem encode_counted_eq_ok_iff
    {table name : String}
    {length : Nat}
    {rest bytes : Bytes} :
    (do
      let count ← encodeLength table name length
      return count ++ rest) = .ok bytes ↔
      length < 0x100000000 ∧
        LittleEndian.encode 4 length ++ rest = bytes := by
  unfold encodeLength
  by_cases hFits : length < 0x100000000
  · simp [hFits, pure, Except.pure]
  · simp [hFits]

/- A sealed table is its fields behind their size. -/
theorem sealTable_eq_ok_iff
    {table : String}
    {fields : Bytes × List Nat}
    {encoded : EncodedTable} :
    sealTable table fields = .ok encoded ↔
      sizeWidth + fields.1.length < 0x100000000 ∧
        encoded.bytes =
          LittleEndian.encode 4
            (sizeWidth + fields.1.length) ++ fields.1 ∧
        encoded.offsets = fields.2 := by
  unfold sealTable
  simp only [bind_eq_ok_iff, encodeLength_eq_ok_iff, pure,
    Except.pure]
  constructor
  · rintro ⟨size, ⟨hFits, hSize⟩, hSealed⟩
    cases hSealed
    exact ⟨hFits, by rw [hSize], rfl⟩
  · rintro ⟨hFits, hBytes, hOffsets⟩
    refine ⟨_, ⟨hFits, rfl⟩, ?_⟩
    rw [← hBytes, ← hOffsets]

/- Fields behind their size are an entity. -/
theorem isEntity_size_append
    {fields : Bytes}
    (hFits : sizeWidth + fields.length < 0x100000000) :
    Bytes.IsEntity
      (LittleEndian.encode 4 (sizeWidth + fields.length) ++
        fields) := by
  constructor
  · rw [List.length_append, LittleEndian.length_encode]
    exact Nat.le_add_right _ _
  · have hWidth :
        (LittleEndian.encode 4
          (sizeWidth + fields.length)).length = sizeWidth :=
      LittleEndian.length_encode _ _
    rw [declaredSize, List.take_left' hWidth,
      LittleEndian.decode_encode hFits, List.length_append,
      hWidth]

theorem drop_size_append
    (size : Nat)
    (fields : Bytes) :
    (LittleEndian.encode 4 size ++ fields).drop sizeWidth =
      fields :=
  List.drop_left' (LittleEndian.length_encode 4 size)

------------------------------------------------------------
-- Whole Tables
------------------------------------------------------------

/- A writer of values that fit writes just those values. -/
theorem RowFits.writeTable_eq
    {layout : Layout}
    {values : List Value}
    (hFits : RowFits layout.fields values) :
    writeTable layout values = encodeTable layout values := by
  rw [writeTable, TableWriter.setFrom_empty hFits, ok_bind,
    TableWriter.finish,
    TableWriter.filled_of_all_set hFits.length_eq]

/- A nested table on its own. -/
def encodeRow
    (name : String)
    (fields : List Field)
    (row : List Value) : Except TableError Bytes := do
  let encoded ← encodeTable (.table name fields) row
  return encoded.bytes

/- Each nested table is written as a table of its own. -/
theorem FieldKind.encode_tables
    {fields : List Field}
    {rows : List (List Value)}
    (table name : String)
    (hRows : ∀ row ∈ rows, RowFits fields row) :
    FieldKind.encode table name (.tables fields)
        (.tables rows) = (do
      let count ← encodeLength table name rows.length
      let tables ← rows.mapM (encodeRow name fields)
      return count ++ tables.flatten) := by
  rw [FieldKind.encode]
  congr 1
  funext count
  congr 1
  apply mapM_congr
  intro row hMem
  have hFits : RowFits (Layout.table name fields).fields row :=
    hRows row hMem
  rw [TableWriter.setFrom_empty hFits, ok_bind,
    TableWriter.filled_of_all_set hFits.length_eq,
    encodeRow, encodeTable, bind_assoc]
  rfl

theorem FieldKind.encode_tables_eq_ok_iff
    {table name : String}
    {fields : List Field}
    {rows : List (List Value)}
    {bytes : Bytes}
    (hRows : ∀ row ∈ rows, RowFits fields row) :
    FieldKind.encode table name (.tables fields)
        (.tables rows) = .ok bytes ↔
      rows.length < 0x100000000 ∧
        ∃ tables,
          List.Forall₂
            (fun row piece =>
              encodeRow name fields row = .ok piece)
            rows tables ∧
          LittleEndian.encode 4 rows.length ++
            tables.flatten = bytes := by
  rw [FieldKind.encode_tables table name hRows]
  simp only [bind_eq_ok_iff, encodeLength_eq_ok_iff,
    mapM_eq_ok_iff, pure, Except.pure, Except.ok.injEq]
  constructor
  · rintro ⟨count, ⟨hBound, rfl⟩, tables, hTables, hBytes⟩
    exact ⟨hBound, tables, hTables, hBytes⟩
  · rintro ⟨hBound, tables, hTables, hBytes⟩
    exact ⟨_, ⟨hBound, rfl⟩, tables, hTables, hBytes⟩

/- A table that is written is its fields behind their size. -/
theorem encodeTable_eq_ok
    {layout : Layout}
    {values : List Value}
    {encoded : EncodedTable}
    (hEncode : encodeTable layout values = .ok encoded) :
    ∃ body,
      encodeFields layout.name layout.fields sizeWidth values =
        .ok (body, encoded.offsets) ∧
      encoded.bytes.IsEntity ∧
      encoded.bytes.drop sizeWidth = body := by
  rw [encodeTable, bind_eq_ok_iff] at hEncode
  rcases hEncode with ⟨⟨body, offsets⟩, hFields, hSeal⟩
  rw [sealTable_eq_ok_iff] at hSeal
  rcases hSeal with ⟨hBound, hBytes, hOffsets⟩
  refine ⟨body, ?_, ?_, ?_⟩
  · rw [hOffsets]
    exact hFields
  · rw [hBytes]
    exact isEntity_size_append hBound
  · rw [hBytes]
    exact drop_size_append _ _

------------------------------------------------------------
-- Fields One after the Other
------------------------------------------------------------

theorem encodeFields_cons
    (table : String)
    (field : Field)
    (fields : List Field)
    (offset : Nat)
    (value : Value)
    (values : List Value) :
    encodeFields table (field :: fields) offset
        (value :: values) = (do
      let bytes ← field.kind.encode table field.name value
      let rest ←
        encodeFields table fields (offset + bytes.length)
          values
      return (bytes ++ rest.1, offset :: rest.2)) :=
  rfl

theorem encodeFields_cons_eq_ok_iff
    {table : String}
    {field : Field}
    {fields : List Field}
    {offset : Nat}
    {value : Value}
    {values : List Value}
    {bytes : Bytes}
    {offsets : List Nat} :
    encodeFields table (field :: fields) offset
        (value :: values) = .ok (bytes, offsets) ↔
      ∃ first rest later,
        field.kind.encode table field.name value =
          .ok first ∧
        encodeFields table fields (offset + first.length)
          values = .ok (rest, later) ∧
        bytes = first ++ rest ∧
        offsets = offset :: later := by
  simp only [encodeFields_cons, bind_eq_ok_iff, pure,
    Except.pure]
  constructor
  · rintro ⟨first, hFirst, ⟨rest, later⟩, hRest, hPair⟩
    cases hPair
    exact ⟨first, rest, later, hFirst, hRest, rfl, rfl⟩
  · rintro ⟨first, rest, later, hFirst, hRest, rfl, rfl⟩
    exact ⟨first, hFirst, (rest, later), hRest, rfl⟩

/- Every field that is written starts somewhere. -/
theorem RowFits.length_offsets
    {table : String}
    {fields : List Field}
    {values : List Value}
    {offset : Nat}
    {bytes : Bytes}
    {offsets : List Nat}
    (hFits : RowFits fields values)
    (hEncode :
      encodeFields table fields offset values =
        .ok (bytes, offsets)) :
    offsets.length = values.length := by
  induction fields generalizing values offset bytes offsets with
  | nil =>
      cases hFits
      cases hEncode
      rfl
  | cons field fields ih =>
      cases hFits with
      | cons hValue hValues =>
          rw [encodeFields_cons_eq_ok_iff] at hEncode
          rcases hEncode with
            ⟨first, rest, later, -, hRest, -, rfl⟩
          rw [List.length_cons, List.length_cons,
            ih hValues hRest]

/- Fields are written in front of others as they are alone. -/
theorem RowFits.encodeFields_append
    {fields more : List Field}
    {values others : List Value}
    (table : String)
    (offset : Nat)
    (hFits : RowFits fields values) :
    encodeFields table (fields ++ more) offset
        (values ++ others) = (do
      let front ← encodeFields table fields offset values
      let back ←
        encodeFields table more (offset + front.1.length)
          others
      return (front.1 ++ back.1, front.2 ++ back.2)) := by
  induction fields generalizing values offset with
  | nil =>
      cases hFits
      simp [encodeFields]
  | cons field fields ih =>
      cases hFits with
      | cons hValue hValues =>
          simp only [List.cons_append, encodeFields_cons,
            ih _ hValues, bind_assoc, pure_bind,
            List.append_assoc, List.length_append,
            Nat.add_assoc]

------------------------------------------------------------
-- Reading Back
------------------------------------------------------------

/- What is written for a positive kind is not empty. -/
theorem FieldKind.Fits.encode_ne_nil
    {kind : FieldKind}
    {value : Value}
    {table name : String}
    {bytes : Bytes}
    (hFits : kind.Fits value)
    (hPositive : kind.isPositive)
    (hEncode : kind.encode table name value = .ok bytes) :
    bytes ≠ [] := by
  cases hFits with
  | u8 n =>
      cases hEncode
      exact List.cons_ne_nil _ _
  | u16 n =>
      cases hEncode
      exact List.cons_ne_nil _ _
  | u32 n =>
      cases hEncode
      exact List.cons_ne_nil _ _
  | u64 n =>
      cases hEncode
      exact List.cons_ne_nil _ _
  | @fixed width content hLength =>
      cases hEncode
      intro hNil
      subst hNil hLength
      cases hPositive
  | bytes content =>
      rw [FieldKind.encode, encode_counted_eq_ok_iff]
        at hEncode
      rcases hEncode with ⟨-, rfl⟩
      exact List.cons_ne_nil _ _
  | array hItems =>
      rw [FieldKind.encode, encode_counted_eq_ok_iff]
        at hEncode
      rcases hEncode with ⟨-, rfl⟩
      exact List.cons_ne_nil _ _
  | tables hRows =>
      rw [FieldKind.encode_tables_eq_ok_iff hRows] at hEncode
      rcases hEncode with ⟨-, tables, -, rfl⟩
      exact List.cons_ne_nil _ _
  | entities hItems =>
      rw [FieldKind.encode, encode_counted_eq_ok_iff]
        at hEncode
      rcases hEncode with ⟨-, rfl⟩
      exact List.cons_ne_nil _ _

/- What is read for fields that are there. -/
def presentFields
    (values : List Value)
    (offsets : List Nat) : List ReadField :=
  List.zipWith (fun value offset => ⟨value, some offset⟩)
    values offsets

theorem presentFields_values
    {values : List Value}
    {offsets : List Nat}
    (hLength : offsets.length = values.length) :
    (presentFields values offsets).map (·.value) =
      values := by
  rw [presentFields, List.map_zipWith]
  apply List.ext_getElem
  · simp [hLength]
  · intro i hLeft hRight
    simp

/- Fields that are there are found where they were written. -/
theorem offset?_presentFields
    {values : List Value}
    {offsets : List Nat}
    (layout : Layout)
    (size slot : Nat)
    (hLength : offsets.length = values.length) :
    DecodedTable.offset?
        ⟨layout, presentFields values offsets, size⟩ slot =
      offsets[slot]? := by
  unfold DecodedTable.offset? presentFields
  simp only [List.getElem?_zipWith]
  by_cases hRange : slot < offsets.length
  · have hValue : slot < values.length := by
      omega
    simp [hRange, hValue]
  · have hValue : ¬ slot < values.length := by
      omega
    simp [hRange, hValue]

/- The two words of a number are read back. -/
theorem reads_words
    (table name : String)
    (n : UInt64) :
    Cursor.Reads (FieldKind.read table name .u64)
      (encodeWords n) (.u64 n) := by
  intro position suffix
  have hBound := n.toNat_lt
  have hLow : n.toNat % 0x100000000 < byteSpan 4 :=
    Nat.mod_lt _ (by decide)
  have hHigh : n.toNat / 0x100000000 < byteSpan 4 := by
    show n.toNat / 0x100000000 < 0x100000000
    omega
  have hJoin :
      UInt64.ofNat
          (n.toNat % 0x100000000 +
            0x100000000 * (n.toNat / 0x100000000)) =
        n := by
    rw [Nat.mod_add_div, UInt64.ofNat_toNat]
  have hFirst :=
    Cursor.reads_number table name hLow position
      (LittleEndian.encode 4 (n.toNat / 0x100000000) ++
        suffix)
  have hSecond :=
    Cursor.reads_number table name hHigh (position + 4) suffix
  rw [LittleEndian.length_encode] at hFirst hSecond
  rw [encodeWords, List.append_assoc, FieldKind.read, hFirst,
    ok_bind]
  simp only [hSecond, ok_bind, hJoin, pure, Except.pure,
    List.length_append, LittleEndian.length_encode,
    Nat.add_assoc]

/- The bytes behind a count are read back. -/
theorem reads_bytes
    {content : Bytes}
    (table name : String)
    (hBound : content.length < 0x100000000) :
    Cursor.Reads (FieldKind.read table name .bytes)
      (LittleEndian.encode 4 content.length ++ content)
      (.bytes content) := by
  have hTake :
      Cursor.Reads (Cursor.take table name content.length)
        content content :=
    Cursor.reads_take table name rfl
  exact Cursor.reads_counted table name
    (fun n cursor => do
      let found ← cursor.take table name n
      return (Value.bytes found.1, found.2))
    hBound (Nat.le_of_eq (Nat.mul_one _))
    (hTake.map Value.bytes)

/- Items of a width that is not zero are read back. -/
theorem reads_array
    {width : Nat}
    {items : List Bytes}
    (table name : String)
    (hWidth : ¬ width = 0)
    (hItems : ∀ item ∈ items, item.length = width)
    (hBound : items.length < 0x100000000) :
    Cursor.Reads (FieldKind.read table name (.array width))
      (LittleEndian.encode 4 items.length ++ items.flatten)
      (.array items) := by
  have hLength := length_flatten_of_width hItems
  have hTake :=
    (Cursor.reads_take table name hLength).map fun bytes =>
      Value.array (bytes.chunks width items.length)
  rw [Bytes.chunks_flatten hItems] at hTake
  intro position suffix
  rw [FieldKind.read, if_neg hWidth]
  exact Cursor.reads_counted table name
    (fun n cursor => do
      let found ← cursor.take table name (n * width)
      return (Value.array (found.1.chunks width n), found.2))
    hBound (Nat.le_of_eq hLength.symm) hTake position suffix

/- Entities are read back, each by the size it declares. -/
theorem reads_entities
    {items : List Bytes}
    (table name : String)
    (hItems : ∀ item ∈ items, item.IsEntity)
    (hBound : items.length < 0x100000000) :
    Cursor.Reads (FieldKind.read table name .entities)
      (LittleEndian.encode 4 items.length ++ items.flatten)
      (.entities items) := by
  have hEach :
      List.Forall₂
        (fun item piece =>
          Cursor.Reads (readEntity table name) piece item)
        items items := by
    rw [List.forall₂_same]
    intro item hMem
    exact reads_entity table name (hItems item hMem)
  exact Cursor.reads_counted table name
    (fun n cursor => do
      let found ← cursor.times (readEntity table name) n
      return (Value.entities found.1, found.2))
    hBound (sizeWidth_mul_le_length_flatten hItems)
    ((Cursor.reads_times hEach).map Value.entities)

theorem encodeRow_isEntity
    {name : String}
    {fields : List Field}
    {row : List Value}
    {piece : Bytes}
    (hEncode : encodeRow name fields row = .ok piece) :
    piece.IsEntity := by
  rw [encodeRow, bind_eq_ok_iff] at hEncode
  rcases hEncode with ⟨encoded, hTable, hPure⟩
  cases hPure
  rcases encodeTable_eq_ok hTable with ⟨body, -, hEntity, -⟩
  exact hEntity

/- A nested table is read as some values if its fields are. -/
theorem reads_row
    {name name' : String}
    {written read : List Field}
    {row found : List Value}
    {piece : Bytes}
    (hRead :
      ∀ body offsets,
        encodeFields name written sizeWidth row =
          .ok (body, offsets) →
        ∃ fields,
          readFields name' read ⟨sizeWidth, body⟩ =
            .ok fields ∧
          fields.map (·.value) = found)
    (hEncode : encodeRow name written row = .ok piece) :
    Cursor.Reads (readNested name' (readFields name' read))
      piece found := by
  rw [encodeRow, bind_eq_ok_iff] at hEncode
  rcases hEncode with ⟨encoded, hTable, hPure⟩
  cases hPure
  rcases encodeTable_eq_ok hTable with
    ⟨body, hFields, hEntity, hBody⟩
  rcases hRead body encoded.offsets hFields with
    ⟨fields, hFound, hValues⟩
  rw [← hBody] at hFound
  rw [← hValues]
  exact reads_nested name' hEntity hFound

/- Nested tables are read one by one, each as its own values. -/
theorem reads_tables
    {name : String}
    {written read : List Field}
    {rows : List (List Value)}
    {tables : List Bytes}
    (table' name' : String)
    (found : List Value → List Value)
    (hTables :
      List.Forall₂
        (fun row piece =>
          encodeRow name written row = .ok piece)
        rows tables)
    (hReads :
      ∀ row ∈ rows, ∀ piece,
        encodeRow name written row = .ok piece →
        Cursor.Reads
          (readNested name' (readFields name' read))
          piece (found row))
    (hBound : rows.length < 0x100000000) :
    Cursor.Reads
      (FieldKind.read table' name' (.tables read))
      (LittleEndian.encode 4 rows.length ++ tables.flatten)
      (.tables (rows.map found)) := by
  have hEach :
      List.Forall₂
        (fun values piece =>
          Cursor.Reads
            (readNested name' (readFields name' read))
            piece values)
        (rows.map found) tables := by
    have hBoth :=
      (List.forall₂_and_left _ _).mpr ⟨hReads, hTables⟩
    rw [List.forall₂_map_left_iff]
    exact hBoth.imp fun row piece h => h.1 _ h.2
  have hEntities : ∀ piece ∈ tables, piece.IsEntity :=
    forall_mem_of_forall₂ hTables
      fun row piece => encodeRow_isEntity
  have hEnough := sizeWidth_mul_le_length_flatten hEntities
  have hTimes := Cursor.reads_times hEach
  rw [List.length_map] at hTimes
  rw [← hTables.length_eq] at hEnough
  exact Cursor.reads_counted table' name'
    (fun n cursor => do
      let found ←
        cursor.times
          (readNested name' (readFields name' read)) n
      return (Value.tables found.1, found.2))
    hBound hEnough (hTimes.map Value.tables)

mutual

/-
  A value of a positive kind is read back from what is written
  for it.  The names in error messages play no part.
-/
theorem FieldKind.Fits.reads_encode
    {kind : FieldKind}
    {value : Value}
    {table name : String}
    {bytes : Bytes}
    (table' name' : String)
    (hFits : kind.Fits value)
    (hPositive : kind.isPositive)
    (hEncode : kind.encode table name value = .ok bytes) :
    Cursor.Reads (kind.read table' name') bytes value := by
  match hFits with
  | .u8 n =>
      cases hEncode
      have hReads :=
        (Cursor.reads_byte table' name' n).map fun n =>
          Value.u8 (UInt8.ofNat n)
      rw [UInt8.ofNat_toNat] at hReads
      exact hReads
  | .u16 n =>
      cases hEncode
      have hBound : n.toNat < byteSpan 2 := n.toNat_lt
      have hReads :=
        (Cursor.reads_number table' name' hBound).map fun n =>
          Value.u16 (UInt16.ofNat n)
      rw [UInt16.ofNat_toNat] at hReads
      exact hReads
  | .u32 n =>
      cases hEncode
      have hBound : n.toNat < byteSpan 4 := n.toNat_lt
      have hReads :=
        (Cursor.reads_number table' name' hBound).map fun n =>
          Value.u32 (UInt32.ofNat n)
      rw [UInt32.ofNat_toNat] at hReads
      exact hReads
  | .u64 n =>
      cases hEncode
      exact reads_words table' name' n
  | .fixed hLength =>
      cases hEncode
      exact (Cursor.reads_take table' name' hLength).map
        Value.fixed
  | .bytes content =>
      rw [FieldKind.encode, encode_counted_eq_ok_iff]
        at hEncode
      rcases hEncode with ⟨hBound, rfl⟩
      exact reads_bytes table' name' hBound
  | @FieldKind.Fits.array width items hItems =>
      rw [FieldKind.encode, encode_counted_eq_ok_iff]
        at hEncode
      rcases hEncode with ⟨hBound, rfl⟩
      have hWidth : ¬ width = 0 := by
        simpa [FieldKind.isPositive] using hPositive
      exact reads_array table' name' hWidth hItems hBound
  | @FieldKind.Fits.tables fields rows hRows =>
      rw [FieldKind.encode_tables_eq_ok_iff hRows] at hEncode
      rcases hEncode with ⟨hBound, tables, hTables, rfl⟩
      rw [← List.map_id rows, List.length_map]
      apply reads_tables table' name' id hTables _ hBound
      intro row hMem piece
      apply reads_row
      intro body offsets hBody
      have hFields :=
        RowFits.readFields_encode name' (hRows row hMem)
          hPositive hBody [] []
      refine ⟨presentFields row offsets, ?_, ?_⟩
      · simpa [readFields] using hFields
      · exact presentFields_values
          ((hRows row hMem).length_offsets hBody)
  | .entities hItems =>
      rw [FieldKind.encode, encode_counted_eq_ok_iff]
        at hEncode
      rcases hEncode with ⟨hBound, rfl⟩
      exact reads_entities table' name' hItems hBound
  termination_by structural hFits

/-
  Fields are read back from what is written for them, and the
  fields after them from what follows.
-/
theorem RowFits.readFields_encode
    {fields : List Field}
    {values : List Value}
    {table : String}
    {offset : Nat}
    {bytes : Bytes}
    {offsets : List Nat}
    (table' : String)
    (hFits : RowFits fields values)
    (hPositive : arePositive fields)
    (hEncode :
      encodeFields table fields offset values =
        .ok (bytes, offsets))
    (more : List Field)
    (suffix : Bytes) :
    readFields table' (fields ++ more)
        ⟨offset, bytes ++ suffix⟩ = (do
      let rest ←
        readFields table' more
          ⟨offset + bytes.length, suffix⟩
      return presentFields values offsets ++ rest) := by
  match hFits with
  | .nil =>
      cases hEncode
      simp [presentFields]
  | @RowFits.cons ⟨name, kind⟩ _ _ _ hValue hValues =>
      rw [encodeFields_cons_eq_ok_iff] at hEncode
      rcases hEncode with
        ⟨first, rest, later, hFirst, hRest, rfl, rfl⟩
      rw [arePositive, Bool.and_eq_true] at hPositive
      have hRead :=
        FieldKind.Fits.reads_encode table' name hValue
          hPositive.1 hFirst offset (rest ++ suffix)
      have hMore :=
        RowFits.readFields_encode table' hValues hPositive.2
          hRest more suffix
      have hNonempty :=
        hValue.encode_ne_nil hPositive.1 hFirst
      have hFound :
          (first ++ (rest ++ suffix)).isEmpty = false := by
        simp [hNonempty]
      rw [List.cons_append, List.append_assoc, readFields]
      simp only [hFound, hRead, Bool.false_eq_true, if_false,
        ok_bind, hMore, bind_assoc, pure_bind,
        List.length_append, ← Nat.add_assoc]
      rfl
  termination_by structural hFits

end

/- A buffer of one table is read from behind its size. -/
theorem Bytes.IsEntity.readTable_eq
    {buffer : Bytes}
    (hEntity : buffer.IsEntity)
    (layout : Layout) :
    readTable layout buffer = (do
      let fields ←
        readFields layout.name layout.fields
          ⟨sizeWidth, buffer.drop sizeWidth⟩
      return {
        layout := layout
        fields := fields
        size := buffer.length }) := by
  have hSize :=
    hEntity.readSize_append layout.name "size" []
  have hStart := Bytes.IsEntity.start_append buffer []
  rw [List.append_nil] at hSize hStart
  rw [readTable, hSize, ok_bind, hStart]

/- What follows a table in a buffer plays no part. -/
theorem Bytes.IsEntity.readTable_append
    {buffer : Bytes}
    (hEntity : buffer.IsEntity)
    (layout : Layout)
    (suffix : Bytes) :
    readTable layout (buffer ++ suffix) =
      readTable layout buffer := by
  rw [hEntity.readTable_eq, readTable,
    hEntity.readSize_append, ok_bind,
    Bytes.IsEntity.start_append]

/-
  The first fields of a table are read from the bytes that
  are written for them, under any names.
-/
theorem RowFits.readTable_front
    {layout : Layout}
    {fields more : List Field}
    {values : List Value}
    {name : String}
    {buffer front rest : Bytes}
    {offsets : List Nat}
    (hFits : RowFits fields values)
    (hPositive : arePositive fields)
    (hLayout : layout.fields = fields ++ more)
    (hEncode :
      encodeFields name fields sizeWidth values =
        .ok (front, offsets))
    (hEntity : buffer.IsEntity)
    (hBuffer : buffer.drop sizeWidth = front ++ rest) :
    readTable layout buffer = (do
      let later ←
        readFields layout.name more
          ⟨sizeWidth + front.length, rest⟩
      return {
        layout := layout
        fields := presentFields values offsets ++ later
        size := buffer.length }) := by
  rw [hEntity.readTable_eq, hBuffer, hLayout,
    hFits.readFields_encode layout.name hPositive hEncode,
    bind_assoc]
  simp only [pure_bind]

/-
  A layout that has only the first of the fields that were
  written reads the values of those.
-/
theorem RowFits.readTable_record
    {more : List Field}
    {values others : List Value}
    {name : String}
    {buffer front rest : Bytes}
    {offsets : List Nat}
    (layout : Layout)
    (hFits : RowFits layout.fields values)
    (hPositive : arePositive layout.fields)
    (hEncode :
      encodeFields name (layout.fields ++ more) sizeWidth
          (values ++ others) =
        .ok (front, offsets))
    (hEntity : buffer.IsEntity)
    (hBuffer : buffer.drop sizeWidth = front ++ rest) :
    ∃ table,
      readTable layout buffer = .ok table ∧
      table.size = buffer.length ∧
      table.record = ⟨layout.name, layout.fields, values⟩ := by
  rw [hFits.encodeFields_append, bind_eq_ok_iff] at hEncode
  rcases hEncode with ⟨⟨first, starts⟩, hFirst, hRest⟩
  rw [bind_eq_ok_iff] at hRest
  rcases hRest with ⟨⟨second, later⟩, -, hPure⟩
  cases hPure
  rw [List.append_assoc] at hBuffer
  have hLength := hFits.length_offsets hFirst
  refine
    ⟨⟨layout, presentFields values starts, buffer.length⟩,
      ?_, rfl, ?_⟩
  · rw [hFits.readTable_front hPositive
      (List.append_nil _).symm hFirst hEntity hBuffer]
    simp [readFields, pure, Except.pure]
  · simp [DecodedTable.record, DecodedTable.values,
      presentFields_values hLength]

/- A layout reads all the values that were written with it. -/
theorem RowFits.readTable_all
    {values : List Value}
    {name : String}
    {buffer front rest : Bytes}
    {offsets : List Nat}
    (layout : Layout)
    (hFits : RowFits layout.fields values)
    (hPositive : arePositive layout.fields)
    (hEncode :
      encodeFields name layout.fields sizeWidth values =
        .ok (front, offsets))
    (hEntity : buffer.IsEntity)
    (hBuffer : buffer.drop sizeWidth = front ++ rest) :
    ∃ table,
      readTable layout buffer = .ok table ∧
      table.size = buffer.length ∧
      table.record = ⟨layout.name, layout.fields, values⟩ := by
  have hAll :
      encodeFields name (layout.fields ++ []) sizeWidth
          (values ++ []) =
        .ok (front, offsets) := by
    rw [List.append_nil, List.append_nil]
    exact hEncode
  exact hFits.readTable_record layout hPositive hAll hEntity
    hBuffer

/- A whole table is read back, whatever follows it. -/
theorem RowFits.readTable_of_encodeTable
    {layout : Layout}
    {values : List Value}
    {encoded : EncodedTable}
    (hFits : RowFits layout.fields values)
    (hPositive : arePositive layout.fields)
    (hEncode : encodeTable layout values = .ok encoded)
    (suffix : Bytes) :
    readTable layout (encoded.bytes ++ suffix) =
      .ok {
        layout := layout
        fields := presentFields values encoded.offsets
        size := encoded.bytes.length } := by
  rcases encodeTable_eq_ok hEncode with
    ⟨body, hFields, hEntity, hBody⟩
  rw [← List.append_nil body] at hBody
  rw [hEntity.readTable_append,
    hFits.readTable_front hPositive
      (List.append_nil _).symm hFields hEntity hBody]
  simp [readFields, pure, Except.pure]

end DriveMarket
