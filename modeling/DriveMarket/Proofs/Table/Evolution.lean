import DriveMarket.Proofs.Table.Writing

/-
  Tables between a writer and a reader of other versions.

  A layout grows by fields at the end of its body, and so do
  the rows of nested tables at any depth.  A reader takes the
  fields that it knows as far as they were written.  What it
  does not know is skipped, in a row by the row's own size,
  and what was not written has its default.

  Reading needs less than that one layout extends the other:
  it is enough that fields at the same place agree, and any
  row may be longer on either side.

  Key definitions include:
    * `FieldKind.Extends`
    * `Layout.Extends`
    * `FieldKind.Agrees`
    * `FieldKind.adapt`
    * `adaptRow`

  Correctness is proven by:
    * `FieldKind.Fits.adapt_eq`
    * `RowFits.readFields_adapted`
    * `RowFits.readTable_adapted`
    * `Layout.Extends.readTable_across_versions`
-/

namespace DriveMarket

------------------------------------------------------------
-- Growing Layouts
------------------------------------------------------------

mutual

/-
  A newer kind is the same kind, or rows that have grown.
  Names play no part in what is written.
-/
inductive FieldKind.Extends :
    FieldKind → FieldKind → Prop where
  | same (kind : FieldKind) : FieldKind.Extends kind kind
  | tables
      {new old : List Field}
      (hFields : FieldsExtend new old) :
      FieldKind.Extends (.tables new) (.tables old)

/- Newer fields are the older ones with others behind them. -/
inductive FieldsExtend :
    List Field → List Field → Prop where
  | appended (fields : List Field) : FieldsExtend fields []
  | field
      {new old : Field}
      {news olds : List Field}
      (hKind : FieldKind.Extends new.kind old.kind)
      (hFields : FieldsExtend news olds) :
      FieldsExtend (new :: news) (old :: olds)

end

/- Fields in front of others grow at most within themselves. -/
theorem FieldsExtend.append
    {newFront oldFront new old : List Field}
    (hFront :
      List.Forall₂
        (fun n o : Field => n.kind.Extends o.kind)
        newFront oldFront)
    (hFields : FieldsExtend new old) :
    FieldsExtend (newFront ++ new) (oldFront ++ old) := by
  induction hFront with
  | nil => exact hFields
  | cons hKind _ ih => exact .field hKind ih

theorem FieldsExtend.length_le
    {new old : List Field}
    (hExtends : FieldsExtend new old) :
    old.length ≤ new.length := by
  induction old generalizing new with
  | nil => exact Nat.zero_le _
  | cons field olds ih =>
      cases hExtends with
      | field hKind hFields =>
          exact Nat.succ_le_succ (ih hFields)

/-
  A newer layout has the header of the older one and a body
  that has grown.
-/
structure Layout.Extends
    (new old : Layout) : Prop where
  header :
    List.Forall₂
      (fun n o : Field => n.kind.Extends o.kind)
      new.header old.header
  body : FieldsExtend new.body old.body

theorem Layout.Extends.fields
    {new old : Layout}
    (hExtends : new.Extends old) :
    FieldsExtend new.fields old.fields :=
  .append hExtends.header hExtends.body

------------------------------------------------------------
-- Fields That Agree
------------------------------------------------------------

mutual

/- Values of one kind can be read with the other. -/
inductive FieldKind.Agrees :
    FieldKind → FieldKind → Prop where
  | same (kind : FieldKind) : FieldKind.Agrees kind kind
  | tables
      {written read : List Field}
      (hFields : FieldsAgree written read) :
      FieldKind.Agrees (.tables written) (.tables read)

/- Fields agree as far as there are some on both sides. -/
inductive FieldsAgree :
    List Field → List Field → Prop where
  | skipped (written : List Field) : FieldsAgree written []
  | absent (read : List Field) : FieldsAgree [] read
  | field
      {w r : Field}
      {written read : List Field}
      (hKind : FieldKind.Agrees w.kind r.kind)
      (hFields : FieldsAgree written read) :
      FieldsAgree (w :: written) (r :: read)

end

mutual

/- What a newer writer wrote can be read by an older reader. -/
theorem FieldKind.Extends.agrees
    {new old : FieldKind}
    (hExtends : new.Extends old) :
    new.Agrees old := by
  match hExtends with
  | .same kind => exact .same kind
  | .tables hFields => exact .tables hFields.agree
  termination_by structural hExtends

theorem FieldsExtend.agree
    {new old : List Field}
    (hExtends : FieldsExtend new old) :
    FieldsAgree new old := by
  match hExtends with
  | .appended fields => exact .skipped fields
  | .field hKind hFields =>
      exact .field hKind.agrees hFields.agree
  termination_by structural hExtends

end

mutual

/- And what an older writer wrote, by a newer reader. -/
theorem FieldKind.Extends.agrees_back
    {new old : FieldKind}
    (hExtends : new.Extends old) :
    old.Agrees new := by
  match hExtends with
  | .same kind => exact .same kind
  | .tables hFields => exact .tables hFields.agree_back
  termination_by structural hExtends

theorem FieldsExtend.agree_back
    {new old : List Field}
    (hExtends : FieldsExtend new old) :
    FieldsAgree old new := by
  match hExtends with
  | .appended fields => exact .absent fields
  | .field hKind hFields =>
      exact .field hKind.agrees_back hFields.agree_back
  termination_by structural hExtends

end

------------------------------------------------------------
-- Values as a Reader Takes Them
------------------------------------------------------------

mutual

/- A value as a field of some kind takes it: row by row. -/
def FieldKind.adapt : FieldKind → Value → Value
  | .tables fields, .tables rows =>
      .tables (rows.map fun row => adaptRow fields row)
  | _, value => value
  termination_by structural kind => kind

/-
  A row as the given fields take it: values beyond the last
  field are left out, and fields beyond the last value are at
  their defaults.
-/
def adaptRow : List Field → List Value → List Value
  | [], _ => []
  | ⟨_, kind⟩ :: fields, [] =>
      kind.default :: adaptRow fields []
  | ⟨_, kind⟩ :: fields, value :: values =>
      kind.adapt value :: adaptRow fields values
  termination_by structural fields => fields

end

theorem adaptRow_nil
    (fields : List Field) :
    adaptRow fields [] = fields.map (·.kind.default) := by
  induction fields with
  | nil => rfl
  | cons field fields ih =>
      rw [adaptRow, ih, List.map_cons]

/- What is at a slot, by whether it was written. -/
theorem getElem?_adaptRow
    {fields : List Field}
    {field : Field}
    {slot : Nat}
    (values : List Value)
    (hField : fields[slot]? = some field) :
    (adaptRow fields values)[slot]? =
      some
        ((values[slot]?.map field.kind.adapt).getD
          field.kind.default) := by
  induction fields generalizing values slot with
  | nil => cases hField
  | cons head fields ih =>
      cases values with
      | nil =>
          rw [adaptRow_nil, List.getElem?_map, hField]
          rfl
      | cons value values =>
          cases slot with
          | zero =>
              cases hField
              rfl
          | succ slot => exact ih values hField

mutual

/- A field takes the values that fit it as they are. -/
theorem FieldKind.Fits.adapt_eq
    {kind : FieldKind}
    {value : Value}
    (hFits : kind.Fits value) :
    kind.adapt value = value := by
  match hFits with
  | .u8 _ => rfl
  | .u16 _ => rfl
  | .u32 _ => rfl
  | .u64 _ => rfl
  | .fixed _ => rfl
  | .bytes _ => rfl
  | .array _ => rfl
  | .entities _ => rfl
  | @FieldKind.Fits.tables fields rows hRows =>
      have hSame :
          rows.map (fun row => adaptRow fields row) = rows :=
        (List.map_congr_left fun row hMem =>
          RowFits.adaptRow_eq (hRows row hMem)).trans
            (List.map_id' rows)
      rw [FieldKind.adapt, hSame]
  termination_by structural hFits

theorem RowFits.adaptRow_eq
    {fields : List Field}
    {values : List Value}
    (hFits : RowFits fields values) :
    adaptRow fields values = values := by
  match hFits with
  | .nil => rfl
  | .cons hValue hValues =>
      rw [adaptRow, FieldKind.Fits.adapt_eq hValue,
        RowFits.adaptRow_eq hValues]
  termination_by structural hFits

end

------------------------------------------------------------
-- Reading
------------------------------------------------------------

/-
  What is found in the place of a row: its values as the
  reader's fields take them, and for each field where it was
  written, if it was.
-/
structure Adapted
    (read : List Field)
    (values : List Value)
    (offsets : List Nat)
    (found : List ReadField) : Prop where
  values :
    found.map (·.value) = adaptRow read values
  offsets :
    found.map (·.offset) =
      (List.range read.length).map (offsets[·]?)

theorem Adapted.absent
    (read : List Field) :
    Adapted read [] []
      (read.map fun field =>
        ⟨field.kind.default, none⟩) := by
  constructor
  · rw [adaptRow_nil, List.map_map]
    rfl
  · simp [Function.comp_def]

theorem Adapted.cons
    {field : Field}
    {read : List Field}
    {value : Value}
    {values : List Value}
    {offset : Nat}
    {offsets : List Nat}
    {found : List ReadField}
    (hAdapted : Adapted read values offsets found) :
    Adapted (field :: read) (value :: values)
      (offset :: offsets)
      (⟨field.kind.adapt value, some offset⟩ :: found) := by
  constructor
  · rw [List.map_cons, hAdapted.values, adaptRow]
  · rw [List.map_cons, hAdapted.offsets, List.length_cons,
      List.range_succ_eq_map, List.map_cons, List.map_map]
    rfl

mutual

/-
  A value is read under a kind that agrees with its own as
  that kind takes it.
-/
theorem FieldKind.Fits.reads_adapted
    {written read : FieldKind}
    {value : Value}
    {table name : String}
    {bytes : Bytes}
    (table' name' : String)
    (hFits : written.Fits value)
    (hAgrees : written.Agrees read)
    (hPositive : written.isPositive)
    (hEncode : written.encode table name value = .ok bytes) :
    Cursor.Reads (read.read table' name') bytes
      (read.adapt value) := by
  match hAgrees with
  | .same _ =>
      rw [hFits.adapt_eq]
      exact hFits.reads_encode table' name' hPositive hEncode
  | .tables hFields =>
      cases hFits with
      | tables hRows =>
          rw [FieldKind.encode_tables_eq_ok_iff hRows]
            at hEncode
          rcases hEncode with ⟨hBound, tables, hTables, rfl⟩
          apply reads_tables table' name' _ hTables _ hBound
          intro row hMem piece
          apply reads_row
          intro body offsets hBody
          rcases RowFits.readFields_adapted name'
              (hRows row hMem) hFields hPositive hBody with
            ⟨found, hFound, hAdapted⟩
          exact ⟨found, hFound, hAdapted.values⟩
  termination_by structural hAgrees

/- So are the fields of a row, as far as they go. -/
theorem RowFits.readFields_adapted
    {written read : List Field}
    {values : List Value}
    {table : String}
    {offset : Nat}
    {bytes : Bytes}
    {offsets : List Nat}
    (table' : String)
    (hFits : RowFits written values)
    (hAgree : FieldsAgree written read)
    (hPositive : arePositive written)
    (hEncode :
      encodeFields table written offset values =
        .ok (bytes, offsets)) :
    ∃ found,
      readFields table' read ⟨offset, bytes⟩ = .ok found ∧
        Adapted read values offsets found := by
  match hAgree with
  | .skipped _ => exact ⟨[], rfl, rfl, rfl⟩
  | .absent read =>
      cases hFits
      cases hEncode
      exact ⟨_, readFields_nil table' read offset, .absent read⟩
  | @FieldsAgree.field w r _ read hKind hFields =>
      cases hFits with
      | cons hValue hValues =>
          rw [encodeFields_cons_eq_ok_iff] at hEncode
          rcases hEncode with
            ⟨first, rest, later, hFirst, hRest, rfl, rfl⟩
          rw [arePositive, Bool.and_eq_true] at hPositive
          have hRead :=
            FieldKind.Fits.reads_adapted table' r.name hValue
              hKind hPositive.1 hFirst offset rest
          rcases RowFits.readFields_adapted table' hValues
              hFields hPositive.2 hRest with
            ⟨found, hFound, hAdapted⟩
          have hThere : (first ++ rest).isEmpty = false := by
            simp [hValue.encode_ne_nil hPositive.1 hFirst]
          refine ⟨_, ?_, hAdapted.cons⟩
          rw [readFields]
          simp only [hThere, hRead, Bool.false_eq_true,
            if_false, ok_bind, hFound]
          rfl
  termination_by structural hAgree

end

/- A whole table is read by a layout that agrees with its own. -/
theorem RowFits.readTable_adapted
    {written : Layout}
    {values : List Value}
    {encoded : EncodedTable}
    (read : Layout)
    (suffix : Bytes)
    (hFits : RowFits written.fields values)
    (hAgree : FieldsAgree written.fields read.fields)
    (hPositive : arePositive written.fields)
    (hEncode : encodeTable written values = .ok encoded) :
    ∃ found,
      readTable read (encoded.bytes ++ suffix) =
        .ok ⟨read, found, encoded.bytes.length⟩ ∧
      Adapted read.fields values encoded.offsets found := by
  rcases encodeTable_eq_ok hEncode with
    ⟨body, hFields, hEntity, hBody⟩
  rcases hFits.readFields_adapted read.name hAgree hPositive
      hFields with
    ⟨found, hFound, hAdapted⟩
  refine ⟨found, ?_, hAdapted⟩
  rw [hEntity.readTable_append, hEntity.readTable_eq, hBody,
    hFound]
  rfl

------------------------------------------------------------
-- Slots
------------------------------------------------------------

namespace Adapted

variable {read : Layout}
variable {values : List Value}
variable {offsets : List Nat}
variable {found : List ReadField}
variable {slot : Nat}
variable {field : Field}

theorem length_eq
    (hAdapted : Adapted read.fields values offsets found) :
    found.length = read.fieldCount := by
  have hCount := congrArg List.length hAdapted.offsets
  rwa [List.length_map, List.length_map, List.length_range]
    at hCount

theorem getElem?_values
    (size : Nat)
    (hAdapted : Adapted read.fields values offsets found)
    (hField : read.field? slot = some field) :
    (DecodedTable.mk read found size).values[slot]? =
      some
        ((values[slot]?.map field.kind.adapt).getD
          field.kind.default) := by
  rw [DecodedTable.values, hAdapted.values]
  exact getElem?_adaptRow values hField

theorem offset?_eq
    (size : Nat)
    (hAdapted : Adapted read.fields values offsets found)
    (hField : read.field? slot = some field) :
    (DecodedTable.mk read found size).offset? slot =
      offsets[slot]? := by
  have hRange : slot < read.fields.length :=
    (List.getElem?_eq_some_iff.mp hField).1
  have hAt := congrArg (·[slot]?.bind id) hAdapted.offsets
  simp only [List.getElem?_map, Option.bind_map,
    List.getElem?_range hRange, Option.map_some,
    Option.bind_some] at hAt
  exact hAt

end Adapted

------------------------------------------------------------
-- Versions
------------------------------------------------------------

/-
  A slot was read where it was written, with the value that
  was written as the reader's field takes it.
-/
def DecodedTable.HasWritten
    (table : DecodedTable)
    (values : List Value)
    (offsets : List Nat)
    (slot : Nat)
    (field : Field) : Prop :=
  ∃ value,
    values[slot]? = some value ∧
    table.values[slot]? = some (field.kind.adapt value) ∧
    table.isPresent slot ∧
    table.offset? slot = offsets[slot]?

/-
  Between layouts that agree, a reader finds what was written
  in its slots, and the other slots absent.
-/
theorem FieldsAgree.readTable_finish_adapted
    {written read : Layout}
    {calls : List TableWriter.Call}
    {encoded : EncodedTable}
    (suffix : Bytes)
    (hAgree : FieldsAgree written.fields read.fields)
    (hPositive : arePositive written.fields)
    (hFinish :
      ((TableWriter.empty written).after calls).finish =
        .ok encoded) :
    ∃ table,
      readTable read (encoded.bytes ++ suffix) = .ok table ∧
      table.size = encoded.bytes.length ∧
      table.fields.length = read.fieldCount ∧
      ∀ slot field,
        read.field? slot = some field →
        (slot < written.fieldCount →
          table.HasWritten
            ((TableWriter.empty written).after calls).filled
            encoded.offsets slot field) ∧
        (written.fieldCount ≤ slot →
          table.values[slot]? = some field.kind.default ∧
            table.isPresent slot = false) := by
  have hWriter :=
    (TableWriter.WellFormed.empty written).after calls
  have hLayout :
      ((TableWriter.empty written).after calls).layout =
        written :=
    TableWriter.layout_after _ calls
  have hFits := hWriter.filled_fits
  rw [hLayout] at hFits
  have hEncode :
      encodeTable written
          ((TableWriter.empty written).after calls).filled =
        .ok encoded := by
    rw [TableWriter.finish, hLayout] at hFinish
    exact hFinish
  rcases hFits.readTable_adapted read suffix hAgree hPositive
      hEncode with
    ⟨found, hRead, hAdapted⟩
  rcases encodeTable_eq_ok hEncode with ⟨body, hBody, -, -⟩
  have hOffsets := hFits.length_offsets hBody
  have hValues := hFits.length_eq
  refine ⟨_, hRead, rfl, hAdapted.length_eq, ?_⟩
  intro slot field hField
  have hValue := hAdapted.getElem?_values
    encoded.bytes.length hField
  have hOffset := hAdapted.offset?_eq
    encoded.bytes.length hField
  unfold Layout.fieldCount
  constructor
  · intro hSlot
    rw [← hValues] at hSlot
    rw [List.getElem?_eq_getElem hSlot] at hValue
    refine ⟨_, List.getElem?_eq_getElem hSlot, hValue, ?_,
      hOffset⟩
    rw [DecodedTable.isPresent, hOffset,
      List.getElem?_eq_getElem (hOffsets ▸ hSlot)]
    rfl
  · intro hSlot
    rw [← hValues] at hSlot
    rw [List.getElem?_eq_none hSlot] at hValue
    refine ⟨hValue, ?_⟩
    rw [DecodedTable.isPresent, hOffset,
      List.getElem?_eq_none (hOffsets ▸ hSlot)]
    rfl

/-
  Layouts may grow without a break.  An older reader finds in
  a newer table all its fields with their values, rows cut to
  the fields that it knows.  A newer reader finds in an older
  table all that was written, rows filled up with defaults,
  and the fields that are new to the body absent and at their
  defaults.
-/
theorem Layout.Extends.readTable_across_versions
    {new old : Layout}
    (hExtends : new.Extends old) :
    (arePositive new.fields →
      ∀ calls encoded suffix,
        ((TableWriter.empty new).after calls).finish =
          .ok encoded →
        ∃ table,
          readTable old (encoded.bytes ++ suffix) =
            .ok table ∧
          table.size = encoded.bytes.length ∧
          table.fields.length = old.fieldCount ∧
          ∀ slot field,
            old.field? slot = some field →
            table.HasWritten
              ((TableWriter.empty new).after calls).filled
              encoded.offsets slot field) ∧
    (arePositive old.fields →
      ∀ calls encoded suffix,
        ((TableWriter.empty old).after calls).finish =
          .ok encoded →
        ∃ table,
          readTable new (encoded.bytes ++ suffix) =
            .ok table ∧
          table.size = encoded.bytes.length ∧
          table.fields.length = new.fieldCount ∧
          ∀ slot field,
            new.field? slot = some field →
            (slot < old.fieldCount →
              table.HasWritten
                ((TableWriter.empty old).after calls).filled
                encoded.offsets slot field) ∧
            (old.fieldCount ≤ slot →
              table.values[slot]? =
                  some field.kind.default ∧
                table.isPresent slot = false)) := by
  have hFields := hExtends.fields
  constructor
  · intro hPositive calls encoded suffix hFinish
    rcases hFields.agree.readTable_finish_adapted suffix
        hPositive hFinish with
      ⟨table, hRead, hSize, hLength, hSlots⟩
    refine ⟨table, hRead, hSize, hLength, ?_⟩
    intro slot field hField
    have hKnown : slot < old.fields.length :=
      (List.getElem?_eq_some_iff.mp hField).1
    exact (hSlots slot field hField).1
      (Nat.lt_of_lt_of_le hKnown hFields.length_le)
  · intro hPositive calls encoded suffix hFinish
    exact hFields.agree_back.readTable_finish_adapted suffix
      hPositive hFinish

/-
  Rows grow inside rows and the body grows as well.  What the
  new layout writes is cut for the old one; what the old one
  writes is filled up for the new one.
-/
theorem Layout.Extends.readTable_across_versions_nested :
    let header : List Field := [⟨"version", .u16⟩]
    let old : Layout := {
      name := "Order"
      header := header
      body :=
        [⟨"rows", .tables
          [⟨"items", .tables [⟨"key", .fixed 2⟩]⟩]⟩] }
    let new : Layout := {
      name := "Order"
      header := header
      body :=
        [⟨"rows", .tables
          [⟨"items", .tables
            [⟨"key", .fixed 2⟩, ⟨"count", .u8⟩]⟩,
            ⟨"tag", .u8⟩]⟩,
          ⟨"note", .bytes⟩] }
    let newRows : Value :=
      .tables [[.tables [[.fixed [1, 2], .u8 3]], .u8 7]]
    let oldRows : Value :=
      .tables [[.tables [[.fixed [1, 2]]]]]
    let filledRows : Value :=
      .tables [[.tables [[.fixed [1, 2], .u8 0]], .u8 0]]
    new.Extends old ∧
    arePositive new.fields ∧
    arePositive old.fields ∧
    (∃ encoded table,
      ((TableWriter.empty new).after
        [.set 1 newRows, .set 2 (.bytes [9])]).finish =
          .ok encoded ∧
      readTable old (encoded.bytes ++ [1]) = .ok table ∧
      table.values[1]? = some oldRows) ∧
    ∃ encoded table,
      ((TableWriter.empty old).after
        [.set 1 oldRows]).finish = .ok encoded ∧
      readTable new (encoded.bytes ++ [1]) = .ok table ∧
      table.values[1]? = some filledRows ∧
      table.values[2]? = some (.bytes []) ∧
      table.isPresent 2 = false := by
  intro header old new newRows oldRows filledRows
  have hExtends : new.Extends old := by
    refine ⟨.cons (.same _) .nil, .field (.tables ?_) ?_⟩
    · refine .field (.tables ?_) (.appended _)
      exact .field (.same _) (.appended _)
    · exact .appended _
  have hNew : arePositive new.fields := by
    decide
  have hOld : arePositive old.fields := by
    decide
  rcases hExtends.readTable_across_versions with
    ⟨hForward, hBackward⟩
  refine ⟨hExtends, hNew, hOld, ?_, ?_⟩
  · have hFinish :
        ∃ encoded,
          ((TableWriter.empty new).after
            [.set 1 newRows, .set 2 (.bytes [9])]).finish =
              .ok encoded :=
      exists_eq_ok (by decide +kernel)
    rcases hFinish with ⟨encoded, hEncoded⟩
    rcases hForward hNew _ encoded [1] hEncoded with
      ⟨table, hRead, -, -, hSlots⟩
    rcases hSlots 1 _ rfl with ⟨value, hWritten, hFound, -⟩
    cases hWritten
    exact ⟨encoded, table, hEncoded, hRead, hFound⟩
  · have hFinish :
        ∃ encoded,
          ((TableWriter.empty old).after
            [.set 1 oldRows]).finish = .ok encoded :=
      exists_eq_ok (by decide +kernel)
    rcases hFinish with ⟨encoded, hEncoded⟩
    rcases hBackward hOld _ encoded [1] hEncoded with
      ⟨table, hRead, -, -, hSlots⟩
    rcases (hSlots 1 _ rfl).1 (by decide) with
      ⟨value, hWritten, hFound, -⟩
    cases hWritten
    have hAbsent := (hSlots 2 _ rfl).2 (by decide)
    exact ⟨encoded, table, hEncoded, hRead, hFound,
      hAbsent.1, hAbsent.2⟩

end DriveMarket
