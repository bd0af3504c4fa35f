import DriveMarket.Proofs.Results
import DriveMarket.Table.Reader
import DriveMarket.Table.Writer

/-
  Which values fit which fields.

  A writer takes exactly what fits.  Setting all fields of a
  table in order to values that fit them leaves exactly those
  values to be written.

  Key definitions include:
    * `Bytes.IsEntity`
    * `FieldKind.Fits`
    * `RowFits`
    * `FieldKind.isPositive`

  Correctness is proven by:
    * `FieldKind.check_eq_ok_iff`
    * `TableWriter.set_eq_ok_iff`
    * `TableWriter.setFrom_empty`
    * `TableWriter.filled_of_all_set`
-/

namespace DriveMarket

------------------------------------------------------------
-- Fitting Values
------------------------------------------------------------

/- Bytes whose size prefix counts exactly them. -/
def Bytes.IsEntity
    (bytes : Bytes) : Prop :=
  sizeWidth ≤ bytes.length ∧
    declaredSize bytes = bytes.length

mutual

/- A value is of the shape that a field kind asks for. -/
inductive FieldKind.Fits : FieldKind → Value → Prop where
  | u8 (n : UInt8) : FieldKind.Fits .u8 (.u8 n)
  | u16 (n : UInt16) : FieldKind.Fits .u16 (.u16 n)
  | u32 (n : UInt32) : FieldKind.Fits .u32 (.u32 n)
  | u64 (n : UInt64) : FieldKind.Fits .u64 (.u64 n)
  | fixed
      {width : Nat}
      {bytes : Bytes}
      (hLength : bytes.length = width) :
      FieldKind.Fits (.fixed width) (.fixed bytes)
  | bytes (bytes : Bytes) :
      FieldKind.Fits .bytes (.bytes bytes)
  | array
      {width : Nat}
      {items : List Bytes}
      (hItems : ∀ item ∈ items, item.length = width) :
      FieldKind.Fits (.array width) (.array items)
  | tables
      {fields : List Field}
      {rows : List (List Value)}
      (hRows : ∀ row ∈ rows, RowFits fields row) :
      FieldKind.Fits (.tables fields) (.tables rows)
  | entities
      {items : List Bytes}
      (hItems : ∀ item ∈ items, Bytes.IsEntity item) :
      FieldKind.Fits .entities (.entities items)

/- Each value of a row fits the field at its place. -/
inductive RowFits : List Field → List Value → Prop where
  | nil : RowFits [] []
  | cons
      {field : Field}
      {value : Value}
      {fields : List Field}
      {values : List Value}
      (hValue : FieldKind.Fits field.kind value)
      (hValues : RowFits fields values) :
      RowFits (field :: fields) (value :: values)

end

namespace RowFits

theorem length_eq
    {fields : List Field}
    {values : List Value}
    (hFits : RowFits fields values) :
    values.length = fields.length := by
  induction fields generalizing values with
  | nil =>
      cases hFits
      rfl
  | cons field fields ih =>
      cases hFits with
      | cons hValue hValues =>
          rw [List.length_cons, List.length_cons, ih hValues]

theorem append
    {fields more : List Field}
    {values others : List Value}
    (hFits : RowFits fields values)
    (hMore : RowFits more others) :
    RowFits (fields ++ more) (values ++ others) := by
  induction fields generalizing values with
  | nil =>
      cases hFits
      exact hMore
  | cons field fields ih =>
      cases hFits with
      | cons hValue hValues =>
          exact .cons hValue (ih hValues)

/- A row fits if each of its values does. -/
theorem of_getElem?
    {fields : List Field}
    {values : List Value}
    (hLength : values.length = fields.length)
    (hEach :
      ∀ (i : Nat) (field : Field) (value : Value),
        fields[i]? = some field →
        values[i]? = some value →
        field.kind.Fits value) :
    RowFits fields values := by
  induction fields generalizing values with
  | nil =>
      rw [List.eq_nil_of_length_eq_zero hLength]
      exact .nil
  | cons field fields ih =>
      cases values with
      | nil => cases hLength
      | cons value values =>
          apply RowFits.cons
          · exact hEach 0 field value rfl rfl
          · apply ih (Nat.succ.inj hLength)
            intro i field value hField hValue
            exact hEach (i + 1) field value hField hValue

end RowFits

/- The value of a field that was left out fits it. -/
theorem FieldKind.default_fits
    (kind : FieldKind) :
    kind.Fits kind.default := by
  cases kind with
  | u8 => exact .u8 0
  | u16 => exact .u16 0
  | u32 => exact .u32 0
  | u64 => exact .u64 0
  | fixed width => exact .fixed List.length_replicate
  | bytes => exact .bytes []
  | array width => exact .array (by simp)
  | tables fields => exact .tables (by simp)
  | entities => exact .entities (by simp)

------------------------------------------------------------
-- Positive Widths
------------------------------------------------------------

mutual

/-
  Whether every value of a kind takes up space, down to the
  fields of nested tables.
-/
def FieldKind.isPositive : FieldKind → Bool
  | .fixed width => width != 0
  | .array width => width != 0
  | .tables fields => arePositive fields
  | _ => true
  termination_by structural kind => kind

/- Whether every value of every field takes up space. -/
def arePositive : List Field → Bool
  | [] => true
  | ⟨_, kind⟩ :: fields =>
      kind.isPositive && arePositive fields
  termination_by structural fields => fields

end

theorem arePositive_append
    (fields more : List Field) :
    arePositive (fields ++ more) =
      (arePositive fields && arePositive more) := by
  induction fields with
  | nil => rfl
  | cons field fields ih =>
      rw [List.cons_append, arePositive, arePositive, ih,
        Bool.and_assoc]

------------------------------------------------------------
-- Checking
------------------------------------------------------------

theorem checkEntity_eq_ok_iff
    {table name : String}
    {entity : Bytes} :
    checkEntity table name entity = .ok () ↔
      entity.IsEntity := by
  unfold checkEntity Bytes.IsEntity
  by_cases hShort : entity.length < sizeWidth
  · simp [hShort, Nat.not_le_of_lt hShort]
  · by_cases hSize : declaredSize entity = entity.length
    · simp [hShort, hSize, Nat.le_of_not_lt hShort]
    · simp [hShort, hSize]

mutual

/- No value that fits is refused. -/
theorem FieldKind.Fits.check_eq_ok
    (table name : String)
    {kind : FieldKind}
    {value : Value}
    (hFits : kind.Fits value) :
    kind.check table name value = .ok () := by
  match hFits with
  | .u8 _ => rfl
  | .u16 _ => rfl
  | .u32 _ => rfl
  | .u64 _ => rfl
  | .bytes _ => rfl
  | .fixed hLength => rw [FieldKind.check, if_pos hLength]
  | .array hItems =>
      rw [FieldKind.check, if_pos]
      simpa using hItems
  | .tables hRows =>
      rw [FieldKind.check, forM_eq_ok_iff]
      intro row hMem
      rw [if_pos (hRows row hMem).length_eq]
      exact RowFits.checkRow_eq_ok name (hRows row hMem)
  | .entities hItems =>
      rw [FieldKind.check, forM_eq_ok_iff]
      intro item hMem
      exact checkEntity_eq_ok_iff.mpr (hItems item hMem)
  termination_by structural hFits

/- Nor is any row of values that fit. -/
theorem RowFits.checkRow_eq_ok
    (table : String)
    {fields : List Field}
    {values : List Value}
    (hFits : RowFits fields values) :
    checkRow table fields values = .ok () := by
  match hFits with
  | .nil => rfl
  | .cons hValue hValues =>
      rw [checkRow,
        FieldKind.Fits.check_eq_ok table _ hValue, ok_bind]
      exact RowFits.checkRow_eq_ok table hValues
  termination_by structural hFits

end

mutual

/- A value that is not refused fits. -/
theorem FieldKind.fits_of_check
    (kind : FieldKind)
    {table name : String}
    {value : Value}
    (hCheck : kind.check table name value = .ok ()) :
    kind.Fits value := by
  match kind, value with
  | .u8, .u8 n => exact .u8 n
  | .u16, .u16 n => exact .u16 n
  | .u32, .u32 n => exact .u32 n
  | .u64, .u64 n => exact .u64 n
  | .bytes, .bytes content => exact .bytes content
  | .fixed width, .fixed content =>
      unfold FieldKind.check at hCheck
      by_cases hLength : content.length = width
      · exact .fixed hLength
      · rw [if_neg hLength] at hCheck
        cases hCheck
  | .array width, .array items =>
      unfold FieldKind.check at hCheck
      by_cases hItems : items.all (·.length == width)
      · exact .array (by simpa using hItems)
      · rw [if_neg hItems] at hCheck
        cases hCheck
  | .tables fields, .tables rows =>
      unfold FieldKind.check at hCheck
      rw [forM_eq_ok_iff] at hCheck
      apply FieldKind.Fits.tables
      intro row hMem
      have hRow := hCheck row hMem
      by_cases hLength : row.length = fields.length
      · rw [if_pos hLength] at hRow
        exact RowFits.of_checkRow fields hLength hRow
      · rw [if_neg hLength] at hRow
        cases hRow
  | .entities, .entities items =>
      unfold FieldKind.check at hCheck
      rw [forM_eq_ok_iff] at hCheck
      apply FieldKind.Fits.entities
      intro item hMem
      exact checkEntity_eq_ok_iff.mp (hCheck item hMem)
  termination_by structural kind

/- Values of a row that are not refused fit their fields. -/
theorem RowFits.of_checkRow
    (fields : List Field)
    {table : String}
    {values : List Value}
    (hLength : values.length = fields.length)
    (hCheck : checkRow table fields values = .ok ()) :
    RowFits fields values := by
  match fields, values with
  | [], [] => exact .nil
  | ⟨name, kind⟩ :: fields, value :: values =>
      rw [checkRow, bind_eq_ok_iff] at hCheck
      rcases hCheck with ⟨_, hValue, hValues⟩
      apply RowFits.cons
      · exact FieldKind.fits_of_check kind hValue
      · exact RowFits.of_checkRow fields
          (Nat.succ.inj hLength) hValues
  termination_by structural fields

end

/- Exactly the values that fit are not refused. -/
theorem FieldKind.check_eq_ok_iff
    {table name : String}
    {kind : FieldKind}
    {value : Value} :
    kind.check table name value = .ok () ↔
      kind.Fits value :=
  ⟨kind.fits_of_check, fun hFits => hFits.check_eq_ok _ _⟩

------------------------------------------------------------
-- Setting Fields
------------------------------------------------------------

namespace TableWriter

/- A slot can be set to what fits its field, and only to that. -/
theorem set_eq_ok_iff
    {writer next : TableWriter}
    {slot : Nat}
    {value : Value} :
    writer.set slot value = .ok next ↔
      ∃ field,
        writer.layout.field? slot = some field ∧
        field.kind.Fits value ∧
        { writer with
          values := writer.values.set slot (some value) } =
            next := by
  unfold set
  cases hField : writer.layout.field? slot with
  | none => simp
  | some field =>
      simp only [bind_eq_ok_iff, pure, Except.pure,
        Except.ok.injEq]
      constructor
      · rintro ⟨_, hCheck, hNext⟩
        exact ⟨field, rfl, field.kind.fits_of_check hCheck,
          hNext⟩
      · rintro ⟨_, hSame, hFits, hNext⟩
        cases hSame
        exact ⟨(), hFits.check_eq_ok _ _, hNext⟩

/-
  Setting the remaining fields in order keeps what was set
  before them.
-/
theorem setFrom_of_fits
    {layout : Layout}
    {done fields : List Field}
    {values : List Value}
    (before : List (Option Value))
    (hLayout : layout.fields = done ++ fields)
    (hBefore : before.length = done.length)
    (hFits : RowFits fields values) :
    setFrom
        ⟨layout,
          before ++ List.replicate fields.length none⟩
        done.length values =
      .ok ⟨layout, before ++ values.map some⟩ := by
  induction fields generalizing done before values with
  | nil =>
      cases hFits
      rfl
  | cons field fields ih =>
      cases hFits with
      | cons hValue hValues =>
          rename_i value values
          have hField :
              layout.field? done.length = some field := by
            simp [Layout.field?, hLayout]
          have hSet :
              (before ++
                List.replicate (fields.length + 1) none).set
                  done.length (some value) =
                (before ++ [some value]) ++
                  List.replicate fields.length none := by
            rw [← hBefore, List.set_append_right _ _
              (Nat.le_refl _)]
            simp [List.replicate_succ]
          have hRest :=
            @ih (done ++ [field]) values
              (before ++ [some value])
              (by simpa using hLayout)
              (by simp [hBefore])
              hValues
          rw [List.length_append, List.length_singleton]
            at hRest
          rw [setFrom, set, hField]
          simp only [hValue.check_eq_ok, ok_bind, pure,
            Except.pure, List.length_cons, hSet, hRest]
          simp

/- All fields of an empty table can be set in order. -/
theorem setFrom_empty
    {layout : Layout}
    {values : List Value}
    (hFits : RowFits layout.fields values) :
    (empty layout).setFrom 0 values =
      .ok ⟨layout, values.map some⟩ :=
  @setFrom_of_fits layout [] layout.fields values [] rfl rfl
    hFits

/- When every field was set, no default is written. -/
theorem filled_of_all_set
    {layout : Layout}
    {values : List Value}
    (hLength : values.length = layout.fields.length) :
    filled ⟨layout, values.map some⟩ = values := by
  unfold filled
  apply List.ext_getElem
  · simp [hLength]
  · intro i hLeft hRight
    simp

end TableWriter

end DriveMarket
