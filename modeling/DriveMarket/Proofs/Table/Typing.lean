import DriveMarket.Proofs.Table.Fitting
import DriveMarket.Table.Record

/-
  Whatever is read from any bytes fits its field.

  A reader takes arbitrary bytes.  It returns a value of the
  kind and width that the layout declares, at any nesting, or
  says that the buffer is malformed.  So typed access to what
  was read does not fail.

  Key definitions include:
    * `TableError.IsMalformed`
    * `Record.WellTyped`

  Correctness is proven by:
    * `FieldKind.read_yields`
    * `readTable_yields`
    * `Record.WellTyped.get`
    * `Record.WellTyped.rows`
-/

namespace DriveMarket

/- A buffer that ends too early or declares a wrong size. -/
def TableError.IsMalformed : TableError → Prop
  | .malformedBuffer .. => True
  | _ => False

------------------------------------------------------------
-- Cursors
------------------------------------------------------------

namespace Cursor

variable (table name : String)

theorem take_yields
    (n : Nat)
    (cursor : Cursor) :
    Yields (cursor.take table name n)
      (fun found => found.1.length = n)
      TableError.IsMalformed := by
  unfold take
  by_cases hEnough : n ≤ cursor.rest.length
  · rw [if_pos hEnough]
    exact .ok (List.length_take_of_le hEnough)
  · rw [if_neg hEnough]
    exact .error trivial

theorem number_yields
    (width : Nat)
    (cursor : Cursor) :
    Yields (cursor.number table name width)
      (fun _ => True) TableError.IsMalformed :=
  (cursor.take_yields table name width).bind
    fun _ _ => .ok trivial

theorem count_yields
    (width : Nat)
    (cursor : Cursor) :
    Yields (cursor.count table name width)
      (fun _ => True) TableError.IsMalformed := by
  refine (cursor.number_yields table name _).bind ?_
  rintro ⟨n, next⟩ -
  dsimp only
  split
  · exact .ok trivial
  · exact .error trivial

/- Reading something again and again yields a list of it. -/
theorem times_yields
    {α : Type}
    {item : α → Prop}
    {read : Cursor → Except TableError (α × Cursor)}
    (hRead :
      ∀ cursor,
        Yields (read cursor) (fun found => item found.1)
          TableError.IsMalformed)
    (n : Nat)
    (cursor : Cursor) :
    Yields (times read n cursor)
      (fun found => ∀ x ∈ found.1, item x)
      TableError.IsMalformed := by
  induction n generalizing cursor with
  | zero => exact .ok (List.forall_mem_nil _)
  | succ n ih =>
      refine (hRead cursor).bind fun found hFirst => ?_
      refine (ih found.2).bind fun others hOthers => ?_
      exact .ok (List.forall_mem_cons.mpr ⟨hFirst, hOthers⟩)

end Cursor

------------------------------------------------------------
-- Entities and Nested Tables
------------------------------------------------------------

theorem readSize_yields
    (table name : String)
    (buffer : Bytes) :
    Yields (readSize table name buffer)
      (fun size =>
        sizeWidth ≤ size ∧ size ≤ buffer.length ∧
          declaredSize buffer = size)
      TableError.IsMalformed := by
  unfold readSize
  split
  · exact .error trivial
  · dsimp only
    split
    · rename_i hRange
      exact .ok ⟨hRange.1, hRange.2, rfl⟩
    · exact .error trivial

/- A buffer cut to the size it declares is an entity. -/
theorem isEntity_take
    {buffer : Bytes}
    {size : Nat}
    (hWide : sizeWidth ≤ size)
    (hEnough : size ≤ buffer.length)
    (hDeclared : declaredSize buffer = size) :
    Bytes.IsEntity (buffer.take size) := by
  have hLength : (buffer.take size).length = size :=
    List.length_take_of_le hEnough
  constructor
  · rw [hLength]
    exact hWide
  · rw [declaredSize, List.take_take, Nat.min_eq_left hWide,
      hLength]
    exact hDeclared

namespace Bytes.IsEntity

variable {bytes : Bytes}

/- A size prefix counts up to 32 bits. -/
theorem length_lt
    (hEntity : bytes.IsEntity) :
    bytes.length < 0x100000000 := by
  have hWidth : (bytes.take sizeWidth).length = 4 :=
    List.length_take_of_le hEntity.1
  have hSize := LittleEndian.decode_lt (bytes.take sizeWidth)
  rw [hWidth] at hSize
  rw [← hEntity.2]
  exact hSize

theorem length_behind_size
    (hEntity : bytes.IsEntity) :
    sizeWidth + (bytes.drop sizeWidth).length =
      bytes.length := by
  rw [List.length_drop]
  exact Nat.add_sub_cancel' hEntity.1

/- An entity starts with its length. -/
theorem take_size
    (hEntity : bytes.IsEntity) :
    bytes.take sizeWidth =
      LittleEndian.encode sizeWidth bytes.length := by
  have hLength : (bytes.take sizeWidth).length = sizeWidth :=
    List.length_take_of_le hEntity.1
  rw [← hEntity.2, declaredSize]
  nth_rewrite 2 [← hLength]
  exact (LittleEndian.encode_decode _).symm

/- An entity is its size with what is behind it. -/
theorem eq_size_append
    (hEntity : bytes.IsEntity) :
    bytes =
      LittleEndian.encode sizeWidth bytes.length ++
        bytes.drop sizeWidth := by
  rw [← hEntity.take_size, List.take_append_drop]

end Bytes.IsEntity

theorem readEntity_yields
    (table name : String)
    (cursor : Cursor) :
    Yields (readEntity table name cursor)
      (fun found => Bytes.IsEntity found.1)
      TableError.IsMalformed := by
  refine (readSize_yields table name cursor.rest).bind ?_
  rintro size ⟨hWide, hEnough, hDeclared⟩
  rw [Cursor.take, if_pos hEnough]
  exact .ok (isEntity_take hWide hEnough hDeclared)

theorem readNested_yields
    {fields : List Field}
    {read : Cursor → Except TableError (List ReadField)}
    (table : String)
    (hRead :
      ∀ cursor,
        Yields (read cursor)
          (fun found => RowFits fields (found.map (·.value)))
          TableError.IsMalformed)
    (cursor : Cursor) :
    Yields (readNested table read cursor)
      (fun found => RowFits fields found.1)
      TableError.IsMalformed := by
  refine (readSize_yields table "size" cursor.rest).bind ?_
  intro size _
  refine (hRead _).bind fun found hFound => ?_
  exact .ok hFound

/- Bytes are cut into pieces that all have the width. -/
theorem Bytes.length_of_mem_chunks
    {width n : Nat}
    {bytes : Bytes}
    (hLength : bytes.length = n * width) :
    ∀ piece ∈ bytes.chunks width n, piece.length = width := by
  induction n generalizing bytes with
  | zero => exact List.forall_mem_nil _
  | succ n ih =>
      rw [Nat.succ_mul] at hLength
      refine List.forall_mem_cons.mpr ⟨?_, ?_⟩
      · exact List.length_take_of_le (by omega)
      · apply ih
        rw [List.length_drop]
        omega

------------------------------------------------------------
-- Fields
------------------------------------------------------------

mutual

/- A value that is read fits the kind that it is read for. -/
theorem FieldKind.read_yields
    (table name : String)
    (kind : FieldKind)
    (hPositive : kind.isPositive)
    (cursor : Cursor) :
    Yields (kind.read table name cursor)
      (fun found => kind.Fits found.1)
      TableError.IsMalformed := by
  match kind with
  | .u8 =>
      exact (cursor.number_yields table name 1).bind
        fun _ _ => .ok (.u8 _)
  | .u16 =>
      exact (cursor.number_yields table name 2).bind
        fun _ _ => .ok (.u16 _)
  | .u32 =>
      exact (cursor.number_yields table name 4).bind
        fun _ _ => .ok (.u32 _)
  | .u64 =>
      exact (cursor.number_yields table name 4).bind
        fun low _ => (low.2.number_yields table name 4).bind
          fun _ _ => .ok (.u64 _)
  | .fixed width =>
      exact (cursor.take_yields table name width).bind
        fun _ hLength => .ok (.fixed hLength)
  | .bytes =>
      refine (cursor.count_yields table name 1).bind ?_
      rintro ⟨n, next⟩ -
      exact (next.take_yields table name n).bind
        fun _ _ => .ok (.bytes _)
  | .array width =>
      have hWidth : ¬ width = 0 := by
        simpa [FieldKind.isPositive] using hPositive
      rw [FieldKind.read, if_neg hWidth]
      refine (cursor.count_yields table name width).bind ?_
      rintro ⟨n, next⟩ -
      exact (next.take_yields table name (n * width)).bind
        fun _ hLength =>
          .ok (.array (Bytes.length_of_mem_chunks hLength))
  | .tables fields =>
      refine (cursor.count_yields table name sizeWidth).bind ?_
      rintro ⟨n, next⟩ -
      have hNested :=
        readNested_yields name
          (readFields_yield name fields hPositive)
      exact (Cursor.times_yields hNested n next).bind
        fun _ hRows => .ok (.tables hRows)
  | .entities =>
      refine (cursor.count_yields table name sizeWidth).bind ?_
      rintro ⟨n, next⟩ -
      have hEntity := readEntity_yields table name
      exact (Cursor.times_yields hEntity n next).bind
        fun _ hItems => .ok (.entities hItems)
  termination_by structural kind

/- So do all values of a row, those that are absent too. -/
theorem readFields_yield
    (table : String)
    (fields : List Field)
    (hPositive : arePositive fields)
    (cursor : Cursor) :
    Yields (readFields table fields cursor)
      (fun found => RowFits fields (found.map (·.value)))
      TableError.IsMalformed := by
  match fields with
  | [] => exact .ok .nil
  | ⟨name, kind⟩ :: fields =>
      rw [arePositive, Bool.and_eq_true] at hPositive
      have hRest := readFields_yield table fields hPositive.2
      rw [readFields]
      split
      · exact (hRest cursor).bind fun _ hFits =>
          .ok (.cons kind.default_fits hFits)
      · refine (FieldKind.read_yields table name kind
          hPositive.1 cursor).bind fun found hValue => ?_
        exact (hRest found.2).bind fun _ hFits =>
          .ok (.cons hValue hFits)
  termination_by structural fields

end

/- A table is read with values that fit, or is malformed. -/
theorem readTable_yields
    (layout : Layout)
    (hPositive : arePositive layout.fields)
    (buffer : Bytes) :
    Yields (readTable layout buffer)
      (fun table =>
        table.layout = layout ∧
          RowFits layout.fields table.values)
      TableError.IsMalformed := by
  refine (readSize_yields layout.name "size" buffer).bind ?_
  intro size _
  refine (readFields_yield layout.name layout.fields hPositive
    _).bind fun found hFits => ?_
  exact .ok ⟨rfl, hFits⟩

------------------------------------------------------------
-- Typed Access
------------------------------------------------------------

/- Each field of a row that fits has a value that fits it. -/
theorem RowFits.getElem?
    {fields : List Field}
    {values : List Value}
    {i : Nat}
    {field : Field}
    (hFits : RowFits fields values)
    (hField : fields[i]? = some field) :
    ∃ value,
      values[i]? = some value ∧ field.kind.Fits value := by
  induction fields generalizing values i with
  | nil => cases hField
  | cons first fields ih =>
      cases hFits with
      | cons hValue hValues =>
          cases i with
          | zero =>
              cases hField
              exact ⟨_, rfl, hValue⟩
          | succ i =>
              have hRest := ih hValues hField
              exact hRest

/- The first values of a row that fits fit the first fields. -/
theorem RowFits.take
    {fields : List Field}
    {values : List Value}
    (hFits : RowFits fields values)
    (n : Nat) :
    RowFits (fields.take n) (values.take n) := by
  induction fields generalizing values n with
  | nil =>
      cases hFits
      rw [List.take_nil, List.take_nil]
      exact .nil
  | cons field fields ih =>
      cases hFits with
      | cons hValue hValues =>
          cases n with
          | zero => exact .nil
          | succ n => exact .cons hValue (ih hValues n)

namespace Record

/- A getter returns what it sees in a slot's value. -/
theorem view_of_get
    {α : Type}
    {see : Value → Option α}
    {record : Record}
    {slot : Nat}
    {field : Field}
    {value : Value}
    {content : α}
    (hGet : record.get slot = .ok (field, value))
    (hSee : see value = some content) :
    view see record slot = .ok content := by
  rw [view, hGet, ok_bind]
  simp only [hSee]
  rfl

theorem rows_of_get
    {slot : Nat}
    {record : Record}
    {name : String}
    {fields : List Field}
    {rows : List (List Value)}
    (hGet :
      record.get slot =
        .ok (⟨name, .tables fields⟩, .tables rows)) :
    record.rows slot =
      .ok (rows.map (Record.mk name fields)) := by
  rw [Record.rows, hGet, ok_bind]
  rfl

/- The values of a record fit its fields. -/
def WellTyped
    (record : Record) : Prop :=
  RowFits record.fields record.values

namespace WellTyped

variable {record : Record}
variable {slot : Nat}
variable {name : String}
variable {kind : FieldKind}

/- A slot of a field holds a value that fits it. -/
theorem get
    (hTyped : record.WellTyped)
    (hField : record.fields[slot]? = some ⟨name, kind⟩) :
    ∃ value,
      record.values[slot]? = some value ∧
        record.get slot = .ok (⟨name, kind⟩, value) ∧
        kind.Fits value := by
  rcases hTyped.getElem? hField with ⟨value, hValue, hFits⟩
  refine ⟨value, hValue, ?_, hFits⟩
  rw [Record.get, hField, hValue]

theorem u8
    (hTyped : record.WellTyped)
    (slot : Nat)
    (hField : record.fields[slot]? = some ⟨name, .u8⟩) :
    ∃ n, record.u8 slot = .ok n := by
  rcases hTyped.get hField with ⟨_, -, hGet, ⟨⟩⟩
  exact ⟨_, view_of_get hGet rfl⟩

theorem u16
    (hTyped : record.WellTyped)
    (slot : Nat)
    (hField : record.fields[slot]? = some ⟨name, .u16⟩) :
    ∃ n, record.u16 slot = .ok n := by
  rcases hTyped.get hField with ⟨_, -, hGet, ⟨⟩⟩
  exact ⟨_, view_of_get hGet rfl⟩

theorem u32
    (hTyped : record.WellTyped)
    (slot : Nat)
    (hField : record.fields[slot]? = some ⟨name, .u32⟩) :
    ∃ n, record.u32 slot = .ok n := by
  rcases hTyped.get hField with ⟨_, -, hGet, ⟨⟩⟩
  exact ⟨_, view_of_get hGet rfl⟩

theorem u64
    (hTyped : record.WellTyped)
    (slot : Nat)
    (hField : record.fields[slot]? = some ⟨name, .u64⟩) :
    ∃ n, record.u64 slot = .ok n := by
  rcases hTyped.get hField with ⟨_, -, hGet, ⟨⟩⟩
  exact ⟨_, view_of_get hGet rfl⟩

theorem fixed
    {width : Nat}
    (hTyped : record.WellTyped)
    (slot : Nat)
    (hField :
      record.fields[slot]? = some ⟨name, .fixed width⟩) :
    ∃ bytes, record.fixed width slot = .ok bytes := by
  rcases hTyped.get hField with ⟨_, -, hGet, ⟨⟩⟩
  rename_i bytes hLength
  have hSee :
      FixedBytes.ofList? width bytes =
        some ⟨bytes, hLength⟩ :=
    FixedBytes.ofList?_toList ⟨bytes, hLength⟩
  exact ⟨_, view_of_get hGet hSee⟩

theorem bytes
    (hTyped : record.WellTyped)
    (slot : Nat)
    (hField : record.fields[slot]? = some ⟨name, .bytes⟩) :
    ∃ bytes, record.bytes slot = .ok bytes := by
  rcases hTyped.get hField with ⟨_, -, hGet, ⟨⟩⟩
  exact ⟨_, view_of_get hGet rfl⟩

/- The elements of an array are of its width. -/
theorem array
    {width : Nat}
    (hTyped : record.WellTyped)
    (slot : Nat)
    (hField :
      record.fields[slot]? = some ⟨name, .array width⟩) :
    ∃ items,
      record.array slot = .ok items ∧
        ∀ item ∈ items, item.length = width := by
  rcases hTyped.get hField with ⟨_, -, hGet, ⟨⟩⟩
  rename_i items hItems
  exact ⟨items, view_of_get hGet rfl, hItems⟩

theorem entities
    (hTyped : record.WellTyped)
    (slot : Nat)
    (hField :
      record.fields[slot]? = some ⟨name, .entities⟩) :
    ∃ items, record.entities slot = .ok items := by
  rcases hTyped.get hField with ⟨_, -, hGet, ⟨⟩⟩
  exact ⟨_, view_of_get hGet rfl⟩

/- Nested tables are records of the nested fields. -/
theorem rows
    {fields : List Field}
    (hTyped : record.WellTyped)
    (slot : Nat)
    (hField :
      record.fields[slot]? = some ⟨name, .tables fields⟩) :
    ∃ rows,
      record.rows slot = .ok rows ∧
        ∀ row ∈ rows, row.fields = fields ∧ row.WellTyped := by
  rcases hTyped.get hField with ⟨_, -, hGet, ⟨⟩⟩
  rename_i values hValues
  refine ⟨_, rows_of_get hGet, ?_⟩
  rw [List.forall_mem_map]
  exact fun row hMem => ⟨rfl, hValues row hMem⟩

end WellTyped

end Record

end DriveMarket
