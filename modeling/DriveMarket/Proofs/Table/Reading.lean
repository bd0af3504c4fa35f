import DriveMarket.Proofs.Table.Fitting

/-
  Reading what was written, piece by piece.

  A reader reads some bytes as an item when it returns that
  item wherever the bytes stand and whatever follows them, and
  goes on right behind them.

  Key definitions include:
    * `Cursor.Reads`

  Correctness is proven by:
    * `Cursor.reads_number`
    * `Cursor.count_append`
    * `Cursor.reads_times`
    * `reads_entity`
    * `reads_nested`
    * `readFields_nil`
-/

namespace DriveMarket

------------------------------------------------------------
-- Readers
------------------------------------------------------------

/- The reader takes exactly these bytes and returns the item. -/
def Cursor.Reads
    {α : Type}
    (read : Cursor → Except TableError (α × Cursor))
    (bytes : Bytes)
    (item : α) : Prop :=
  ∀ position suffix,
    read ⟨position, bytes ++ suffix⟩ =
      .ok (item, ⟨position + bytes.length, suffix⟩)

namespace Cursor

/- What is made of an item is read from the item's bytes. -/
theorem Reads.map
    {α β : Type}
    {read : Cursor → Except TableError (α × Cursor)}
    {bytes : Bytes}
    {item : α}
    (hReads : Reads read bytes item)
    (f : α → β) :
    Reads
      (fun cursor => do
        let (item, next) ← read cursor
        return (f item, next))
      bytes (f item) := by
  intro position suffix
  have hItem := hReads position suffix
  simp only [hItem, ok_bind, pure, Except.pure]

/- The next bytes are taken as they are. -/
theorem reads_take
    {n : Nat}
    {bytes : Bytes}
    (table name : String)
    (hLength : bytes.length = n) :
    Reads (take table name n) bytes bytes := by
  intro position suffix
  subst hLength
  have hEnough :
      bytes.length ≤ (bytes ++ suffix).length := by
    simp
  rw [take, if_pos hEnough]
  simp

/- A number that fits its width is read back. -/
theorem reads_number
    {width n : Nat}
    (table name : String)
    (hFits : n < byteSpan width) :
    Reads (number table name width)
      (LittleEndian.encode width n) n := by
  intro position suffix
  have hTake :=
    reads_take table name
      (LittleEndian.length_encode width n) position suffix
  rw [number, hTake, ok_bind]
  simp [LittleEndian.decode_encode hFits, pure, Except.pure]

/- A byte is read back. -/
theorem reads_byte
    (table name : String)
    (n : UInt8) :
    Reads (number table name 1) [n] n.toNat := by
  have hBound : n.toNat < byteSpan 1 := n.toNat_lt
  have hReads := reads_number table name hBound
  have hByte : LittleEndian.encode 1 n.toNat = [n] := by
    simp [LittleEndian.encode]
  rw [hByte] at hReads
  exact hReads

/- A count is read back when enough bytes follow it. -/
theorem count_append
    {width n : Nat}
    {rest : Bytes}
    (table name : String)
    (position : Nat)
    (hFits : n < 0x100000000)
    (hEnough : n * width ≤ rest.length) :
    count table name width
        ⟨position, LittleEndian.encode 4 n ++ rest⟩ =
      .ok (n, ⟨position + 4, rest⟩) := by
  have hNumber :
      number table name countWidth
          ⟨position, LittleEndian.encode 4 n ++ rest⟩ =
        .ok (n, ⟨position + 4, rest⟩) := by
    have hReads :=
      @reads_number countWidth n table name hFits position
        rest
    rwa [LittleEndian.length_encode] at hReads
  have hNeeded : min (n * width) Word64.top ≤ rest.length :=
    Nat.le_trans (Nat.min_le_left _ _) hEnough
  rw [count, hNumber, ok_bind]
  simp only [if_pos hNeeded, pure, Except.pure]

/- What follows its count is read behind the count. -/
theorem reads_counted
    {α : Type}
    {width n : Nat}
    {bytes : Bytes}
    {item : α}
    (table name : String)
    (read : Nat → Cursor → Except TableError (α × Cursor))
    (hFits : n < 0x100000000)
    (hEnough : n * width ≤ bytes.length)
    (hReads : Reads (read n) bytes item) :
    Reads
      (fun cursor => do
        let (n, next) ← cursor.count table name width
        read n next)
      (LittleEndian.encode 4 n ++ bytes) item := by
  intro position suffix
  have hFollows : n * width ≤ (bytes ++ suffix).length := by
    rw [List.length_append]
    omega
  have hCount :=
    count_append table name position hFits hFollows
  have hItem := hReads (position + 4) suffix
  rw [List.append_assoc]
  simp only [hCount, ok_bind, hItem, List.length_append,
    LittleEndian.length_encode, Nat.add_assoc]

/- Items are read one after the other. -/
theorem reads_times
    {α : Type}
    {read : Cursor → Except TableError (α × Cursor)}
    {items : List α}
    {pieces : List Bytes}
    (hReads :
      List.Forall₂ (fun item piece => Reads read piece item)
        items pieces) :
    Reads (times read items.length) pieces.flatten items := by
  induction hReads with
  | nil =>
      intro position suffix
      rfl
  | @cons item piece items pieces hHead hTail ih =>
      intro position suffix
      have hRest := ih (position + piece.length) suffix
      rw [List.flatten_cons, List.append_assoc,
        List.length_cons, times, hHead, ok_bind]
      simp only [hRest, ok_bind, pure, Except.pure,
        List.length_append, Nat.add_assoc]

end Cursor

------------------------------------------------------------
-- Entities
------------------------------------------------------------

namespace Bytes.IsEntity

variable {bytes : Bytes}

/- What follows an entity does not change its size prefix. -/
theorem declaredSize_append
    (hEntity : bytes.IsEntity)
    (suffix : Bytes) :
    declaredSize (bytes ++ suffix) = bytes.length := by
  rcases hEntity with ⟨hLength, hSize⟩
  rw [declaredSize, List.take_append_of_le_length hLength]
  exact hSize

theorem readSize_append
    (hEntity : bytes.IsEntity)
    (table name : String)
    (suffix : Bytes) :
    readSize table name (bytes ++ suffix) =
      .ok bytes.length := by
  have hSize := hEntity.declaredSize_append suffix
  rcases hEntity with ⟨hLength, -⟩
  have hLong : ¬ (bytes ++ suffix).length < sizeWidth := by
    rw [List.length_append]
    omega
  rw [readSize, if_neg hLong]
  simp [hSize, hLength]

/- An entity's bytes after its size are what a reader sees. -/
theorem start_append
    (bytes suffix : Bytes) :
    Cursor.start bytes.length (bytes ++ suffix) =
      ⟨sizeWidth, bytes.drop sizeWidth⟩ := by
  rw [Cursor.start, List.take_left']
  rfl

end Bytes.IsEntity

/- An entity is read as a whole. -/
theorem reads_entity
    {entity : Bytes}
    (table name : String)
    (hEntity : entity.IsEntity) :
    Cursor.Reads (readEntity table name) entity entity := by
  intro position suffix
  rw [readEntity, hEntity.readSize_append, ok_bind]
  exact Cursor.reads_take table name rfl position suffix

/- A nested table is read when its fields are. -/
theorem reads_nested
    {bytes : Bytes}
    {fields : List ReadField}
    {read : Cursor → Except TableError (List ReadField)}
    (table : String)
    (hEntity : bytes.IsEntity)
    (hFields :
      read ⟨sizeWidth, bytes.drop sizeWidth⟩ = .ok fields) :
    Cursor.Reads (readNested table read) bytes
      (fields.map (·.value)) := by
  intro position suffix
  rw [readNested, hEntity.readSize_append, ok_bind,
    Bytes.IsEntity.start_append, hFields, ok_bind]
  simp [pure, Except.pure]

------------------------------------------------------------
-- Elements of One Width
------------------------------------------------------------

/- Elements of one width are cut apart where they were joined. -/
theorem Bytes.chunks_flatten
    {width : Nat}
    {items : List Bytes}
    (hItems : ∀ item ∈ items, item.length = width) :
    Bytes.chunks width items.length items.flatten = items := by
  induction items with
  | nil => rfl
  | cons item items ih =>
      have hItem := hItems item List.mem_cons_self
      rw [List.length_cons, List.flatten_cons, Bytes.chunks,
        List.take_left' hItem, List.drop_left' hItem,
        ih fun other hMem =>
          hItems other (List.mem_cons_of_mem item hMem)]

theorem length_flatten_of_width
    {width : Nat}
    {items : List Bytes}
    (hItems : ∀ item ∈ items, item.length = width) :
    items.flatten.length = items.length * width := by
  induction items with
  | nil => simp
  | cons item items ih =>
      rw [List.flatten_cons, List.length_append,
        hItems item List.mem_cons_self,
        ih fun other hMem =>
          hItems other (List.mem_cons_of_mem item hMem),
        List.length_cons, Nat.succ_mul, Nat.add_comm]

/- Entities take up at least their size prefixes. -/
theorem sizeWidth_mul_le_length_flatten
    {items : List Bytes}
    (hItems : ∀ item ∈ items, Bytes.IsEntity item) :
    items.length * sizeWidth ≤ items.flatten.length := by
  induction items with
  | nil => simp
  | cons item items ih =>
      have hItem := (hItems item List.mem_cons_self).1
      have hRest :=
        ih fun other hMem =>
          hItems other (List.mem_cons_of_mem item hMem)
      rw [List.flatten_cons, List.length_append,
        List.length_cons, Nat.succ_mul]
      omega

------------------------------------------------------------
-- Absent Fields
------------------------------------------------------------

/- Where nothing is left, every field is absent. -/
theorem readFields_nil
    (table : String)
    (fields : List Field)
    (position : Nat) :
    readFields table fields ⟨position, []⟩ =
      .ok (fields.map fun field =>
        ⟨field.kind.default, none⟩) := by
  induction fields with
  | nil => rfl
  | cons field fields ih =>
      rw [readFields]
      simp only [List.isEmpty_nil, if_true, ih, ok_bind]
      rfl

end DriveMarket
