import DriveMarket.Proofs.Table.Lengths

/-
  Tables of any layout are read back as they were set.

  A writer is called any number of times, in any order and
  with any values.  Of the calls that it accepts, the last one
  for each slot counts; a slot without such a call has the
  default of its kind.  Whatever the writer holds in the end
  fits the layout, so that only a length can keep it from
  being written, and what is written is read back.

  Key definitions include:
    * `TableWriter.Call`
    * `TableWriter.after`
    * `TableWriter.lastSet?`
    * `TableWriter.WellFormed`

  Correctness is proven by:
    * `TableWriter.values_after`
    * `TableWriter.WellFormed.after`
    * `TableWriter.WellFormed.filled_fits`
    * `TableWriter.readTable_finish`
-/

namespace DriveMarket

namespace TableWriter

------------------------------------------------------------
-- Calls
------------------------------------------------------------

/- An attempt to set a field, by its slot or by its name. -/
inductive Call where
  | set (slot : Nat) (value : Value)
  | setNamed (name : String) (value : Value)

namespace Call

/- The value that a call brings. -/
def value : Call → Value
  | .set _ value => value
  | .setNamed _ value => value

/- The slot that a call is about. -/
def slot?
    (layout : Layout) : Call → Option Nat
  | .set slot _ => some slot
  | .setNamed name _ => layout.slotOf? name

end Call

/- Make one call. -/
def make
    (writer : TableWriter) :
    Call →
    Except TableError TableWriter
  | .set slot value => writer.set slot value
  | .setNamed name value => writer.setNamed name value

/- The writer after calls; refused ones leave no trace. -/
def after
    (writer : TableWriter) :
    List Call →
    TableWriter
  | [] => writer
  | call :: calls =>
      match writer.make call with
      | .ok next => after next calls
      | .error _ => after writer calls

/- Those of the calls that are accepted, in their order. -/
def accepted
    (writer : TableWriter) :
    List Call →
    List Call
  | [] => []
  | call :: calls =>
      match writer.make call with
      | .ok next => call :: accepted next calls
      | .error _ => accepted writer calls

/- What the last accepted call for a slot brought, if any. -/
def lastSet?
    (writer : TableWriter)
    (calls : List Call)
    (slot : Nat) : Option Value :=
  ((writer.accepted calls).reverse.find?
    (·.slot? writer.layout == some slot)).map (·.value)

/- An accepted call puts a value that fits into its slot. -/
theorem make_eq_ok
    {writer next : TableWriter}
    {call : Call}
    (hMake : writer.make call = .ok next) :
    ∃ slot field,
      call.slot? writer.layout = some slot ∧
      writer.layout.field? slot = some field ∧
      field.kind.Fits call.value ∧
      next = { writer with
        values :=
          writer.values.set slot (some call.value) } := by
  cases call with
  | set slot value =>
      rcases set_eq_ok_iff.mp hMake with
        ⟨field, hField, hFits, rfl⟩
      exact ⟨slot, field, rfl, hField, hFits, rfl⟩
  | setNamed name value =>
      cases hSlot : writer.layout.slotOf? name with
      | none =>
          rw [make, setNamed, hSlot] at hMake
          cases hMake
      | some slot =>
          rw [make, setNamed, hSlot] at hMake
          rcases set_eq_ok_iff.mp hMake with
            ⟨field, hField, hFits, rfl⟩
          exact ⟨slot, field, hSlot, hField, hFits, rfl⟩

------------------------------------------------------------
-- What a Writer Holds
------------------------------------------------------------

/- A place for each slot, and in it nothing that does not fit. -/
structure WellFormed (writer : TableWriter) : Prop where
  length :
    writer.values.length = writer.layout.fields.length
  fits :
    ∀ slot field value,
      writer.layout.field? slot = some field →
      writer.values[slot]? = some (some value) →
      field.kind.Fits value

namespace WellFormed

variable {writer : TableWriter}

theorem empty
    (layout : Layout) :
    (TableWriter.empty layout).WellFormed := by
  constructor
  · exact List.length_replicate
  · intro slot field value hField hValue
    have hMem := List.mem_of_getElem? hValue
    rw [TableWriter.empty, List.mem_replicate] at hMem
    cases hMem.2

theorem make
    {next : TableWriter}
    {call : Call}
    (hWriter : writer.WellFormed)
    (hMake : writer.make call = .ok next) :
    next.WellFormed := by
  rcases make_eq_ok hMake with
    ⟨target, field, -, hTarget, hFits, rfl⟩
  constructor
  · rw [List.length_set]
    exact hWriter.length
  · intro slot other value hField hValue
    rw [List.getElem?_set] at hValue
    by_cases hSlot : target = slot
    · subst hSlot
      rw [hTarget] at hField
      cases hField
      rw [if_pos rfl] at hValue
      by_cases hRange : target < writer.values.length
      · rw [if_pos hRange] at hValue
        cases hValue
        exact hFits
      · rw [if_neg hRange] at hValue
        cases hValue
    · rw [if_neg hSlot] at hValue
      exact hWriter.fits slot other value hField hValue

/- No calls make a writer hold what does not fit. -/
theorem after
    (calls : List Call)
    (hWriter : writer.WellFormed) :
    (writer.after calls).WellFormed := by
  induction calls generalizing writer with
  | nil => exact hWriter
  | cons call calls ih =>
      unfold TableWriter.after
      cases hMake : writer.make call with
      | error cause => exact ih hWriter
      | ok next => exact ih (hWriter.make hMake)

/- What is written for a slot. -/
theorem getElem?_filled
    {slot : Nat}
    {field : Field}
    (hWriter : writer.WellFormed)
    (hField : writer.layout.field? slot = some field) :
    writer.filled[slot]? =
      some
        (writer.values[slot]?.join.getD
          field.kind.default) := by
  have hRange : slot < writer.values.length := by
    rw [hWriter.length]
    exact (List.getElem?_eq_some_iff.mp hField).1
  unfold filled
  rw [List.getElem?_zipWith, ← Layout.field?, hField,
    List.getElem?_eq_getElem hRange]
  rfl

/- All that is written fits. -/
theorem filled_fits
    (hWriter : writer.WellFormed) :
    RowFits writer.layout.fields writer.filled := by
  apply RowFits.of_getElem?
  · simp [filled, hWriter.length]
  · intro slot field value hField hValue
    rw [hWriter.getElem?_filled hField,
      Option.some.injEq] at hValue
    subst hValue
    cases hSet : writer.values[slot]?.join with
    | none => exact field.kind.default_fits
    | some value =>
        exact hWriter.fits slot field value hField
          (Option.join_eq_some_iff.mp hSet)

end WellFormed

theorem layout_after
    (writer : TableWriter)
    (calls : List Call) :
    (writer.after calls).layout = writer.layout := by
  induction calls generalizing writer with
  | nil => rfl
  | cons call calls ih =>
      unfold after
      cases hMake : writer.make call with
      | error cause => exact ih writer
      | ok next =>
          rcases make_eq_ok hMake with
            ⟨slot, field, -, -, -, rfl⟩
          exact ih _

/-
  A slot holds what it was last set to, and what it held
  before all calls only if none of them set it.
-/
theorem values_after
    {slot : Nat}
    {writer : TableWriter}
    (calls : List Call)
    (hRange : slot < writer.values.length) :
    (writer.after calls).values[slot]?.join =
      (writer.lastSet? calls slot).or
        writer.values[slot]?.join := by
  induction calls generalizing writer with
  | nil => rfl
  | cons call calls ih =>
      unfold after lastSet? accepted
      cases hMake : writer.make call with
      | error cause => exact ih hRange
      | ok next =>
          rcases make_eq_ok hMake with
            ⟨target, field, hTarget, -, -, rfl⟩
          have hRest :=
            @ih { writer with
              values :=
                writer.values.set target
                  (some call.value) }
              (by simpa using hRange)
          simp only [List.reverse_cons, List.find?_append,
            Option.map_or, Option.or_assoc]
          refine hRest.trans ?_
          unfold lastSet?
          congr 1
          by_cases hSlot : target = slot
          · subst hSlot
            simp [hTarget, hRange]
          · simp [hTarget, hSlot]

/- What is written for a slot after calls on an empty writer. -/
theorem getElem?_filled_after
    {layout : Layout}
    {slot : Nat}
    {field : Field}
    (calls : List Call)
    (hField : layout.field? slot = some field) :
    ((empty layout).after calls).filled[slot]? =
      some
        (((empty layout).lastSet? calls slot).getD
          field.kind.default) := by
  have hWriter := (WellFormed.empty layout).after calls
  have hKept :
      ((empty layout).after calls).layout.field? slot =
        some field := by
    rw [layout_after]
    exact hField
  have hRange : slot < (empty layout).values.length := by
    rw [(WellFormed.empty layout).length]
    exact (List.getElem?_eq_some_iff.mp hField).1
  have hUnset :
      (empty layout).values[slot]?.join = none := by
    rw [List.getElem?_eq_getElem hRange]
    simp [empty]
  rw [hWriter.getElem?_filled hKept,
    values_after calls hRange, hUnset, Option.or_none]

------------------------------------------------------------
-- Reading Back
------------------------------------------------------------

/-
  A finished table is read back wherever bytes follow it: it
  has the size that was written, every field is there where it
  was written, and has the value that was last set or, if none
  was, the default.  A table is not finished only for a length
  beyond 32 bits.
-/
theorem readTable_finish
    (layout : Layout)
    (calls : List Call)
    (hPositive : arePositive layout.fields) :
    (∀ encoded suffix,
      ((empty layout).after calls).finish = .ok encoded →
      ∃ table,
        readTable layout (encoded.bytes ++ suffix) =
          .ok table ∧
        table.size = encoded.bytes.length ∧
        table.fields.length = layout.fieldCount ∧
        encoded.offsets.length = layout.fieldCount ∧
        ∀ slot field,
          layout.field? slot = some field →
          table.values[slot]? =
            some
              (((empty layout).lastSet? calls slot).getD
                field.kind.default) ∧
          table.isPresent slot ∧
          table.offset? slot = encoded.offsets[slot]?) ∧
    ∀ cause,
      ((empty layout).after calls).finish = .error cause →
      ∃ table field length,
        cause = .lengthOverflow table field length ∧
        0x100000000 ≤ length := by
  have hWriter := (WellFormed.empty layout).after calls
  have hLayout :
      ((empty layout).after calls).layout = layout :=
    layout_after _ calls
  have hFits := hWriter.filled_fits
  rw [hLayout] at hFits
  unfold finish
  rw [hLayout]
  constructor
  · intro encoded suffix hEncode
    have hRead :=
      hFits.readTable_of_encodeTable hPositive hEncode suffix
    rcases encodeTable_eq_ok hEncode with ⟨body, hBody, -, -⟩
    have hOffsets := hFits.length_offsets hBody
    have hSlots := hOffsets.trans hFits.length_eq
    refine ⟨_, hRead, rfl, ?_, hSlots, ?_⟩
    · rw [← List.length_map, presentFields_values hOffsets]
      exact hFits.length_eq
    · intro slot field hField
      have hRange : slot < layout.fields.length :=
        (List.getElem?_eq_some_iff.mp hField).1
      have hThere := offset?_presentFields layout
        encoded.bytes.length slot hOffsets
      refine ⟨?_, ?_, hThere⟩
      · rw [DecodedTable.values, presentFields_values hOffsets]
        exact getElem?_filled_after calls hField
      · rw [DecodedTable.isPresent, hThere,
          List.getElem?_eq_getElem (hSlots.symm ▸ hRange)]
        rfl
  · intro cause hError
    exact (hFits.encodeTable_error hError).exists_length

/-
  Rows inside rows, an entity and a number are set, the number
  twice and once in vain, and an array is left out.
-/
theorem readTable_finish_nested :
    let layout : Layout := {
      name := "Order"
      header := [⟨"version", .u16⟩]
      body :=
        [⟨"rows", .tables
          [⟨"tag", .u8⟩,
            ⟨"items", .tables [⟨"key", .fixed 2⟩]⟩]⟩,
          ⟨"keys", .array 2⟩,
          ⟨"raw", .entities⟩] }
    let rows : Value :=
      .tables [[.u8 7, .tables [[.fixed [1, 2]]]]]
    let calls : List Call :=
      [.setNamed "rows" rows,
        .set 0 (.u16 1),
        .set 3 (.entities [[4, 0, 0, 0]]),
        .set 0 (.u16 5),
        .set 0 (.u8 9)]
    arePositive layout.fields ∧
    ∃ encoded table,
      ((empty layout).after calls).finish = .ok encoded ∧
      readTable layout (encoded.bytes ++ [1]) = .ok table ∧
      table.size = encoded.bytes.length ∧
      table.values[0]? = some (.u16 5) ∧
      table.values[1]? = some rows ∧
      table.values[2]? = some (.array []) ∧
      table.isPresent 2 := by
  intro layout rows calls
  have hPositive : arePositive layout.fields := by
    decide
  have hFinish :
      ∃ encoded,
        ((empty layout).after calls).finish = .ok encoded :=
    exists_eq_ok (by decide +kernel)
  rcases hFinish with ⟨encoded, hEncoded⟩
  rcases (readTable_finish layout calls hPositive).1 encoded
      [1] hEncoded with
    ⟨table, hRead, hSize, -, -, hFields⟩
  refine ⟨hPositive, encoded, table, hEncoded, hRead, hSize,
    ?_, ?_, ?_⟩
  · exact (hFields 0 _ rfl).1
  · exact (hFields 1 _ rfl).1
  · exact ⟨(hFields 2 _ rfl).1, (hFields 2 _ rfl).2.1⟩

end TableWriter

end DriveMarket
