import DriveMarket.Proofs.Table.Leniency
import DriveMarket.Proofs.Table.Lengths
import DriveMarket.Proofs.Table.Presence

/-
  When a table is written again as it was read.

  Whatever is read can be written again, and reads as the same
  values.  Whether the bytes are the same is decided place by
  place: what would be written for an item either is what the
  reader passed, and then it overlooked nothing there, or is
  not even what the bytes start with.  This carries over from
  items to what is made of them, down to nested tables.

  Key definitions include:
    * `Cursor.Rewrites`

  Correctness is proven by:
    * `Cursor.Rewrites.append`
    * `FieldKind.rewrites`
    * `auditFields_eq_none_iff`
    * `readTable_rewritten`
-/

namespace DriveMarket

------------------------------------------------------------
-- Counted Fields
------------------------------------------------------------

namespace Cursor

variable {table name : String}
variable {cursor next : Cursor}

theorem Passes.refl
    (cursor : Cursor) : cursor.Passes [] cursor :=
  ⟨rfl, rfl⟩

/- From one place to another lies only one string of bytes. -/
theorem Passes.unique
    {bytes other : Bytes}
    (hPasses : cursor.Passes bytes next)
    (hOther : cursor.Passes other next) :
    bytes = other := by
  have hRest := hPasses.rest
  rw [hOther.rest] at hRest
  exact (List.append_cancel_right hRest).symm

/- A count that is read fits and is as it is written. -/
theorem count_eq_ok
    {width n : Nat}
    (hCount :
      cursor.count table name width = .ok (n, next)) :
    n < 0x100000000 ∧
      cursor.Passes (LittleEndian.encode 4 n) next := by
  simp only [count, bind_eq_ok_iff] at hCount
  rcases hCount with ⟨⟨m, last⟩, hNumber, hEnough⟩
  split at hEnough
  · cases hEnough
    exact number_eq_ok hNumber
  · cases hEnough

/- As many items are read as were asked for. -/
theorem length_of_times
    {α : Type}
    {read : Cursor → Except TableError (α × Cursor)}
    {n : Nat}
    {items : List α}
    (hTimes : times read n cursor = .ok (items, next)) :
    items.length = n := by
  induction n generalizing cursor items with
  | zero =>
      cases hTimes
      rfl
  | succ n ih =>
      simp only [times, bind_eq_ok_iff] at hTimes
      rcases hTimes with
        ⟨⟨item, middle⟩, -, ⟨others, last⟩, hOthers, hPure⟩
      cases hPure
      rw [List.length_cons, ih hOthers]

/- Items that stand for themselves are passed one by one. -/
theorem passes_of_times
    {read : Cursor → Except TableError (Bytes × Cursor)}
    {n : Nat}
    {items : List Bytes}
    (hEach :
      ∀ {cursor item next},
        read cursor = .ok (item, next) →
        cursor.Passes item next)
    (hTimes : times read n cursor = .ok (items, next)) :
    cursor.Passes items.flatten next := by
  induction n generalizing cursor items with
  | zero =>
      cases hTimes
      exact .refl _
  | succ n ih =>
      simp only [times, bind_eq_ok_iff] at hTimes
      rcases hTimes with
        ⟨⟨item, middle⟩, hItem, ⟨others, last⟩, hOthers,
          hPure⟩
      cases hPure
      exact (hEach hItem).trans (ih hOthers)

end Cursor

/- Bytes are cut into pieces that make them up again. -/
theorem Bytes.flatten_chunks
    {width n : Nat}
    {bytes : Bytes}
    (hLength : bytes.length = n * width) :
    (bytes.chunks width n).flatten = bytes := by
  induction n generalizing bytes with
  | zero =>
      rw [Nat.zero_mul, List.length_eq_zero_iff] at hLength
      exact hLength.symm
  | succ n ih =>
      have hRest :
          (bytes.drop width).length = n * width := by
        rw [List.length_drop, hLength, Nat.succ_mul]
        omega
      rw [Bytes.chunks, List.flatten_cons, ih hRest,
        List.take_append_drop]

/- An entity that is read lies there as it is. -/
theorem passes_of_readEntity
    {table name : String}
    {cursor next : Cursor}
    {entity : Bytes}
    (hRead :
      readEntity table name cursor = .ok (entity, next)) :
    cursor.Passes entity next := by
  unfold readEntity at hRead
  rw [bind_eq_ok_iff] at hRead
  rcases hRead with ⟨size, -, hTake⟩
  exact (Cursor.take_eq_ok hTake).2

/- A field without nested tables is read as it is written. -/
theorem FieldKind.encode_of_read_plain
    {table name : String}
    {kind : FieldKind}
    {cursor next : Cursor}
    {value : Value}
    (hPlain : ∀ fields, kind ≠ .tables fields)
    (hRead :
      kind.read table name cursor = .ok (value, next)) :
    ∃ bytes,
      kind.encode table name value = .ok bytes ∧
        cursor.Passes bytes next := by
  by_cases hFixed : kind.fixedWidth.isSome
  · exact FieldKind.encode_of_read hFixed hRead
  cases kind with
  | bytes =>
      simp only [FieldKind.read, bind_eq_ok_iff] at hRead
      rcases hRead with
        ⟨⟨n, middle⟩, hCount, ⟨content, last⟩, hTake, hPure⟩
      cases hPure
      rcases Cursor.count_eq_ok hCount with ⟨hBound, hFirst⟩
      rcases Cursor.take_eq_ok hTake with ⟨rfl, hSecond⟩
      refine ⟨_, ?_, hFirst.trans hSecond⟩
      rw [FieldKind.encode, encode_counted_eq_ok_iff]
      exact ⟨hBound, rfl⟩
  | array width =>
      rw [FieldKind.read] at hRead
      split at hRead
      · cases hRead
      simp only [bind_eq_ok_iff] at hRead
      rcases hRead with
        ⟨⟨n, middle⟩, hCount, ⟨content, last⟩, hTake, hPure⟩
      cases hPure
      rcases Cursor.count_eq_ok hCount with ⟨hBound, hFirst⟩
      rcases Cursor.take_eq_ok hTake with ⟨hLength, hSecond⟩
      refine ⟨_, ?_, hFirst.trans hSecond⟩
      rw [FieldKind.encode, encode_counted_eq_ok_iff,
        Bytes.length_chunks, Bytes.flatten_chunks hLength]
      exact ⟨hBound, rfl⟩
  | entities =>
      simp only [FieldKind.read, bind_eq_ok_iff] at hRead
      rcases hRead with
        ⟨⟨n, middle⟩, hCount, ⟨items, last⟩, hTimes, hPure⟩
      cases hPure
      rcases Cursor.count_eq_ok hCount with ⟨hBound, hFirst⟩
      have hSecond :=
        Cursor.passes_of_times passes_of_readEntity hTimes
      refine ⟨_, ?_, hFirst.trans hSecond⟩
      rw [FieldKind.encode, encode_counted_eq_ok_iff,
        Cursor.length_of_times hTimes]
      exact ⟨hBound, rfl⟩
  | tables fields => exact absurd rfl (hPlain fields)
  | _ => exact absurd rfl hFixed

------------------------------------------------------------
-- Writing Again
------------------------------------------------------------

/-
  What would be written for what was read from one place to
  another: unless it is what lies there, it is not what the
  rest starts with; and it lies there exactly if nothing was
  overlooked.
-/
structure Cursor.Rewrites
    (cursor next : Cursor)
    (leniency : Leniency)
    (written : Except TableError Bytes) : Prop where
  aligned :
    ∀ bytes,
      written = .ok bytes →
      bytes <+: cursor.rest →
      cursor.Passes bytes next
  eq_none_iff :
    leniency = .none ↔
      ∃ bytes,
        written = .ok bytes ∧ cursor.Passes bytes next

namespace Cursor.Rewrites

variable {cursor middle next : Cursor}
variable {first second : Leniency}

/- What is written as it was passed overlooks nothing. -/
theorem of_passes
    {written : Except TableError Bytes}
    {bytes : Bytes}
    (hWritten : written = .ok bytes)
    (hPasses : cursor.Passes bytes next) :
    cursor.Rewrites next .none written := by
  constructor
  · intro other hOther _
    rw [hWritten] at hOther
    cases hOther
    exact hPasses
  · exact iff_of_true rfl ⟨bytes, hWritten, hPasses⟩

/- One item is written after another. -/
theorem append
    {front : Except TableError Bytes}
    {back : Bytes → Except TableError Bytes}
    (hFront : cursor.Rewrites middle first front)
    (hBack :
      ∀ bytes, middle.Rewrites next second (back bytes)) :
    cursor.Rewrites next (first.add second) (do
      let bytes ← front
      let more ← back bytes
      return bytes ++ more) := by
  have hWritten {all : Bytes} :
      (do
        let bytes ← front
        let more ← back bytes
        return bytes ++ more) = .ok all ↔
        ∃ bytes more,
          front = .ok bytes ∧
          back bytes = .ok more ∧
          bytes ++ more = all := by
    simp only [bind_eq_ok_iff, pure, Except.pure,
      Except.ok.injEq]
    constructor
    · rintro ⟨bytes, hBytes, more, hMore, hAll⟩
      exact ⟨bytes, more, hBytes, hMore, hAll⟩
    · rintro ⟨bytes, more, hBytes, hMore, hAll⟩
      exact ⟨bytes, hBytes, more, hMore, hAll⟩
  have hAligned {bytes more : Bytes}
      (hBytes : front = .ok bytes)
      (hMore : back bytes = .ok more)
      (hPrefix : bytes ++ more <+: cursor.rest) :
      cursor.Passes bytes middle ∧
        middle.Passes more next := by
    have hFirst :=
      hFront.aligned bytes hBytes
        ((List.prefix_append bytes more).trans hPrefix)
    rw [hFirst.rest, List.prefix_append_right_inj] at hPrefix
    exact ⟨hFirst, (hBack bytes).aligned more hMore hPrefix⟩
  constructor
  · intro all hAll hPrefix
    rcases hWritten.mp hAll with
      ⟨bytes, more, hBytes, hMore, rfl⟩
    rcases hAligned hBytes hMore hPrefix with
      ⟨hFirst, hSecond⟩
    exact hFirst.trans hSecond
  · rw [Leniency.add_eq_none_iff]
    constructor
    · rintro ⟨hFirstNone, hSecondNone⟩
      rcases hFront.eq_none_iff.mp hFirstNone with
        ⟨bytes, hBytes, hFirst⟩
      rcases (hBack bytes).eq_none_iff.mp hSecondNone with
        ⟨more, hMore, hSecond⟩
      exact ⟨bytes ++ more,
        hWritten.mpr ⟨bytes, more, hBytes, hMore, rfl⟩,
        hFirst.trans hSecond⟩
    · rintro ⟨all, hAll, hPasses⟩
      rcases hWritten.mp hAll with
        ⟨bytes, more, hBytes, hMore, rfl⟩
      have hPrefix : bytes ++ more <+: cursor.rest := by
        rw [hPasses.rest]
        exact List.prefix_append _ _
      rcases hAligned hBytes hMore hPrefix with
        ⟨hFirst, hSecond⟩
      exact ⟨hFront.eq_none_iff.mpr ⟨bytes, hBytes, hFirst⟩,
        (hBack bytes).eq_none_iff.mpr ⟨more, hMore, hSecond⟩⟩

/- Items of one sort are written one after the other. -/
theorem times
    {α : Type}
    {audit :
      Cursor → Except TableError ((α × Leniency) × Cursor)}
    {write : α → Except TableError Bytes}
    {n : Nat}
    {items : List (α × Leniency)}
    (hEach :
      ∀ {cursor item next},
        audit cursor = .ok (item, next) →
        cursor.Rewrites next item.2 (write item.1))
    (hTimes :
      Cursor.times audit n cursor = .ok (items, next)) :
    cursor.Rewrites next (.sum (items.map (·.2))) (do
      let pieces ← (items.map (·.1)).mapM write
      return pieces.flatten) := by
  induction n generalizing cursor items with
  | zero =>
      cases hTimes
      exact of_passes rfl (.refl _)
  | succ n ih =>
      simp only [Cursor.times, bind_eq_ok_iff] at hTimes
      rcases hTimes with
        ⟨⟨item, middle⟩, hItem, ⟨others, last⟩, hOthers,
          hPure⟩
      cases hPure
      have hAll :=
        (hEach hItem).append fun _ => ih hOthers
      simp only [bind_assoc, pure_bind] at hAll
      simpa only [List.map_cons, List.mapM_cons, bind_assoc,
        pure_bind, List.flatten_cons, Leniency.sum_cons]
        using hAll

end Cursor.Rewrites

------------------------------------------------------------
-- Nested Tables
------------------------------------------------------------

/-
  Some bytes are what is written for a table exactly if their
  fields are.
-/
theorem Bytes.IsEntity.encodeTable_iff
    {bytes : Bytes}
    {layout : Layout}
    {values : List Value}
    (hEntity : bytes.IsEntity) :
    (∃ encoded,
      encodeTable layout values = .ok encoded ∧
        encoded.bytes = bytes) ↔
      ∃ offsets,
        encodeFields layout.name layout.fields sizeWidth
            values =
          .ok (bytes.drop sizeWidth, offsets) := by
  constructor
  · rintro ⟨encoded, hEncode, rfl⟩
    rcases encodeTable_eq_ok hEncode with
      ⟨body, hBody, -, rfl⟩
    exact ⟨encoded.offsets, hBody⟩
  · rintro ⟨offsets, hBody⟩
    refine ⟨⟨bytes, offsets⟩, ?_, rfl⟩
    rw [encodeTable, hBody, ok_bind, sealTable_eq_ok_iff,
      hEntity.length_behind_size]
    exact ⟨hEntity.length_lt, hEntity.eq_size_append, rfl⟩

/- The same for a nested table. -/
theorem Bytes.IsEntity.encodeRow_eq_ok_iff
    {bytes : Bytes}
    {name : String}
    {fields : List Field}
    {row : List Value}
    (hEntity : bytes.IsEntity) :
    encodeRow name fields row = .ok bytes ↔
      ∃ offsets,
        encodeFields name fields sizeWidth row =
          .ok (bytes.drop sizeWidth, offsets) := by
  have hTable :=
    @Bytes.IsEntity.encodeTable_iff bytes
      (.table name fields) row hEntity
  refine Iff.trans ?_ hTable
  rw [encodeRow, bind_eq_ok_iff]
  simp only [pure, Except.pure, Except.ok.injEq]

/- A nested table is written again as its fields are. -/
theorem rewrites_nested
    {name : String}
    {fields : List Field}
    {audit :
      Cursor →
      Except TableError (List ReadField × Leniency)}
    {cursor next : Cursor}
    {row : List Value}
    {leniency : Leniency}
    (hFields :
      ∀ {cursor found leniency},
        audit cursor = .ok (found, leniency) →
        (leniency = .none ↔
          ∃ offsets,
            encodeFields name fields sizeWidth
                (found.map (·.value)) =
              .ok (cursor.rest, offsets)))
    (hAudit :
      auditNested name audit cursor =
        .ok ((row, leniency), next)) :
    cursor.Rewrites next leniency
      (encodeRow name fields row) := by
  simp only [auditNested, bind_eq_ok_iff] at hAudit
  rcases hAudit with ⟨size, hSize, ⟨found, _⟩, hFound, hPure⟩
  cases hPure
  rcases (readSize_yields name "size"
      cursor.rest).returned size hSize with
    ⟨hWide, hEnough, hDeclared⟩
  have hEntity := isEntity_take hWide hEnough hDeclared
  have hLength : (cursor.rest.take size).length = size :=
    List.length_take_of_le hEnough
  have hPasses :
      cursor.Passes (cursor.rest.take size)
        ⟨cursor.position + size, cursor.rest.drop size⟩ := by
    constructor
    · exact (List.take_append_drop size _).symm
    · rw [hLength]
  constructor
  · intro piece hPiece hPrefix
    have hWhole := encodeRow_isEntity hPiece
    rcases hPrefix with ⟨rest, hRest⟩
    rw [← hRest, hWhole.declaredSize_append] at hDeclared
    have hSame : piece = cursor.rest.take size := by
      rw [← hRest, ← hDeclared, List.take_left]
    rw [hSame]
    exact hPasses
  · rw [hFields hFound, Cursor.start,
      ← hEntity.encodeRow_eq_ok_iff]
    constructor
    · intro hRow
      exact ⟨_, hRow, hPasses⟩
    · rintro ⟨piece, hRow, hPiece⟩
      rw [hPasses.unique hPiece]
      exact hRow

------------------------------------------------------------
-- Fields
------------------------------------------------------------

/- What an audit finds fits its field. -/
theorem FieldKind.fits_of_audit
    {table name : String}
    {kind : FieldKind}
    {cursor next : Cursor}
    {value : Value}
    {leniency : Leniency}
    (hPositive : kind.isPositive)
    (hAudit :
      kind.audit table name cursor =
        .ok ((value, leniency), next)) :
    kind.Fits value := by
  have hRead := kind.read_eq_audit table name cursor
  rw [hAudit] at hRead
  exact
    (kind.read_yields table name hPositive cursor).returned
      _ hRead

/- A field without nested tables is written as it was read. -/
theorem FieldKind.rewrites_plain
    {table name : String}
    {kind : FieldKind}
    {cursor next : Cursor}
    {value : Value}
    {leniency : Leniency}
    (hPlain : ∀ fields, kind ≠ .tables fields)
    (hAudit :
      kind.audit table name cursor =
        .ok ((value, leniency), next)) :
    cursor.Rewrites next leniency
      (kind.encode table name value) := by
  have hRead := kind.read_eq_audit table name cursor
  rw [hAudit] at hRead
  rcases FieldKind.encode_of_read_plain hPlain hRead with
    ⟨bytes, hBytes, hPasses⟩
  have hNone : leniency = .none := by
    cases kind with
    | tables fields => exact absurd rfl (hPlain fields)
    | _ =>
        simp only [FieldKind.audit, bind_eq_ok_iff] at hAudit
        rcases hAudit with ⟨plain, -, hPure⟩
        cases hPure
        rfl
  rw [hNone]
  exact .of_passes hBytes hPasses

mutual

/- A field is written again as its nested tables are. -/
theorem FieldKind.rewrites
    {table name : String}
    (kind : FieldKind)
    {cursor next : Cursor}
    {value : Value}
    {leniency : Leniency}
    (hPositive : kind.isPositive)
    (hAudit :
      kind.audit table name cursor =
        .ok ((value, leniency), next)) :
    cursor.Rewrites next leniency
      (kind.encode table name value) := by
  have hFits := FieldKind.fits_of_audit hPositive hAudit
  match kind with
  | .tables fields =>
      simp only [FieldKind.audit, bind_eq_ok_iff] at hAudit
      rcases hAudit with
        ⟨⟨n, middle⟩, hCount, ⟨rows, last⟩, hTimes, hPure⟩
      cases hPure
      rcases Cursor.count_eq_ok hCount with ⟨hBound, hPasses⟩
      have hFit :
          ∀ row ∈ rows.map (·.1), RowFits fields row := by
        cases hFits with
        | tables hFit => exact hFit
      have hLength :
          (rows.map (·.1)).length = n := by
        rw [List.length_map, Cursor.length_of_times hTimes]
      have hFront :
          cursor.Rewrites middle .none
            (encodeLength table name (rows.map (·.1)).length) :=
        .of_passes
          (by
            rw [hLength, encodeLength_eq_ok_iff]
            exact ⟨hBound, rfl⟩)
          hPasses
      have hRows :=
        Cursor.Rewrites.times
          (fun hRow => rewrites_nested
            (fun hFields =>
              auditFields_eq_none_iff fields hPositive
                sizeWidth hFields)
            hRow)
          hTimes
      have hAll := hFront.append fun _ => hRows
      rw [Leniency.none_add] at hAll
      simp only [bind_assoc, pure_bind] at hAll
      rw [FieldKind.encode_tables table name hFit]
      exact hAll
  | .u8 | .u16 | .u32 | .u64 | .fixed _ | .bytes | .array _
  | .entities =>
      exact FieldKind.rewrites_plain (fun _ => nofun) hAudit
  termination_by structural kind

theorem auditFields_eq_none_iff
    {table : String}
    (fields : List Field)
    {cursor : Cursor}
    {found : List ReadField}
    {leniency : Leniency}
    (hPositive : arePositive fields)
    (offset : Nat)
    (hAudit :
      auditFields table fields cursor =
        .ok (found, leniency)) :
    leniency = .none ↔
      ∃ offsets,
        encodeFields table fields offset
            (found.map (·.value)) =
          .ok (cursor.rest, offsets) := by
  match fields with
  | [] =>
      cases hAudit
      have hNothing :
          encodeFields table [] offset [] = .ok ([], []) :=
        rfl
      rw [List.map_nil, hNothing, Leniency.eq_none_iff,
        List.length_eq_zero_iff]
      constructor
      · rintro ⟨-, hEnd⟩
        rw [hEnd]
        exact ⟨[], rfl⟩
      · rintro ⟨offsets, hSame⟩
        have hEnd := congrArg Prod.fst (Except.ok.inj hSame)
        exact ⟨rfl, hEnd.symm⟩
  | ⟨name, kind⟩ :: fields =>
      rw [arePositive, Bool.and_eq_true] at hPositive
      rw [auditFields] at hAudit
      split at hAudit
      · -- What is absent would not be written as nothing.
        rename_i hEnd
        rw [bind_eq_ok_iff] at hAudit
        rcases hAudit with ⟨⟨rest, others⟩, hRest, hPure⟩
        cases hPure
        apply iff_of_false
        · rw [Leniency.add_eq_none_iff]
          rintro ⟨hNone, -⟩
          cases hNone
        · rintro ⟨offsets, hEncode⟩
          rw [List.map_cons, encodeFields_cons_eq_ok_iff]
            at hEncode
          rcases hEncode with
            ⟨bytes, more, later, hBytes, -, hNothing, -⟩
          rw [List.isEmpty_iff.mp hEnd, List.nil_eq_append_iff]
            at hNothing
          exact kind.default_fits.encode_ne_nil hPositive.1
            hBytes hNothing.1
      · simp only [bind_eq_ok_iff] at hAudit
        rcases hAudit with
          ⟨⟨⟨value, first⟩, next⟩, hFirst, ⟨rest, others⟩,
            hRest, hPure⟩
        cases hPure
        have hValue :=
          FieldKind.rewrites kind hPositive.1 hFirst
        have hOthers (start : Nat) :=
          auditFields_eq_none_iff fields hPositive.2 start
            hRest
        rw [Leniency.add_eq_none_iff]
        constructor
        · rintro ⟨hNone, hRestNone⟩
          rcases hValue.eq_none_iff.mp hNone with
            ⟨bytes, hBytes, hPasses⟩
          rcases (hOthers _).mp hRestNone with
            ⟨later, hMore⟩
          refine ⟨offset :: later, ?_⟩
          rw [List.map_cons, encodeFields_cons_eq_ok_iff]
          exact ⟨bytes, _, later, hBytes, hMore, hPasses.rest,
            rfl⟩
        · rintro ⟨offsets, hEncode⟩
          rw [List.map_cons, encodeFields_cons_eq_ok_iff]
            at hEncode
          rcases hEncode with
            ⟨bytes, more, later, hBytes, hMore, hAll, -⟩
          have hPasses :=
            hValue.aligned bytes hBytes ⟨more, hAll.symm⟩
          have hSame : more = next.rest := by
            rw [hPasses.rest] at hAll
            exact (List.append_cancel_left hAll).symm
          rw [hSame] at hMore
          exact ⟨hValue.eq_none_iff.mpr
              ⟨bytes, hBytes, hPasses⟩,
            (hOthers _).mpr ⟨later, hMore⟩⟩
  termination_by structural fields

end

------------------------------------------------------------
-- Whole Tables
------------------------------------------------------------

/- A slot takes the value of a row that fits. -/
theorem RowFits.exists_set
    {values : List Value}
    {slot : Nat}
    {value : Value}
    {writer : TableWriter}
    (hFits : RowFits writer.layout.fields values)
    (hValue : values[slot]? = some value) :
    ∃ next, writer.set slot value = .ok next := by
  have hRange : slot < writer.layout.fields.length := by
    rw [← hFits.length_eq]
    exact (List.getElem?_eq_some_iff.mp hValue).1
  have hField :
      writer.layout.field? slot =
        some writer.layout.fields[slot] :=
    List.getElem?_eq_getElem hRange
  rcases hFits.getElem? hField with ⟨other, hOther, hFit⟩
  rw [hValue] at hOther
  cases hOther
  exact ⟨_, TableWriter.set_eq_ok_iff.mpr
    ⟨_, hField, hFit, rfl⟩⟩

/- What is written for values that fit is read with all fields. -/
theorem RowFits.readTable_again
    {layout : Layout}
    {values : List Value}
    {encoded : EncodedTable}
    (hFits : RowFits layout.fields values)
    (hPositive : arePositive layout.fields)
    (hEncode : encodeTable layout values = .ok encoded) :
    ∃ again,
      readTable layout encoded.bytes = .ok again ∧
      again.values = values ∧
      ∀ slot < layout.fieldCount, again.isPresent slot := by
  have hRead :=
    hFits.readTable_of_encodeTable hPositive hEncode []
  rw [List.append_nil] at hRead
  rcases encodeTable_eq_ok hEncode with ⟨body, hBody, -, -⟩
  have hOffsets := hFits.length_offsets hBody
  refine ⟨_, hRead, presentFields_values hOffsets, ?_⟩
  intro slot hSlot
  have hRange : slot < encoded.offsets.length := by
    rw [hOffsets, hFits.length_eq]
    exact hSlot
  rw [DecodedTable.isPresent,
    offset?_presentFields layout _ slot hOffsets,
    List.getElem?_eq_getElem hRange]
  rfl

/-
  An audit that finds nothing overlooked is one of the bytes
  that are written for the values.
-/
theorem auditTable_eq_none_iff
    {layout : Layout}
    {buffer : Bytes}
    {table : DecodedTable}
    {leniency : Leniency}
    (hPositive : arePositive layout.fields)
    (hAudit :
      auditTable layout buffer = .ok (table, leniency)) :
    leniency = .none ↔
      ∃ encoded,
        encodeTable layout table.values = .ok encoded ∧
          encoded.bytes = buffer.take table.size := by
  simp only [auditTable, bind_eq_ok_iff] at hAudit
  rcases hAudit with
    ⟨size, hSize, ⟨found, _⟩, hFound, hPure⟩
  cases hPure
  rcases (readSize_yields layout.name "size"
      buffer).returned size hSize with
    ⟨hWide, hEnough, hDeclared⟩
  have hEntity := isEntity_take hWide hEnough hDeclared
  rw [hEntity.encodeTable_iff]
  exact auditFields_eq_none_iff layout.fields hPositive
    sizeWidth hFound

/-
  Whatever is read from any buffer can be set again, slot by
  slot.  A writer that holds the values that were read fails
  only on a length, and what it writes reads as the same
  values, all present.  It writes the bytes that were read
  exactly if no field was absent and no byte was ignored, in
  the table or in any table nested in it.
-/
theorem readTable_rewritten
    {layout : Layout}
    {buffer : Bytes}
    {table : DecodedTable}
    (hPositive : arePositive layout.fields)
    (hRead : readTable layout buffer = .ok table) :
    table.values.length = layout.fieldCount ∧
    (∀ (writer : TableWriter) slot value,
      writer.layout = layout →
      table.values[slot]? = some value →
      ∃ next, writer.set slot value = .ok next) ∧
    (∃ writer,
      (TableWriter.empty layout).setFrom 0 table.values =
        .ok writer ∧
      writer.layout = layout ∧
      writer.filled = table.values) ∧
    ∃ leniency,
      auditTable layout buffer = .ok (table, leniency) ∧
      ∀ writer : TableWriter,
        writer.layout = layout →
        writer.filled = table.values →
        (∀ cause,
          writer.finish = .error cause →
          ∃ table field length,
            cause = .lengthOverflow table field length ∧
            0x100000000 ≤ length) ∧
        (∀ encoded,
          writer.finish = .ok encoded →
          (∃ again,
            readTable layout encoded.bytes = .ok again ∧
            again.values = table.values ∧
            ∀ slot < layout.fieldCount,
              again.isPresent slot) ∧
          (encoded.bytes = buffer.take table.size ↔
            leniency.absent = 0 ∧ leniency.ignored = 0)) ∧
        (leniency.absent = 0 ∧ leniency.ignored = 0 →
          ∃ encoded, writer.finish = .ok encoded) := by
  rcases (readTable_yields layout hPositive buffer).returned
      table hRead with
    ⟨-, hFits⟩
  have hSame := readTable_eq_auditTable layout buffer
  rw [hRead] at hSame
  refine ⟨hFits.length_eq, ?_, ?_, ?_⟩
  · rintro writer slot value rfl hValue
    exact hFits.exists_set hValue
  · exact ⟨_, TableWriter.setFrom_empty hFits, rfl,
      TableWriter.filled_of_all_set hFits.length_eq⟩
  · cases hAudit : auditTable layout buffer with
    | error cause =>
        rw [hAudit] at hSame
        cases hSame
    | ok audited =>
        rw [hAudit] at hSame
        cases hSame
        refine ⟨audited.2, rfl, ?_⟩
        intro writer hLayout hFilled
        have hStrict := auditTable_eq_none_iff hPositive hAudit
        rw [Leniency.eq_none_iff] at hStrict
        rw [hStrict, TableWriter.finish, hLayout, hFilled]
        refine ⟨?_, ?_, ?_⟩
        · intro cause hError
          exact (hFits.encodeTable_error hError).exists_length
        · intro encoded hEncode
          refine ⟨hFits.readTable_again hPositive hEncode, ?_⟩
          constructor
          · exact fun hBytes => ⟨encoded, hEncode, hBytes⟩
          · rintro ⟨other, hOther, hBytes⟩
            rw [hEncode] at hOther
            cases hOther
            exact hBytes
        · rintro ⟨encoded, hEncode, -⟩
          exact ⟨encoded, hEncode⟩

/-
  Three rows: one as it is written, one that ends before its
  second field, and one with two bytes behind it.  As many
  bytes are missing as are too many, but they are not the
  bytes that are written.
-/
theorem readTable_rewritten_rows :
    let layout : Layout :=
      .table "Order"
        [⟨"tag", .u8⟩,
          ⟨"rows", .tables [⟨"key", .u8⟩, ⟨"note", .u16⟩]⟩]
    let buffer : Bytes :=
      [30, 0, 0, 0, 9, 3, 0, 0, 0] ++
        [7, 0, 0, 0, 1, 2, 0] ++
        [5, 0, 0, 0, 3] ++
        [9, 0, 0, 0, 4, 5, 0, 8, 8]
    let table : DecodedTable := {
      layout := layout
      fields :=
        [⟨.u8 9, some 4⟩,
          ⟨.tables
            [[.u8 1, .u16 2], [.u8 3, .u16 0], [.u8 4, .u16 5]],
            some 5⟩]
      size := 30 }
    let writer : TableWriter :=
      ⟨layout, table.values.map some⟩
    let written : Bytes :=
      [30, 0, 0, 0, 9, 3, 0, 0, 0] ++
        [7, 0, 0, 0, 1, 2, 0] ++
        [7, 0, 0, 0, 3, 0, 0] ++
        [7, 0, 0, 0, 4, 5, 0]
    arePositive layout.fields ∧
    readTable layout buffer = .ok table ∧
    auditTable layout buffer = .ok (table, ⟨1, 2⟩) ∧
    writer.finish = .ok ⟨written, [4, 5]⟩ ∧
    written ≠ buffer.take table.size := by
  intro layout buffer table writer written
  have hPositive : arePositive layout.fields := by
    decide
  have hRead : readTable layout buffer = .ok table := rfl
  have hCounts :
      (auditTable layout buffer).toOption.map (·.2) =
        some ⟨1, 2⟩ := by
    decide +kernel
  have hFinish : writer.finish = .ok ⟨written, [4, 5]⟩ := by
    decide +kernel
  rcases readTable_rewritten hPositive hRead with
    ⟨-, -, -, leniency, hAudit, hWriter⟩
  rw [hAudit] at hCounts
  cases hCounts
  rcases hWriter writer rfl rfl with ⟨-, hWritten, -⟩
  refine ⟨hPositive, hRead, hAudit, hFinish, ?_⟩
  intro hSame
  exact nomatch ((hWritten _ hFinish).2.mp hSame).1

end DriveMarket
