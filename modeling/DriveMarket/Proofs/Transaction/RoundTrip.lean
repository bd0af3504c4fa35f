import DriveMarket.Proofs.Transaction.Lengths

/-
  Transactions are read back as they were written, and are
  refused only for what cannot be written.

  A transaction is written as its front, which ends with the
  signed fields, and the tail behind it.  Whatever follows the
  front is read without changing what the front says.

  Key definitions include:
    * `readCosignatures`
    * `Transaction.WritesFront`

  Correctness is proven by:
    * `Transaction.WritesFront.decode_eq`
    * `Transaction.exists_writesFront`
    * `Transaction.codec_correct`
-/

namespace DriveMarket

------------------------------------------------------------
-- The Signed Fields of a Body
------------------------------------------------------------

/- The cosignatures in a slot, which only aggregates have. -/
def readCosignatures
    (kind : TransactionKind)
    (record : Record)
    (slot : Nat) : Except TransactionError (List Cosignature) :=
  match kind with
  | .operation _ => .ok []
  | .aggregate _ => do
      let rows ← record.rows slot
      rows.mapM Cosignature.ofRecord

/-
  A body is found again in any record that has its signed
  values from some slot on, with the cosignatures of the slot
  behind them.
-/
theorem Body.ofRecord_of_get
    {body : Body}
    {values : List Value}
    (record : Record)
    (start : Nat)
    (hValues : body.signedValues = .ok values)
    (hGet :
      ∀ i {field value},
        (Layout.signedBody body.kind)[i]? = some field →
        values[i]? = some value →
        record.get (start + i) = .ok (field, value)) :
    ofRecord body.kind record start = (do
      let cosignatures ←
        readCosignatures body.kind record (start + 1)
      return body.withCosignatures cosignatures) := by
  cases body with
  | operation content =>
      cases hValues
      have hContent := content.ofRecord_of_get record start hGet
      rw [kind, ofRecord, hContent]
      rfl
  | aggregate form content =>
      rw [signedValues, bind_eq_ok_iff] at hValues
      rcases hValues with ⟨entities, hEntities, hPure⟩
      cases hPure
      have hField : record.entities start = .ok entities :=
        Record.view_of_get (hGet 0 rfl rfl) rfl
      have hTransactions :
          entities.mapM Embedded.decode =
            .ok content.transactions :=
        mapM_inverse
          (fun embedded bytes => Embedded.decode_of_encode)
          hEntities
      rw [kind, ofRecord, hField]
      simp only [liftM_table_ok, ok_bind, hTransactions,
        readCosignatures, bind_assoc]
      rfl

------------------------------------------------------------
-- Whole Transactions
------------------------------------------------------------

namespace Transaction

/- The header of a transaction tells its kind. -/
theorem readKind_of_encode
    {signature : Signature}
    {signer : PublicKey}
    {kind : TransactionKind}
    {network : Network}
    {word : UInt32}
    {maxFee deadline : UInt64}
    {more : List Field}
    {others : List Value}
    {name : String}
    {buffer front rest : Bytes}
    {offsets : List Nat}
    (hUnpack :
      VersionWord.unpack word =
        (network.byte, kind.version.toNat))
    (hEncode :
      encodeFields name (Layout.headerFields ++ more)
          sizeWidth
          ([signature.field, signer.field, .u32 word,
            .u16 kind.tag, .u64 maxFee, .u64 deadline] ++
            others) =
        .ok (front, offsets))
    (hEntity : buffer.IsEntity)
    (hBuffer : buffer.drop sizeWidth = front ++ rest) :
    readKind buffer = .ok (kind, network) := by
  have hFits :
      RowFits Layout.headerFields
        [signature.field, signer.field, .u32 word,
          .u16 kind.tag, .u64 maxFee, .u64 deadline] :=
    .cons signature.field_fits
      (.cons signer.field_fits
        (.cons (.u32 _)
          (.cons (.u16 _)
            (.cons (.u64 _) (.cons (.u64 _) .nil)))))
  rcases RowFits.readTable_record .headerOnly hFits rfl
      hEncode hEntity hBuffer with
    ⟨header, hRead, hSize, hRecord⟩
  have hTags :
      readTags HeaderSlot.version HeaderSlot.type
          header.record =
        .ok (kind, network) := by
    rw [hRecord]
    exact readTags_of_get _ hUnpack rfl rfl
  rw [readKind, hRead]
  simp only [liftM_table_ok, ok_bind,
    requireExactSize_of_eq hSize, hTags]

/- The record of a transaction, given the values of its body. -/
def record
    (tx : Transaction)
    (values : List Value) : Record :=
  { name := tx.kind.name
    fields := (Layout.ofKind tx.kind).fields
    values := tx.headerValues ++ values }

/- The header stands in front of any record. -/
theorem record_header
    (tx : Transaction)
    (values : List Value) :
    (tx.record values).fixed 64 HeaderSlot.signature =
        .ok tx.header.signature ∧
      (tx.record values).fixed 32 HeaderSlot.signer =
        .ok tx.header.signer ∧
      (tx.record values).u64 HeaderSlot.maxFee =
        .ok tx.header.maxFee.value ∧
      (tx.record values).u64 HeaderSlot.deadline =
        .ok tx.header.deadline.value :=
  ⟨Record.fixed_of_get rfl, Record.fixed_of_get rfl, rfl,
    rfl⟩

/-
  A transaction is written with these values, bytes and
  offsets in front of its cosignatures.
-/
structure WritesFront
    (tx : Transaction)
    (values : List Value)
    (front : Bytes)
    (offsets : List Nat) : Prop where
  signed : tx.body.signedValues = .ok values
  encode :
    encodeFields tx.kind.name
        (Layout.headerFields ++ Layout.signedBody tx.kind)
        sizeWidth (tx.headerValues ++ values) =
      .ok (front, offsets)

variable {tx : Transaction}
variable {values : List Value}
variable {front : Bytes}
variable {offsets : List Nat}

namespace WritesFront

theorem fits
    (hFront : tx.WritesFront values front offsets) :
    RowFits
      (Layout.headerFields ++ Layout.signedBody tx.kind)
      (tx.headerValues ++ values) :=
  tx.headerValues_fit.append
    (Body.signedValues_fit hFront.signed)

theorem readKind_eq
    {buffer rest : Bytes}
    (hFront : tx.WritesFront values front offsets)
    (hEntity : buffer.IsEntity)
    (hBuffer : buffer.drop sizeWidth = front ++ rest) :
    readKind buffer = .ok (tx.kind, tx.header.network) :=
  readKind_of_encode (VersionWord.unpack_pack _ _)
    hFront.encode hEntity hBuffer

/- What is read of a table that starts with the front. -/
theorem readTable_eq
    {buffer rest : Bytes}
    (hFront : tx.WritesFront values front offsets)
    (hEntity : buffer.IsEntity)
    (hBuffer : buffer.drop sizeWidth = front ++ rest) :
    readTable (.ofKind tx.kind) buffer = (do
      let later ←
        readFields tx.kind.name (Layout.tail tx.kind)
          ⟨sizeWidth + front.length, rest⟩
      return {
        layout := .ofKind tx.kind
        fields :=
          presentFields (tx.headerValues ++ values) offsets ++
            later
        size := buffer.length }) := by
  have hPositive :
      arePositive
        (Layout.headerFields ++
          Layout.signedBody tx.kind) := by
    rw [arePositive_append, Bool.and_eq_true]
    exact ⟨rfl, Layout.arePositive_signedBody tx.kind⟩
  exact hFront.fits.readTable_front hPositive
    (Layout.ofKind_fields tx.kind) hFront.encode hEntity
    hBuffer

/- The record of such a table, whatever follows the front. -/
theorem record_eq
    {size : Nat}
    {later : List ReadField}
    (hFront : tx.WritesFront values front offsets) :
    DecodedTable.record {
        layout := .ofKind tx.kind
        fields :=
          presentFields (tx.headerValues ++ values) offsets ++
            later
        size := size } =
      tx.record (values ++ later.map (·.value)) := by
  have hLength := hFront.fits.length_offsets hFront.encode
  simp only [DecodedTable.record, DecodedTable.values,
    List.map_append, presentFields_values hLength,
    List.append_assoc]
  rfl

/- The body is found again with the cosignatures behind it. -/
theorem ofRecord_eq
    (hFront : tx.WritesFront values front offsets)
    (others : List Value) :
    Body.ofRecord tx.kind (tx.record (values ++ others))
        (Layout.ofKind tx.kind).bodyStart = (do
      let cosignatures ←
        readCosignatures tx.kind (tx.record (values ++ others))
          Layout.cosignatureSlot
      return tx.body.withCosignatures cosignatures) := by
  apply Body.ofRecord_of_get _ _ hFront.signed
  intro i field value hField hValue
  rw [record, Layout.ofKind_fields, List.append_assoc]
  exact Record.get_between _ rfl hField hValue

/-
  A buffer that starts with the front of a transaction is read
  as that transaction, with the cosignatures that follow.
-/
theorem decode_eq
    {buffer rest : Bytes}
    (hFront : tx.WritesFront values front offsets)
    (hEntity : buffer.IsEntity)
    (hBuffer : buffer.drop sizeWidth = front ++ rest) :
    decode buffer = (do
      let later ←
        (readFields tx.kind.name (Layout.tail tx.kind)
          ⟨sizeWidth + front.length, rest⟩).mapError .table
      let cosignatures ←
        readCosignatures tx.kind
          (tx.record (values ++ later.map (·.value)))
          Layout.cosignatureSlot
      return tx.withCosignatures cosignatures) := by
  rw [decode, hFront.readKind_eq hEntity hBuffer]
  simp only [ok_bind]
  rw [hFront.readTable_eq hEntity hBuffer]
  cases readFields tx.kind.name (Layout.tail tx.kind)
      ⟨sizeWidth + front.length, rest⟩ with
  | error cause => rfl
  | ok later =>
      rcases tx.record_header
          (values ++ later.map (·.value)) with
        ⟨hSignature, hSigner, hFee, hDeadline⟩
      simp only [ok_bind, pure, Except.pure, liftM_table_ok,
        hFront.record_eq, mapError_ok, hSignature, hSigner,
        hFee, hDeadline, hFront.ofRecord_eq, bind_assoc]
      rfl

/- The cosignatures of a transaction are found again. -/
theorem readCosignatures_eq
    (hFront : tx.WritesFront values front offsets) :
    readCosignatures tx.kind
        (tx.record (values ++ tx.body.tailValues))
        Layout.cosignatureSlot =
      .ok tx.body.cosignatures := by
  have hSigned := hFront.signed
  rcases tx with ⟨header, body⟩
  cases body with
  | operation content => rfl
  | aggregate form content =>
      rw [Body.signedValues, bind_eq_ok_iff] at hSigned
      rcases hSigned with ⟨entities, -, hPure⟩
      cases hPure
      have hRows :
          Record.rows
              (record ⟨header, .aggregate form content⟩
                ([.entities entities] ++
                  Body.tailValues (.aggregate form content)))
              Layout.cosignatureSlot =
            .ok ((content.cosignatures.map (·.row)).map
              (Record.mk "cosignatures"
                Layout.cosignatureFields)) :=
        Record.rows_of_get rfl
      rw [kind, Body.kind, readCosignatures, hRows]
      exact mapM_ofRecord "cosignatures" content.cosignatures
        (Cosignature.ofRecord_row "cosignatures")

end WritesFront

/- All values of a transaction fit its layout. -/
theorem values_fit
    (hSigned : tx.body.signedValues = .ok values) :
    RowFits (Layout.ofKind tx.kind).fields
      (tx.headerValues ++
        (values ++ tx.body.tailValues)) := by
  have hFront :
      RowFits
        (Layout.headerFields ++ Layout.signedBody tx.kind)
        (tx.headerValues ++ values) :=
    tx.headerValues_fit.append (Body.signedValues_fit hSigned)
  rw [Layout.ofKind_fields, ← List.append_assoc]
  exact hFront.append tx.body.tailValues_fit

/- A transaction is written as its front and its tail. -/
theorem exists_writesFront
    {table : EncodedTable}
    (hEncode : tx.encodeTable = .ok table) :
    ∃ values front offsets later starts,
      tx.WritesFront values front offsets ∧
      encodeFields tx.kind.name (Layout.tail tx.kind)
          (sizeWidth + front.length) tx.body.tailValues =
        .ok (later, starts) ∧
      table.bytes.IsEntity ∧
      table.bytes.drop sizeWidth = front ++ later ∧
      table.offsets = offsets ++ starts := by
  rw [encodeTable, Body.values_eq] at hEncode
  simp only [bind_eq_ok_iff, pure, Except.pure,
    Except.ok.injEq] at hEncode
  rcases hEncode with ⟨_, ⟨values, hSigned, rfl⟩, hTable⟩
  have hFront :
      RowFits
        (Layout.headerFields ++ Layout.signedBody tx.kind)
        (tx.headerValues ++ values) :=
    tx.headerValues_fit.append (Body.signedValues_fit hSigned)
  rcases encodeTable_eq_ok
      (encodeLayout_eq_ok (values_fit hSigned) hTable) with
    ⟨body, hFields, hEntity, hDrop⟩
  rw [Layout.ofKind_fields, ← List.append_assoc,
    hFront.encodeFields_append] at hFields
  simp only [bind_eq_ok_iff, pure, Except.pure,
    Except.ok.injEq, Prod.mk.injEq] at hFields
  rcases hFields with
    ⟨⟨front, offsets⟩, hFrontFields, ⟨later, starts⟩,
      hTail, rfl, hOffsets⟩
  exact ⟨values, front, offsets, later, starts,
    ⟨hSigned, hFrontFields⟩, hTail, hEntity, hDrop,
    hOffsets.symm⟩

/- The tail of a transaction is read back. -/
theorem readTail_eq
    {offset : Nat}
    {later : Bytes}
    {starts : List Nat}
    (hTail :
      encodeFields tx.kind.name (Layout.tail tx.kind) offset
          tx.body.tailValues =
        .ok (later, starts)) :
    readFields tx.kind.name (Layout.tail tx.kind)
        ⟨offset, later⟩ =
      .ok (presentFields tx.body.tailValues starts) := by
  have hFits :
      RowFits (Layout.tail tx.kind) tx.body.tailValues :=
    tx.body.tailValues_fit
  have hRead :=
    hFits.readFields_encode tx.kind.name
      (Layout.arePositive_tail tx.kind) hTail [] []
  simpa [readFields, pure, Except.pure] using hRead

/- A transaction is read back as it was written. -/
theorem decode_of_encodeTable
    {table : EncodedTable}
    (hEncode : tx.encodeTable = .ok table) :
    decode table.bytes = .ok tx := by
  rcases exists_writesFront hEncode with
    ⟨values, front, offsets, later, starts, hFront, hTail,
      hEntity, hDrop, -⟩
  have hLength := tx.body.tailValues_fit.length_offsets hTail
  rw [hFront.decode_eq hEntity hDrop, readTail_eq hTail]
  simp only [mapError_ok, ok_bind,
    presentFields_values hLength, hFront.readCosignatures_eq]
  rw [withCosignatures, Body.withCosignatures_cosignatures]
  rfl

theorem decode_of_encode
    {bytes : Bytes}
    (hEncode : tx.encode = .ok bytes) :
    decode bytes = .ok tx := by
  rw [encode, bind_eq_ok_iff] at hEncode
  rcases hEncode with ⟨table, hTable, hPure⟩
  cases hPure
  exact decode_of_encodeTable hTable

------------------------------------------------------------
-- The Codec
------------------------------------------------------------

/-
  Every transaction that is written, on its own or inside an
  aggregate, takes up the bytes that it says and is read back
  as it was.  It is written if it holds no aggregate inside
  and its counts, its nested tables and its total size stay
  below 32 bits.  What is refused has such an aggregate, or
  one of these lengths, which is told, is beyond 32 bits.
-/
theorem codec_correct
    (tx : Transaction)
    (embedded : Embedded) :
    (∀ bytes,
      tx.encode = .ok bytes →
      decode bytes = .ok tx ∧ bytes.length = tx.size) ∧
    (∀ bytes,
      embedded.encode = .ok bytes →
      Embedded.decode bytes = .ok embedded ∧
        bytes.length = embedded.size) ∧
    ((∃ bytes, tx.encode = .ok bytes) ↔
      (∀ inner ∈ tx.body.inner,
        ∃ content, inner.body = .operation content) ∧
      ∀ length ∈ tx.lengths, length.length < 0x100000000) ∧
    ((∃ bytes, embedded.encode = .ok bytes) ↔
      (∃ content, embedded.body = .operation content) ∧
      ∀ length ∈ embedded.lengths,
        length.length < 0x100000000) ∧
    (∀ cause,
      tx.encode = .error cause →
      (∃ form content inner innerForm innerContent,
        tx.body = .aggregate form content ∧
        inner ∈ content.transactions ∧
        inner.body = .aggregate innerForm innerContent ∧
        cause = .form (.notEmbeddable innerForm)) ∨
      (∃ length ∈ tx.lengths,
        cause =
          .table (.lengthOverflow length.table length.field
            length.length) ∧
        0x100000000 ≤ length.length)) ∧
    (∀ cause,
      embedded.encode = .error cause →
      (∃ form content,
        embedded.body = .aggregate form content ∧
        cause = .form (.notEmbeddable form)) ∨
      (∃ length ∈ embedded.lengths,
        cause =
          .table (.lengthOverflow length.table length.field
            length.length) ∧
        0x100000000 ≤ length.length)) := by
  refine ⟨?_, ?_, tx.exists_encode_iff,
    embedded.exists_encode_iff, ?_, ?_⟩
  · intro bytes hEncode
    exact ⟨decode_of_encode hEncode,
      tx.sized_encode.size_eq hEncode⟩
  · intro bytes hEncode
    exact ⟨Embedded.decode_of_encode hEncode,
      embedded.sized_encode.size_eq hEncode⟩
  · intro cause hError
    exact (encode_error hError).imp_right
      TransactionError.IsOverflow.exists_length
  · intro cause hError
    exact (Embedded.encode_error hError).imp_right
      TransactionError.IsOverflow.exists_length

/-
  An aggregate of one drive closure with one cosignature is
  small enough to be written, takes up 304 bytes and is read
  back; inside another one it is refused.
-/
theorem codec_correct_closure :
    let closure : Embedded := {
      signer := .zero 32
      network := .mijinTest
      body := .operation (.driveClosure ⟨.zero 32⟩) }
    let aggregate : Body := .aggregate .complete {
      transactions := [closure]
      cosignatures := [⟨.zero 32, .zero 64⟩] }
    let header := Header.unsigned .mijinTest ⟨0⟩ ⟨1⟩
    let nested : Body := .aggregate .bonded {
      transactions := [⟨.zero 32, .mijinTest, aggregate⟩]
      cosignatures := [] }
    (∃ bytes,
      encode ⟨header, aggregate⟩ = .ok bytes ∧
      decode bytes = .ok ⟨header, aggregate⟩ ∧
      bytes.length = 304) ∧
    (∃ bytes,
      closure.encode = .ok bytes ∧
      Embedded.decode bytes = .ok closure ∧
      bytes.length = 74) ∧
    encode ⟨header, nested⟩ =
      .error (.form (.notEmbeddable .complete)) ∧
    ∃ form content inner innerForm innerContent,
      nested = .aggregate form content ∧
      inner ∈ content.transactions ∧
      inner.body = .aggregate innerForm innerContent ∧
      TransactionError.form (.notEmbeddable .complete) =
        .form (.notEmbeddable innerForm) := by
  intro closure aggregate header nested
  have hNested :
      encode ⟨header, nested⟩ =
        .error (.form (.notEmbeddable .complete)) :=
    rfl
  rcases codec_correct ⟨header, aggregate⟩ closure with
    ⟨hAggregate, hClosure, hAggregateIff, hClosureIff, -⟩
  have hInner :
      ∀ inner ∈ [closure],
        ∃ content, inner.body = .operation content :=
    List.forall_mem_singleton.mpr ⟨_, rfl⟩
  rcases hAggregateIff.mpr ⟨hInner, by decide⟩ with
    ⟨bytes, hBytes⟩
  rcases hClosureIff.mpr ⟨⟨_, rfl⟩, by decide⟩ with
    ⟨inner, hInner⟩
  refine ⟨⟨bytes, hBytes, hAggregate bytes hBytes⟩,
    ⟨inner, hInner, hClosure inner hInner⟩, hNested, ?_⟩
  rcases codec_correct ⟨header, nested⟩ closure with
    ⟨-, -, -, -, hFails, -⟩
  rcases hFails _ hNested with hForm | ⟨length, -, hCause, -⟩
  · exact hForm
  · cases hCause

end Transaction

end DriveMarket
