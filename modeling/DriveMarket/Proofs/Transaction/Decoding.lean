import DriveMarket.Proofs.Table.Presence
import DriveMarket.Proofs.Transaction.Received
import DriveMarket.Proofs.Transaction.Refusals

/-
  Any bytes are read as a transaction or refused.

  A header is read from any table, with defaults for what is
  missing, but no kind has the default tag.  So whatever is
  accepted has its type in the buffer, and all that comes
  before it.

  Key definitions include:
    * `tagBytes`
    * `Transaction.head`
    * `Embedded.head`

  Correctness is proven by:
    * `readHeader_yields`
    * `Embedded.decode_yields`
    * `Transaction.decode_yields`
    * `Transaction.decode_fails_closed`
-/

namespace DriveMarket

------------------------------------------------------------
-- Tables
------------------------------------------------------------

/- A table is read as a record of its fields, or refused. -/
theorem liftM_readTable_yields
    (layout : Layout)
    (hPositive : arePositive layout.fields)
    (buffer : Bytes) :
    Yields
      (liftM (readTable layout buffer) :
        Except TransactionError DecodedTable)
      (fun table =>
        readTable layout buffer = .ok table ∧
          table.record =
            ⟨layout.name, layout.fields, table.values⟩ ∧
          table.record.WellTyped)
      TransactionError.RefusesBytes := by
  have hTable := (readTable_yields layout hPositive buffer).eq_ok
  refine (hTable.imp ?_ fun _ hCause => hCause).mapError
    fun _ hMalformed => hMalformed.refusesBytes
  rintro table ⟨hRead, rfl, hFits⟩
  exact ⟨hRead, rfl, hFits⟩

theorem requireExactSize_yields
    (header : DecodedTable)
    (buffer : Bytes) :
    Yields
      (liftM (requireExactSize header buffer) :
        Except TransactionError Unit)
      (fun _ => requireExactSize header buffer = .ok ())
      TransactionError.RefusesBytes := by
  unfold requireExactSize
  by_cases hSize : header.size = buffer.length
  · rw [if_pos hSize]
    exact .ok rfl
  · rw [if_neg hSize]
    exact .error trivial

------------------------------------------------------------
-- Tags in a Buffer
------------------------------------------------------------

/- The version word and the type of a header. -/
def tagFields : List Field :=
  [⟨"version", .u32⟩, ⟨"type", .u16⟩]

/- The values of these fields. -/
def tagValues
    (kind : TransactionKind)
    (network : Network) : List Value :=
  [.u32 (VersionWord.pack network kind.version),
    .u16 kind.tag]

/- These values as they are written. -/
def tagBytes
    (kind : TransactionKind)
    (network : Network) : Bytes :=
  LittleEndian.encode 4
      (VersionWord.pack network kind.version).toNat ++
    LittleEndian.encode 2 kind.tag.toNat

theorem TransactionKind.tag_ne_zero
    (kind : TransactionKind) : kind.tag ≠ 0 := by
  rcases kind with kind | form
  · cases kind <;> decide
  · cases form <;> decide

/-
  A header that is read on its own stands in the buffer up to
  its type, if all before its tags is of fixed width.
-/
theorem readHeader_yields
    {layout : Layout}
    {before more : List Field}
    (buffer : Bytes)
    (hLayout : layout.fields = before ++ (tagFields ++ more))
    (hPositive : arePositive layout.fields)
    (hFixed :
      ∀ field ∈ before ++ tagFields,
        field.kind.fixedWidth.isSome) :
    Yields
      (do
        let header ← readTable layout buffer
        requireExactSize header buffer
        readTags before.length (before.length + 1)
          header.record :
        Except TransactionError (TransactionKind × Network))
      (fun found =>
        ∃ values front,
          RowFits before values ∧
            buffer.HasFront (before ++ tagFields)
              (values ++ tagValues found.1 found.2) front)
      TransactionError.RefusesBytes := by
  refine (liftM_readTable_yields layout hPositive buffer).bind
    ?_
  rintro header ⟨hRead, hRecord, hTyped⟩
  refine (requireExactSize_yields header buffer).bind ?_
  rintro _ hExact
  have hVersion :
      layout.fields[before.length]? =
        some ⟨"version", .u32⟩ := by
    rw [hLayout, List.getElem?_append_right (Nat.le_refl _),
      Nat.sub_self]
    rfl
  have hType :
      layout.fields[before.length + 1]? =
        some ⟨"type", .u16⟩ := by
    rw [hLayout,
      List.getElem?_append_right (Nat.le_add_right _ _),
      Nat.add_sub_cancel_left]
    rfl
  rw [hRecord] at hTyped ⊢
  have hFits : RowFits layout.fields header.values := hTyped
  refine (readTags_yields hTyped hVersion hType).imp ?_
    fun _ hRefuses => hRefuses
  rintro ⟨kind, network⟩ ⟨hWord, hTag⟩
  have hFields :
      layout.fields.take (before.length + 1 + 1) =
        before ++ tagFields := by
    rw [hLayout, ← List.append_assoc, List.take_left']
    rw [List.length_append]
    rfl
  have hValues :
      header.values.take (before.length + 1 + 1) =
        header.values.take before.length ++
          tagValues kind network := by
    have hSecond : header.values[before.length + 1]? = _ := hTag
    have hFirst : header.values[before.length]? = _ := hWord
    rw [List.take_add_one, hSecond, List.take_add_one, hFirst,
      List.append_assoc]
    rfl
  have hDiffers : Value.u16 kind.tag ≠ .u16 0 := by
    intro hZero
    exact kind.tag_ne_zero (Value.u16.inj hZero)
  rcases readTable_present hRead
      (isEntity_of_exactSize hRead hExact) hFits hType hTag
      hDiffers (hFields ▸ hFixed) with
    ⟨front, hFront⟩
  rw [hFields, hValues] at hFront
  refine ⟨_, front, ?_, hFront⟩
  have hSeal := hFits.take before.length
  rw [hLayout, List.take_left] at hSeal
  exact hSeal

namespace Layout

theorem arePositive_bodyFields
    (kind : TransactionKind) :
    arePositive (bodyFields kind) := by
  rw [bodyFields_eq, arePositive_append,
    arePositive_signedBody, arePositive_tail]
  rfl

theorem arePositive_ofKind
    (kind : TransactionKind) :
    arePositive (ofKind kind).fields := by
  rw [fields, arePositive_append]
  exact arePositive_bodyFields kind

theorem arePositive_embeddedOfKind
    (kind : TransactionKind) :
    arePositive (embeddedOfKind kind).fields := by
  rw [fields, arePositive_append]
  exact arePositive_bodyFields kind

/- The fields of a body are found behind those of the header. -/
theorem getElem?_bodyStart
    {layout : Layout}
    {i : Nat}
    {field : Field}
    (hField : layout.body[i]? = some field) :
    layout.fields[layout.bodyStart + i]? = some field := by
  rw [fields, bodyStart,
    List.getElem?_append_right (Nat.le_add_right _ _),
    Nat.add_sub_cancel_left]
  exact hField

end Layout

/- The size and a front are what a buffer starts with. -/
theorem Bytes.HasFront.isPrefix
    {buffer front : Bytes}
    {fields : List Field}
    {values : List Value}
    (hFront : buffer.HasFront fields values front) :
    LittleEndian.encode sizeWidth buffer.length ++ front <+:
      buffer := by
  have hLeads := hFront.leads
  rw [← List.prefix_append_right_inj
    (LittleEndian.encode sizeWidth buffer.length),
    ← hFront.entity.eq_size_append] at hLeads
  exact hLeads

------------------------------------------------------------
-- Embedded Transactions
------------------------------------------------------------

namespace Embedded

/- An embedded transaction up to its type. -/
def head
    (embedded : Embedded)
    (size : Nat) : Bytes :=
  LittleEndian.encode sizeWidth size ++
    (embedded.signer.toList ++
      tagBytes embedded.kind embedded.network)

/- The header tells the kind, and stands behind the signer. -/
theorem readKind_yields
    (buffer : Bytes) :
    Yields (readKind buffer)
      (fun found =>
        ∃ signer : PublicKey,
          buffer.HasFront Layout.embeddedHeaderFields
            (signer.field :: tagValues found.1 found.2)
            (signer.toList ++ tagBytes found.1 found.2))
      TransactionError.RefusesBytes := by
  have hHeader :=
    @readHeader_yields .embeddedHeaderOnly
      [Layout.key "signer"] [] buffer rfl rfl (by decide)
  refine hHeader.imp ?_ fun _ hRefuses => hRefuses
  rintro ⟨kind, network⟩ ⟨values, front, hFits, hFront⟩
  cases hFits with
  | cons hSigner hNil =>
      cases hNil
      cases hSigner with
      | fixed hLength =>
          rcases hFront.encode with ⟨name, offsets, hEncode⟩
          cases hEncode
          exact ⟨⟨_, hLength⟩, hFront⟩

/- An embedded transaction has its head in the buffer. -/
theorem decode_yields
    (buffer : Bytes) :
    Yields (decode buffer)
      (fun embedded =>
        embedded.head buffer.length <+: buffer)
      TransactionError.RefusesBytes := by
  refine (readKind_yields buffer).bind ?_
  rintro ⟨kind, network⟩ ⟨signer, hFront⟩
  cases kind with
  | aggregate form => exact .error trivial
  | operation op =>
      refine (liftM_readTable_yields
        (.embeddedOfKind (.operation op))
        (Layout.arePositive_embeddedOfKind _) buffer).bind ?_
      rintro table ⟨hRead, hRecord, hTyped⟩
      rcases hFront.values_eq rfl rfl hRead with
        ⟨others, hValues⟩
      rw [hValues] at hRecord
      have hSigner :
          table.record.fixed 32 EmbeddedSlot.signer =
            .ok signer := by
        rw [hRecord]
        exact Record.fixed_of_get rfl
      have hContent :
          Yields
            (Operation.ofRecord op table.record
              (Layout.embeddedOfKind
                (.operation op)).bodyStart)
            (fun content => content.kind = op)
            TransactionError.RefusesBytes := by
        apply Operation.ofRecord_yields hTyped
        intro i field hField
        rw [hRecord]
        exact Layout.getElem?_bodyStart hField
      rw [hSigner]
      refine hContent.bind ?_
      rintro content rfl
      exact .ok hFront.isPrefix

theorem length_head
    (embedded : Embedded)
    (size : Nat) : (embedded.head size).length = 42 := by
  simp only [head, tagBytes, List.length_append,
    LittleEndian.length_encode,
    embedded.signer.length_toList]
  rfl

/- What is read is written again, unless a length forbids it. -/
theorem encode_of_decode
    {buffer : Bytes}
    {embedded : Embedded}
    (hDecode : decode buffer = .ok embedded) :
    (∃ bytes,
      embedded.encode = .ok bytes ∧
      decode bytes = .ok embedded) ∨
      ∃ table field length,
        embedded.encode =
          .error
            (.table (.lengthOverflow table field length)) := by
  cases hEncode : embedded.encode with
  | ok bytes =>
      exact .inl ⟨bytes, rfl, decode_of_encode hEncode⟩
  | error cause =>
      rcases encode_error hEncode with
        ⟨form, content, hBody, -⟩ | hOver
      · rcases operation_of_decode hDecode with ⟨op, hOp⟩
        rw [hOp] at hBody
        cases hBody
      · rcases hOver.exists_length with
          ⟨length, -, rfl, -⟩
        exact .inr ⟨_, _, _, rfl⟩

end Embedded

------------------------------------------------------------
-- Transactions
------------------------------------------------------------

/- A body of a kind is read, or its record refused. -/
theorem Body.ofRecord_yields
    {kind : TransactionKind}
    {record : Record}
    {start : Nat}
    (hTyped : record.WellTyped)
    (hFields :
      ∀ i {field},
        (Layout.bodyFields kind)[i]? = some field →
        record.fields[start + i]? = some field) :
    Yields (ofRecord kind record start)
      (fun body => body.kind = kind)
      TransactionError.RefusesBytes := by
  cases kind with
  | operation op =>
      refine (Operation.ofRecord_yields hTyped hFields).bind ?_
      rintro content rfl
      exact .ok rfl
  | aggregate form =>
      rcases hTyped.entities start (hFields 0 rfl) with
        ⟨items, hItems⟩
      rcases hTyped.rows (start + 1) (hFields 1 rfl) with
        ⟨rows, hRows, hEach⟩
      have hInner :
          Yields (items.mapM Embedded.decode) _
            TransactionError.RefusesBytes :=
        .mapM fun item _ => (Embedded.decode_yields item).any
      rw [ofRecord]
      simp only [hItems, hRows, liftM_table_ok, ok_bind]
      exact hInner.bind fun _ _ =>
        (mapM_rows_yields hEach
          Cosignature.ofRecord_yields).bind
          fun _ _ => .ok rfl

namespace Transaction

/- A transaction up to its type. -/
def head
    (tx : Transaction)
    (size : Nat) : Bytes :=
  LittleEndian.encode sizeWidth size ++
    (tx.sealBytes ++ tagBytes tx.kind tx.header.network)

/- The header tells the kind, and stands behind the seal. -/
theorem readKind_yields
    (buffer : Bytes) :
    Yields (readKind buffer)
      (fun found =>
        ∃ (signature : Signature) (signer : PublicKey),
          buffer.HasFront (Layout.headerFields.take 4)
            ([signature.field, signer.field] ++
              tagValues found.1 found.2)
            (signature.toList ++ signer.toList ++
              tagBytes found.1 found.2))
      TransactionError.RefusesBytes := by
  have hHeader :=
    @readHeader_yields .headerOnly
      (Layout.headerFields.take 2) (Layout.headerFields.drop 4)
      buffer rfl rfl (by decide)
  refine hHeader.imp ?_ fun _ hRefuses => hRefuses
  rintro ⟨kind, network⟩ ⟨values, front, hFits, hFront⟩
  cases hFits with
  | cons hSignature hRest =>
      cases hRest with
      | cons hSigner hNil =>
          cases hNil
          cases hSignature with
          | fixed hLong =>
              cases hSigner with
              | fixed hLength =>
                  rcases hFront.encode with
                    ⟨name, offsets, hEncode⟩
                  cases hEncode
                  refine ⟨⟨_, hLong⟩, ⟨_, hLength⟩, ?_⟩
                  rw [List.append_assoc]
                  exact hFront

/- A transaction has its head in the buffer. -/
theorem decode_yields
    (buffer : Bytes) :
    Yields (decode buffer)
      (fun tx => tx.head buffer.length <+: buffer)
      TransactionError.RefusesBytes := by
  refine (readKind_yields buffer).bind ?_
  rintro ⟨kind, network⟩ ⟨signature, signer, hFront⟩
  refine (liftM_readTable_yields (.ofKind kind)
    (Layout.arePositive_ofKind kind) buffer).bind ?_
  rintro table ⟨hRead, hRecord, hTyped⟩
  rcases hFront.values_eq rfl rfl hRead with
    ⟨others, hValues⟩
  have hBody :
      Yields
        (Body.ofRecord kind table.record
          (Layout.ofKind kind).bodyStart)
        (fun body => body.kind = kind)
        TransactionError.RefusesBytes := by
    apply Body.ofRecord_yields hTyped
    intro i field hField
    rw [hRecord]
    exact Layout.getElem?_bodyStart hField
  rw [hValues] at hRecord
  obtain ⟨fee, hFee⟩ :
      ∃ fee, table.record.u64 HeaderSlot.maxFee = .ok fee := by
    rw [hRecord] at hTyped ⊢
    exact hTyped.u64 _ rfl
  obtain ⟨deadline, hDeadline⟩ :
      ∃ deadline,
        table.record.u64 HeaderSlot.deadline =
          .ok deadline := by
    rw [hRecord] at hTyped ⊢
    exact hTyped.u64 _ rfl
  have hSignature :
      table.record.fixed 64 HeaderSlot.signature =
        .ok signature := by
    rw [hRecord]
    exact Record.fixed_of_get rfl
  have hSigner :
      table.record.fixed 32 HeaderSlot.signer =
        .ok signer := by
    rw [hRecord]
    exact Record.fixed_of_get rfl
  simp only [hSignature, hSigner, hFee, hDeadline,
    liftM_table_ok, ok_bind]
  refine hBody.bind ?_
  rintro body rfl
  exact .ok hFront.isPrefix

------------------------------------------------------------
-- Decoding
------------------------------------------------------------

theorem length_head
    (tx : Transaction)
    (size : Nat) : (tx.head size).length = 106 := by
  simp only [head, sealBytes, tagBytes, List.length_append,
    LittleEndian.length_encode,
    tx.header.signature.length_toList,
    tx.header.signer.length_toList]
  rfl

variable {tx : Transaction}
variable {buffer : Bytes}

/- No aggregate is read from inside an aggregate. -/
theorem inner_of_decode
    {form : AggregateForm}
    {content : Aggregate}
    (hDecode : decode buffer = .ok tx)
    (hBody : tx.body = .aggregate form content) :
    ∀ inner ∈ content.transactions,
      ∃ op, inner.body = .operation op := by
  rcases decode_eq_ok hDecode with
    ⟨kind, network, table, -, -, hRead⟩
  rw [hBody] at hRead
  exact Body.operation_of_ofRecord hRead

/- What is read is written again, unless a length forbids it. -/
theorem encode_of_decode
    (hDecode : decode buffer = .ok tx) :
    (∃ bytes,
      tx.encode = .ok bytes ∧ decode bytes = .ok tx) ∨
      ∃ table field length,
        tx.encode =
          .error
            (.table (.lengthOverflow table field length)) := by
  cases hEncode : tx.encode with
  | ok bytes =>
      exact .inl ⟨bytes, rfl, decode_of_encode hEncode⟩
  | error cause =>
      rcases (isOverflow_of_decode hDecode
        hEncode).exists_length with
        ⟨length, -, rfl, -⟩
      exact .inr ⟨_, _, _, rfl⟩

------------------------------------------------------------
-- Any Bytes
------------------------------------------------------------

/-
  Any bytes are read as a transaction or refused: they end too
  early, declare a wrong size or spell no transaction.  What
  is read has all up to its type in the buffer, holds no
  aggregate inside, and is written as bytes that are read as
  the same, unless a length does not allow that.  The same
  holds of embedded transactions.
-/
theorem decode_fails_closed
    (buffer : Bytes) :
    ((∃ tx,
        decode buffer = .ok tx ∧
        106 ≤ buffer.length ∧
        tx.head buffer.length <+: buffer ∧
        (∀ form content,
          tx.body = .aggregate form content →
          ∀ inner ∈ content.transactions,
            ∃ op, inner.body = .operation op) ∧
        ((∃ bytes,
          tx.encode = .ok bytes ∧ decode bytes = .ok tx) ∨
          ∃ table field length,
            tx.encode =
              .error
                (.table
                  (.lengthOverflow table field length)))) ∨
      ∃ cause,
        decode buffer = .error cause ∧
        cause.code ∈
          ["Codec.MalformedBuffer", "Codec.SizeMismatch",
            "Codec.SchemaMismatch"]) ∧
    ((∃ embedded,
        Embedded.decode buffer = .ok embedded ∧
        42 ≤ buffer.length ∧
        embedded.head buffer.length <+: buffer ∧
        (∃ op, embedded.body = .operation op) ∧
        ((∃ bytes,
          embedded.encode = .ok bytes ∧
          Embedded.decode bytes = .ok embedded) ∨
          ∃ table field length,
            embedded.encode =
              .error
                (.table
                  (.lengthOverflow table field length)))) ∨
      ∃ cause,
        Embedded.decode buffer = .error cause ∧
        cause.code ∈
          ["Codec.MalformedBuffer", "Codec.SizeMismatch",
            "Codec.SchemaMismatch"]) := by
  constructor
  · cases hDecode : decode buffer with
    | ok tx =>
        have hHead := (decode_yields buffer).returned tx hDecode
        have hLong := hHead.length_le
        rw [length_head] at hLong
        exact .inl ⟨tx, rfl, hLong, hHead,
          fun form content => inner_of_decode hDecode,
          encode_of_decode hDecode⟩
    | error cause =>
        have hRefuses :=
          (decode_yields buffer).failed cause hDecode
        exact .inr ⟨cause, rfl, hRefuses.code_mem⟩
  · cases hDecode : Embedded.decode buffer with
    | ok embedded =>
        have hHead :=
          (Embedded.decode_yields buffer).returned embedded
            hDecode
        have hLong := hHead.length_le
        rw [Embedded.length_head] at hLong
        exact .inl ⟨embedded, rfl, hLong, hHead,
          Embedded.operation_of_decode hDecode,
          Embedded.encode_of_decode hDecode⟩
    | error cause =>
        have hRefuses :=
          (Embedded.decode_yields buffer).failed cause hDecode
        exact .inr ⟨cause, rfl, hRefuses.code_mem⟩

/- A table that ends before its type has no known type. -/
example :
    decode (LittleEndian.encode 4 4) =
      .error (.form (.unknownKind 0)) :=
  rfl

end Transaction

end DriveMarket
