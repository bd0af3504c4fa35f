import DriveMarket.Proofs.Table.Lengths
import DriveMarket.Proofs.Transaction.Embedded

/-
  Which lengths a transaction has, and how many bytes it takes
  up.

  The counts in a transaction, the sizes of its nested tables
  and of the whole are told from what it says.  It is written
  if it holds no aggregate inside and all these lengths are
  numbers of 32 bits, and refused for the first thing that is
  not so.

  Key definitions include:
    * `Operation.span`
    * `Operation.lengths`
    * `Embedded.lengths`
    * `Transaction.lengths`
    * `Transaction.size`
    * `TransactionError.IsOverflow`

  Correctness is proven by:
    * `Embedded.sized_encode`
    * `Transaction.sized_encodeTable`
    * `Embedded.encode_error`
    * `Transaction.encode_error`
    * `Transaction.exists_encode_iff`
-/

namespace DriveMarket

------------------------------------------------------------
-- Sizes
------------------------------------------------------------

/- The size of the table of a result. -/
def VerificationResult.size
    (_ : VerificationResult) : Nat :=
  sizeWidth + 3

/- The size of the table of an opinion. -/
def Opinion.size
    (opinion : Opinion) : Nat :=
  sizeWidth +
    (98 + (countWidth + (opinion.results.map (·.size)).sum))

/- The size of the table of a mosaic. -/
def Mosaic.size
    (_ : Mosaic) : Nat :=
  sizeWidth + 16

/- The size of the table of a cosignature. -/
def Cosignature.size
    (_ : Cosignature) : Nat :=
  sizeWidth + 96

/- How many bytes the fields of an operation take up. -/
def Operation.span : Operation → Nat
  | .replicatorOnboarding _ => 56
  | .prepareDrive _ => 18
  | .dataModification _ => 80
  | .dataModificationCancel _ => 64
  | .driveClosure _ => 32
  | .endDriveVerification content =>
      64 + (countWidth + 32 * content.provers.length) +
        (countWidth + (content.opinions.map (·.size)).sum)
  | .deploy _ => 104
  | .startExecute content =>
      32 +
        (countWidth + (Text.encode content.function).length) +
        (countWidth + (content.mosaics.map (·.size)).sum) +
        (countWidth + content.data.length)

/- The size of an embedded operation. -/
def Embedded.size
    (embedded : Embedded) : Nat :=
  match embedded.body with
  | .operation content => embeddedHeaderSize + content.span
  | .aggregate _ _ => 0

/- How many bytes the fields of a body take up. -/
def Body.span : Body → Nat
  | .operation content => content.span
  | .aggregate _ content =>
      (countWidth + (content.transactions.map (·.size)).sum) +
        (countWidth + (content.cosignatures.map (·.size)).sum)

/- The size of a transaction. -/
def Transaction.size
    (tx : Transaction) : Nat :=
  headerSize + tx.body.span

------------------------------------------------------------
-- Lengths
------------------------------------------------------------

/- The lengths of an opinion. -/
def Opinion.lengths
    (opinion : Opinion) : List Length :=
  ⟨"opinions", "results", opinion.results.length⟩ ::
    opinion.results.map (⟨"results", "size", ·.size⟩) ++
    [⟨"opinions", "size", opinion.size⟩]

/- The lengths of the fields of an operation. -/
def Operation.lengths
    (table : String) : Operation → List Length
  | .endDriveVerification content =>
      ⟨table, "provers", content.provers.length⟩ ::
        ⟨table, "opinions", content.opinions.length⟩ ::
        content.opinions.flatMap (·.lengths)
  | .startExecute content =>
      ⟨table, "function",
          (Text.encode content.function).length⟩ ::
        ⟨table, "mosaics", content.mosaics.length⟩ ::
        content.mosaics.map (⟨"mosaics", "size", ·.size⟩) ++
        [⟨table, "data", content.data.length⟩]
  | _ => []

/- The lengths of an embedded operation. -/
def Embedded.lengths
    (embedded : Embedded) : List Length :=
  match embedded.body with
  | .operation content =>
      content.lengths embedded.kind.name ++
        [⟨embedded.kind.name, "size", embedded.size⟩]
  | .aggregate _ _ => []

/- The lengths of the fields of a body. -/
def Body.ownLengths
    (table : String) : Body → List Length
  | .operation content => content.lengths table
  | .aggregate _ content =>
      ⟨table, "transactions", content.transactions.length⟩ ::
        ⟨table, "cosignatures",
          content.cosignatures.length⟩ ::
        content.cosignatures.map
          (⟨"cosignatures", "size", ·.size⟩)

/- The transactions inside a body. -/
def Body.inner : Body → List Embedded
  | .operation _ => []
  | .aggregate _ content => content.transactions

/- The lengths of a transaction without those inside it. -/
def Transaction.ownLengths
    (tx : Transaction) : List Length :=
  tx.body.ownLengths tx.kind.name ++
    [⟨tx.kind.name, "size", tx.size⟩]

/- All lengths of a transaction, its size last. -/
def Transaction.lengths
    (tx : Transaction) : List Length :=
  tx.body.inner.flatMap (·.lengths) ++ tx.ownLengths

------------------------------------------------------------
-- Values
------------------------------------------------------------

theorem VerificationResult.rowSpan_row
    (result : VerificationResult) :
    sizeWidth + rowSpan Layout.resultFields result.row =
      result.size :=
  rfl

theorem Opinion.rowSpan_row
    (opinion : Opinion) :
    sizeWidth + rowSpan Layout.opinionFields opinion.row =
      opinion.size := by
  simp only [rowSpan, FieldKind.span, Layout.opinionFields,
    row, FixedBytes.field, FixedBytes.length_toList, size,
    List.map_map, Function.comp_def,
    VerificationResult.rowSpan_row]
  omega

theorem Mosaic.rowSpan_row
    (mosaic : Mosaic) :
    sizeWidth + rowSpan Layout.mosaicFields mosaic.row =
      mosaic.size :=
  rfl

theorem Cosignature.rowSpan_row
    (cosignature : Cosignature) :
    sizeWidth +
        rowSpan Layout.cosignatureFields cosignature.row =
      cosignature.size := by
  simp only [rowSpan, FieldKind.span,
    Layout.cosignatureFields, Layout.key, row,
    FixedBytes.field, FixedBytes.length_toList, size]

/- The fields of an operation take up its span. -/
theorem Operation.rowSpan_values
    (op : Operation) :
    rowSpan (Layout.operationFields op.kind) op.values =
      op.span := by
  cases op <;>
    simp only [rowSpan, FieldKind.span,
      Layout.operationFields, Layout.key, kind, values, span,
      FixedBytes.field, FixedBytes.length_toList,
      List.map_map, Function.comp_def, List.map_const',
      List.sum_replicate_nat, Opinion.rowSpan_row,
      Mosaic.rowSpan_row] <;>
    omega

theorem VerificationResult.tableLengths_row
    (result : VerificationResult) :
    tableLengths "results" Layout.resultFields result.row =
      [⟨"results", "size", result.size⟩] :=
  rfl

theorem Opinion.tableLengths_row
    (opinion : Opinion) :
    tableLengths "opinions" Layout.opinionFields opinion.row =
      opinion.lengths := by
  have hResults :=
    lengths_tables_map "opinions" "results" opinion.results
      VerificationResult.tableLengths_row
  rw [tableLengths, opinion.rowSpan_row, lengths,
    List.map_eq_flatMap, ← hResults]
  simp only [rowLengths, Layout.opinionFields, row,
    List.append_nil]
  rfl

theorem Mosaic.tableLengths_row
    (mosaic : Mosaic) :
    tableLengths "mosaics" Layout.mosaicFields mosaic.row =
      [⟨"mosaics", "size", mosaic.size⟩] :=
  rfl

theorem Cosignature.tableLengths_row
    (cosignature : Cosignature) :
    tableLengths "cosignatures" Layout.cosignatureFields
        cosignature.row =
      [⟨"cosignatures", "size", cosignature.size⟩] := by
  rw [tableLengths, cosignature.rowSpan_row]
  rfl

/- The fields of an operation have its lengths. -/
theorem Operation.rowLengths_values
    (table : String)
    (op : Operation) :
    rowLengths table (Layout.operationFields op.kind)
        op.values =
      op.lengths table := by
  cases op with
  | endDriveVerification content =>
      have hOpinions :=
        lengths_tables_map table "opinions" content.opinions
          Opinion.tableLengths_row
      have hProvers :
          (content.provers.map (·.toList)).length =
            content.provers.length :=
        List.length_map _
      rw [lengths, ← hOpinions, ← hProvers]
      simp only [rowLengths, Layout.operationFields, kind,
        values, List.append_nil]
      rfl
  | startExecute content =>
      have hMosaics :=
        lengths_tables_map table "mosaics" content.mosaics
          Mosaic.tableLengths_row
      rw [lengths, List.map_eq_flatMap, List.cons_append,
        ← hMosaics]
      rfl
  | _ => rfl

/- With its size, an embedded header has a fixed width. -/
theorem Embedded.rowSpan_headerValues
    (embedded : Embedded) :
    sizeWidth +
        rowSpan Layout.embeddedHeaderFields
          embedded.headerValues =
      embeddedHeaderSize := by
  simp only [rowSpan, FieldKind.span,
    Layout.embeddedHeaderFields, Layout.key, headerValues,
    FixedBytes.field, FixedBytes.length_toList]
  rfl

/- So has the header of a transaction. -/
theorem Transaction.rowSpan_headerValues
    (tx : Transaction) :
    sizeWidth +
        rowSpan Layout.headerFields tx.headerValues =
      headerSize := by
  simp only [rowSpan, FieldKind.span, Layout.headerFields,
    Layout.key, headerValues, FixedBytes.field,
    FixedBytes.length_toList]
  rfl

------------------------------------------------------------
-- Bodies
------------------------------------------------------------

/- The values of a body fit its fields. -/
theorem Body.values_fit
    {body : Body}
    {values : List Value}
    (hValues : body.values = .ok values) :
    RowFits (Layout.bodyFields body.kind) values := by
  rw [values_eq, bind_eq_ok_iff] at hValues
  rcases hValues with ⟨signed, hSigned, hPure⟩
  cases hPure
  rw [Layout.bodyFields_eq]
  exact (signedValues_fit hSigned).append body.tailValues_fit

/- The fields of a body have its own lengths. -/
theorem Body.rowLengths_values
    {body : Body}
    {values : List Value}
    (table : String)
    (hValues : body.values = .ok values) :
    rowLengths table (Layout.bodyFields body.kind) values =
      body.ownLengths table := by
  cases body with
  | operation content =>
      cases hValues
      exact content.rowLengths_values table
  | aggregate form content =>
      rw [Body.values, bind_eq_ok_iff] at hValues
      rcases hValues with ⟨entities, hEntities, hPure⟩
      cases hPure
      rw [mapM_eq_ok_iff] at hEntities
      have hRows :=
        lengths_tables_map table "cosignatures"
          content.cosignatures Cosignature.tableLengths_row
      rw [← List.map_eq_flatMap] at hRows
      rw [ownLengths, ← hRows, hEntities.length_eq]
      simp only [rowLengths, kind, Layout.bodyFields,
        Layout.aggregateFields, List.append_nil]
      rfl

------------------------------------------------------------
-- Failures
------------------------------------------------------------

/- One of some lengths does not fit 32 bits. -/
def TransactionError.IsOverflow
    (lengths : List Length)
    (cause : TransactionError) : Prop :=
  ∃ length ∈ lengths,
    ¬ length.IsSmall ∧ cause = .table length.overflow

namespace TransactionError.IsOverflow

variable {lengths : List Length}
variable {cause : TransactionError}

theorem of_checkAll
    (hError :
      (Length.checkAll lengths).mapError .table =
        .error cause) :
    cause.IsOverflow lengths := by
  rw [mapError_eq_error_iff] at hError
  rcases hError with ⟨inner, hInner, rfl⟩
  rcases Length.exists_overflow_of_checkAll hInner with
    ⟨length, hMem, hLarge, rfl⟩
  exact ⟨length, hMem, hLarge, rfl⟩

theorem mono
    {more : List Length}
    (hOver : cause.IsOverflow lengths)
    (hSubset : lengths ⊆ more) :
    cause.IsOverflow more := by
  rcases hOver with ⟨length, hMem, hLarge⟩
  exact ⟨length, hSubset hMem, hLarge⟩

theorem exists_length
    (hOver : cause.IsOverflow lengths) :
    ∃ length ∈ lengths,
      cause =
        .table (.lengthOverflow length.table length.field
          length.length) ∧
      0x100000000 ≤ length.length := by
  rcases hOver with ⟨length, hMem, hLarge, hCause⟩
  exact ⟨length, hMem, hCause, Nat.le_of_not_lt hLarge⟩

end TransactionError.IsOverflow

------------------------------------------------------------
-- Embedded Transactions
------------------------------------------------------------

theorem sized_encodeLayout
    {layout : Layout}
    {values : List Value}
    (hFits : RowFits layout.fields values) :
    Sized (·.bytes.length) (encodeLayout layout values)
      ((Length.checkAll
        (tableLengths layout.name layout.fields
          values)).mapError .table)
      (sizeWidth + rowSpan layout.fields values) :=
  hFits.sized_writeTable.mapError TransactionError.table

namespace Embedded

/- What keeps an embedded transaction from being written. -/
def check
    (embedded : Embedded) : Except TransactionError Unit :=
  match embedded.body with
  | .aggregate form _ =>
      .error (.form (.notEmbeddable form))
  | .operation _ =>
      (Length.checkAll embedded.lengths).mapError .table

/- An embedded transaction is written if nothing does. -/
theorem sized_encode
    (embedded : Embedded) :
    Sized List.length embedded.encode embedded.check
      embedded.size := by
  rcases embedded with ⟨signer, network, body⟩
  cases body with
  | aggregate form content => rfl
  | operation content =>
      let embedded : Embedded :=
        ⟨signer, network, .operation content⟩
      have hHeader := embedded.headerValues_fit
      have hSpan :
          sizeWidth +
              rowSpan
                (Layout.embeddedOfKind embedded.kind).fields
                (embedded.headerValues ++ content.values) =
            embedded.size := by
        refine (congrArg _ (rowSpan_append hHeader)).trans ?_
        rw [← Nat.add_assoc, embedded.rowSpan_headerValues]
        exact congrArg _ content.rowSpan_values
      have hLengths :
          tableLengths embedded.kind.name
              (Layout.embeddedOfKind embedded.kind).fields
              (embedded.headerValues ++ content.values) =
            embedded.lengths := by
        rw [tableLengths, hSpan]
        refine congrArg (· ++ _)
          ((rowLengths_append _ hHeader).trans ?_)
        exact content.rowLengths_values embedded.kind.name
      have hEncode :=
        @sized_encodeLayout (.embeddedOfKind embedded.kind)
          (embedded.headerValues ++ content.values)
          (hHeader.append content.values_fit)
      rw [hSpan] at hEncode
      refine Sized.map ?_ fun table hSize => hSize
      rw [check, ← hLengths]
      exact hEncode

theorem check_eq_ok_iff
    {embedded : Embedded} :
    embedded.check = .ok () ↔
      (∃ content, embedded.body = .operation content) ∧
        ∀ length ∈ embedded.lengths, length.IsSmall := by
  rcases embedded with ⟨signer, network, body⟩
  cases body with
  | aggregate form content => simp [check]
  | operation content =>
      simp only [check, mapError_eq_ok_iff,
        Length.checkAll_eq_ok_iff, Body.operation.injEq,
        exists_eq', true_and]

/- Only operations are embedded, if their lengths are small. -/
theorem exists_encode_iff
    (embedded : Embedded) :
    (∃ bytes, embedded.encode = .ok bytes) ↔
      (∃ content, embedded.body = .operation content) ∧
        ∀ length ∈ embedded.lengths, length.IsSmall := by
  rw [embedded.sized_encode.exists_ok_iff, check_eq_ok_iff]

/- Embedding fails on aggregates and on lengths only. -/
theorem encode_error
    {embedded : Embedded}
    {cause : TransactionError}
    (hError : embedded.encode = .error cause) :
    (∃ form content,
      embedded.body = .aggregate form content ∧
      cause = .form (.notEmbeddable form)) ∨
      cause.IsOverflow embedded.lengths := by
  rw [embedded.sized_encode.error_iff] at hError
  rcases embedded with ⟨signer, network, body⟩
  cases body with
  | aggregate form content =>
      cases hError
      exact .inl ⟨form, content, rfl, rfl⟩
  | operation content =>
      right
      exact TransactionError.IsOverflow.of_checkAll hError

end Embedded

------------------------------------------------------------
-- Transactions
------------------------------------------------------------

/- The values of a body are those of what is inside it. -/
theorem Body.sized_values
    (body : Body) :
    Sized (rowSpan (Layout.bodyFields body.kind)) body.values
      (body.inner.forM Embedded.check) body.span := by
  cases body with
  | operation content =>
      exact congrArg Except.ok content.rowSpan_values
  | aggregate form content =>
      have hInner :=
        Sized.mapM fun inner (_ : inner ∈ content.transactions)
          => inner.sized_encode
      refine hInner.map ?_
      intro entities hEntities
      simp only [rowSpan, FieldKind.span, kind,
        Layout.bodyFields, Layout.aggregateFields, span,
        hEntities, List.map_map, Function.comp_def,
        Cosignature.rowSpan_row, Nat.add_zero]

namespace Transaction

variable {tx : Transaction}

/- What keeps a transaction from being written. -/
def check
    (tx : Transaction) : Except TransactionError Unit := do
  tx.body.inner.forM Embedded.check
  (Length.checkAll tx.ownLengths).mapError .table

/- A transaction is written as a table if nothing does. -/
theorem sized_encodeTable
    (tx : Transaction) :
    Sized (·.bytes.length) tx.encodeTable tx.check
      tx.size := by
  refine tx.body.sized_values.bind ?_
  intro values hValues hBody
  have hHeader := tx.headerValues_fit
  have hSpan :
      sizeWidth +
          rowSpan (Layout.ofKind tx.kind).fields
            (tx.headerValues ++ values) =
        tx.size := by
    refine (congrArg _ (rowSpan_append hHeader)).trans ?_
    rw [← Nat.add_assoc, tx.rowSpan_headerValues]
    exact congrArg _ hBody
  have hLengths :
      tableLengths tx.kind.name
          (Layout.ofKind tx.kind).fields
          (tx.headerValues ++ values) =
        tx.ownLengths := by
    rw [tableLengths, hSpan]
    refine congrArg (· ++ _)
      ((rowLengths_append _ hHeader).trans ?_)
    exact Body.rowLengths_values tx.kind.name hValues
  have hEncode :=
    @sized_encodeLayout (.ofKind tx.kind)
      (tx.headerValues ++ values)
      (hHeader.append (Body.values_fit hValues))
  rw [hSpan] at hEncode
  rw [← hLengths]
  exact hEncode

theorem sized_encode
    (tx : Transaction) :
    Sized List.length tx.encode tx.check tx.size :=
  tx.sized_encodeTable.map fun _ hSize => hSize

theorem check_eq_ok_iff :
    tx.check = .ok () ↔
      (∀ inner ∈ tx.body.inner,
        ∃ content, inner.body = .operation content) ∧
        ∀ length ∈ tx.lengths, length.IsSmall := by
  have hInside :
      tx.body.inner.forM Embedded.check = .ok () ↔
        ∀ inner ∈ tx.body.inner,
          (∃ content, inner.body = .operation content) ∧
            ∀ length ∈ inner.lengths, length.IsSmall := by
    simp only [forM_eq_ok_iff, Embedded.check_eq_ok_iff]
  rw [lengths, List.forall_mem_append,
    List.forall_mem_flatMap, ← and_assoc, ← forall₂_and,
    ← hInside, ← Length.checkAll_eq_ok_iff, check,
    bind_eq_ok_iff]
  simp only [mapError_eq_ok_iff]
  constructor
  · rintro ⟨⟨⟩, hInner, hOwn⟩
    exact ⟨hInner, hOwn⟩
  · rintro ⟨hInner, hOwn⟩
    exact ⟨(), hInner, hOwn⟩

/-
  A transaction is written if it holds no aggregate inside and
  all its lengths are small.
-/
theorem exists_encode_iff
    (tx : Transaction) :
    (∃ bytes, tx.encode = .ok bytes) ↔
      (∀ inner ∈ tx.body.inner,
        ∃ content, inner.body = .operation content) ∧
        ∀ length ∈ tx.lengths, length.IsSmall := by
  rw [tx.sized_encode.exists_ok_iff, check_eq_ok_iff]

/- Writing fails on inner aggregates and on lengths only. -/
theorem encode_error
    {cause : TransactionError}
    (hError : tx.encode = .error cause) :
    (∃ form content inner innerForm innerContent,
      tx.body = .aggregate form content ∧
      inner ∈ content.transactions ∧
      inner.body = .aggregate innerForm innerContent ∧
      cause = .form (.notEmbeddable innerForm)) ∨
      cause.IsOverflow tx.lengths := by
  rw [tx.sized_encode.error_iff, check, bind_eq_error_iff]
    at hError
  rcases hError with hInside | ⟨_, -, hOwn⟩
  · rcases exists_mem_of_forM_error hInside with
      ⟨inner, hMem, hInner⟩
    rw [← inner.sized_encode.error_iff] at hInner
    rcases Embedded.encode_error hInner with
      ⟨innerForm, innerContent, hInnerBody, hCause⟩ | hOver
    · left
      rcases tx with ⟨header, content | ⟨form, content⟩⟩
      · cases hMem
      · exact ⟨form, content, inner, innerForm, innerContent,
          rfl, hMem, hInnerBody, hCause⟩
    · right
      apply hOver.mono
      intro length hLength
      exact List.mem_append_left _
        (List.mem_flatMap.mpr ⟨inner, hMem, hLength⟩)
  · right
    apply (TransactionError.IsOverflow.of_checkAll hOwn).mono
    exact List.subset_append_right _ _

end Transaction

end DriveMarket
