import DriveMarket.Proofs.Table.Typing
import DriveMarket.Transaction.Decode
import DriveMarket.Transaction.Encode

/-
  The values of transactions fit their layouts, and the parts
  of a transaction are found again in the values.

  The fields of a body fall into those that are signed and,
  for aggregates, the cosignatures behind them.

  Key definitions include:
    * `Layout.signedBody`
    * `Layout.tail`
    * `Body.signedValues`
    * `Body.tailValues`

  Correctness is proven by:
    * `Operation.values_fit`
    * `Body.tailValues_fit`
    * `Operation.ofRecord_of_get`
-/

namespace DriveMarket

------------------------------------------------------------
-- Signed Fields and Tail
------------------------------------------------------------

namespace Layout

/- The fields of a body that its signer signs. -/
def signedBody : TransactionKind → List Field
  | .operation kind => operationFields kind
  | .aggregate _ => [⟨"transactions", .entities⟩]

/- The fields of a body that nobody signs. -/
def tail : TransactionKind → List Field
  | .operation _ => []
  | .aggregate _ =>
      [⟨"cosignatures", .tables cosignatureFields⟩]

theorem bodyFields_eq
    (kind : TransactionKind) :
    bodyFields kind = signedBody kind ++ tail kind := by
  cases kind with
  | operation kind => simp [bodyFields, signedBody, tail]
  | aggregate form => rfl

theorem ofKind_fields
    (kind : TransactionKind) :
    (ofKind kind).fields =
      (headerFields ++ signedBody kind) ++ tail kind := by
  rw [List.append_assoc, ← bodyFields_eq]
  rfl

theorem arePositive_signedBody
    (kind : TransactionKind) :
    arePositive (signedBody kind) := by
  cases kind with
  | operation kind => cases kind <;> rfl
  | aggregate form => rfl

theorem arePositive_tail
    (kind : TransactionKind) :
    arePositive (tail kind) := by
  cases kind <;> rfl

end Layout

namespace Body

/- The values of the signed fields. -/
def signedValues :
    Body →
    Except TransactionError (List Value)
  | .operation content => .ok content.values
  | .aggregate _ content => do
      let entities ← content.transactions.mapM Embedded.encode
      return [.entities entities]

/- The values of the other fields. -/
def tailValues : Body → List Value
  | .operation _ => []
  | .aggregate _ content =>
      [.tables (content.cosignatures.map (·.row))]

/- The cosignatures of a body, which only aggregates have. -/
def cosignatures : Body → List Cosignature
  | .operation _ => []
  | .aggregate _ content => content.cosignatures

theorem withCosignatures_cosignatures
    (body : Body) :
    body.withCosignatures body.cosignatures = body := by
  cases body with
  | operation content => rfl
  | aggregate form content =>
      rcases content with ⟨transactions, cosignatures⟩
      rfl

theorem values_eq
    (body : Body) :
    body.values = (do
      let signed ← body.signedValues
      return signed ++ body.tailValues) := by
  cases body with
  | operation content =>
      simp [values, signedValues, tailValues, pure,
        Except.pure]
  | aggregate form content =>
      simp [values, signedValues, tailValues]

end Body

------------------------------------------------------------
-- Fitting
------------------------------------------------------------

theorem FixedBytes.field_fits
    {width : Nat}
    (bytes : FixedBytes width) :
    (FieldKind.fixed width).Fits bytes.field :=
  .fixed bytes.length_toList

/- Rows made one way fit if each of them does. -/
theorem tables_fit
    {α : Type}
    {fields : List Field}
    {row : α → List Value}
    (items : List α)
    (hRow : ∀ item, RowFits fields (row item)) :
    (FieldKind.tables fields).Fits
      (.tables (items.map row)) := by
  apply FieldKind.Fits.tables
  rw [List.forall_mem_map]
  exact fun item _ => hRow item

theorem VerificationResult.row_fits
    (result : VerificationResult) :
    RowFits Layout.resultFields result.row :=
  .cons (.u16 _) (.cons (.u8 _) .nil)

theorem Opinion.row_fits
    (opinion : Opinion) :
    RowFits Layout.opinionFields opinion.row :=
  .cons (.u16 _)
    (.cons opinion.signature.field_fits
      (.cons
        (tables_fit opinion.results
          VerificationResult.row_fits)
        .nil))

theorem Mosaic.row_fits
    (mosaic : Mosaic) :
    RowFits Layout.mosaicFields mosaic.row :=
  .cons (.u64 _) (.cons (.u64 _) .nil)

theorem Cosignature.row_fits
    (cosignature : Cosignature) :
    RowFits Layout.cosignatureFields cosignature.row :=
  .cons cosignature.signer.field_fits
    (.cons cosignature.signature.field_fits .nil)

/- The values of an operation fit its fields. -/
theorem Operation.values_fit
    (op : Operation) :
    RowFits (Layout.operationFields op.kind) op.values := by
  cases op with
  | replicatorOnboarding content =>
      exact .cons (.u64 _)
        (.cons content.blsKey.field_fits .nil)
  | prepareDrive content =>
      exact .cons (.u64 _)
        (.cons (.u64 _) (.cons (.u16 _) .nil))
  | dataModification content =>
      exact .cons content.drive.field_fits
        (.cons content.downloadData.field_fits
          (.cons (.u64 _) (.cons (.u64 _) .nil)))
  | dataModificationCancel content =>
      exact .cons content.drive.field_fits
        (.cons content.modification.field_fits .nil)
  | driveClosure content =>
      exact .cons content.drive.field_fits .nil
  | endDriveVerification content =>
      have hProvers :
          (FieldKind.array 32).Fits
            (.array (content.provers.map (·.toList))) := by
        apply FieldKind.Fits.array
        rw [List.forall_mem_map]
        exact fun prover _ => prover.length_toList
      exact .cons content.drive.field_fits
        (.cons content.trigger.field_fits
          (.cons hProvers
            (.cons
              (tables_fit content.opinions Opinion.row_fits)
              .nil)))
  | deploy content =>
      exact .cons content.drive.field_fits
        (.cons content.owner.field_fits
          (.cons content.fileHash.field_fits
            (.cons (.u64 _) .nil)))
  | startExecute content =>
      exact .cons content.superContract.field_fits
        (.cons (.bytes _)
          (.cons
            (tables_fit content.mosaics Mosaic.row_fits)
            (.cons (.bytes _) .nil)))

theorem Embedded.headerValues_fit
    (embedded : Embedded) :
    RowFits Layout.embeddedHeaderFields
      embedded.headerValues :=
  .cons embedded.signer.field_fits
    (.cons (.u32 _) (.cons (.u16 _) .nil))

theorem Transaction.headerValues_fit
    (tx : Transaction) :
    RowFits Layout.headerFields tx.headerValues :=
  .cons tx.header.signature.field_fits
    (.cons tx.header.signer.field_fits
      (.cons (.u32 _)
        (.cons (.u16 _)
          (.cons (.u64 _) (.cons (.u64 _) .nil)))))

theorem Body.tailValues_fit
    (body : Body) :
    RowFits (Layout.tail body.kind) body.tailValues := by
  cases body with
  | operation content => exact .nil
  | aggregate form content =>
      exact .cons
        (tables_fit content.cosignatures Cosignature.row_fits)
        .nil

------------------------------------------------------------
-- Finding the Parts Again
------------------------------------------------------------

namespace Record

/- The fields behind a header are found behind its values. -/
theorem get_append
    {header fields : List Field}
    {front values : List Value}
    {field : Field}
    {value : Value}
    {i : Nat}
    (name : String)
    (hFront : front.length = header.length)
    (hField : fields[i]? = some field)
    (hValue : values[i]? = some value) :
    get ⟨name, header ++ fields, front ++ values⟩
        (header.length + i) =
      .ok (field, value) := by
  have hRight :
      (front ++ values)[header.length + i]? = some value := by
    rw [← hFront, List.getElem?_append_right (by omega)]
    simpa using hValue
  rw [get, hRight, List.getElem?_append_right (by omega)]
  simp [hField]

/- So are those between a header and others. -/
theorem get_between
    {header fields more : List Field}
    {front values others : List Value}
    {field : Field}
    {value : Value}
    {i : Nat}
    (name : String)
    (hFront : front.length = header.length)
    (hField : fields[i]? = some field)
    (hValue : values[i]? = some value) :
    get ⟨name, header ++ (fields ++ more),
          front ++ (values ++ others)⟩
        (header.length + i) =
      .ok (field, value) := by
  have hFieldBound := (List.getElem?_eq_some_iff.mp hField).1
  have hValueBound := (List.getElem?_eq_some_iff.mp hValue).1
  apply get_append name hFront
  · rw [List.getElem?_append_left hFieldBound, hField]
  · rw [List.getElem?_append_left hValueBound, hValue]

theorem fixed_of_get
    {width slot : Nat}
    {record : Record}
    {field : Field}
    {bytes : FixedBytes width}
    (hGet : record.get slot = .ok (field, bytes.field)) :
    record.fixed width slot = .ok bytes :=
  view_of_get hGet (FixedBytes.ofList?_toList bytes)

end Record

theorem VerificationResult.ofRecord_row
    (name : String)
    (result : VerificationResult) :
    ofRecord ⟨name, Layout.resultFields, result.row⟩ =
      .ok result := by
  rcases result with ⟨prover, passed⟩
  cases passed <;> rfl

/- Items that are found in their rows are found in all. -/
theorem mapM_ofRecord
    {α : Type}
    {fields : List Field}
    {row : α → List Value}
    {read : Record → Except TransactionError α}
    (name : String)
    (items : List α)
    (hRead :
      ∀ item, read ⟨name, fields, row item⟩ = .ok item) :
    ((items.map row).map (Record.mk name fields)).mapM read =
      .ok items := by
  rw [List.map_map]
  exact mapM_map_inverse hRead items

theorem Opinion.ofRecord_row
    (name : String)
    (opinion : Opinion) :
    ofRecord ⟨name, Layout.opinionFields, opinion.row⟩ =
      .ok opinion := by
  have hVerifier :
      Record.u16 ⟨name, Layout.opinionFields, opinion.row⟩ 0 =
        .ok opinion.verifier :=
    rfl
  have hSignature :
      Record.fixed 96
          ⟨name, Layout.opinionFields, opinion.row⟩ 1 =
        .ok opinion.signature :=
    Record.fixed_of_get rfl
  have hRows :
      Record.rows ⟨name, Layout.opinionFields, opinion.row⟩ 2 =
        .ok ((opinion.results.map (·.row)).map
          (Record.mk "results" Layout.resultFields)) :=
    rfl
  have hResults :=
    mapM_ofRecord "results" opinion.results
      (VerificationResult.ofRecord_row "results")
  rw [ofRecord]
  simp only [hRows, hResults, hVerifier, hSignature,
    liftM_table_ok, ok_bind]
  rfl

theorem Mosaic.ofRecord_row
    (name : String)
    (mosaic : Mosaic) :
    ofRecord ⟨name, Layout.mosaicFields, mosaic.row⟩ =
      .ok mosaic :=
  rfl

theorem Cosignature.ofRecord_row
    (name : String)
    (cosignature : Cosignature) :
    ofRecord
        ⟨name, Layout.cosignatureFields, cosignature.row⟩ =
      .ok cosignature := by
  have hSigner :
      Record.fixed 32
          ⟨name, Layout.cosignatureFields, cosignature.row⟩
          0 =
        .ok cosignature.signer :=
    Record.fixed_of_get rfl
  have hSignature :
      Record.fixed 64
          ⟨name, Layout.cosignatureFields, cosignature.row⟩
          1 =
        .ok cosignature.signature :=
    Record.fixed_of_get rfl
  rw [ofRecord]
  simp only [hSigner, hSignature, liftM_table_ok, ok_bind]
  rfl

theorem proverKey_toList
    (table : String)
    (key : PublicKey) :
    proverKey table key.toList = .ok key := by
  rw [proverKey, FixedBytes.ofList?_toList]

theorem functionName_encode
    (text : String) :
    functionName (Text.encode text) = .ok text := by
  rw [functionName, Text.decode?_eq_some_iff.mpr rfl]

/-
  An operation is found again in any record that has its
  values from some slot on.
-/
theorem Operation.ofRecord_of_get
    (op : Operation)
    (record : Record)
    (start : Nat)
    (hGet :
      ∀ i {field value},
        (Layout.operationFields op.kind)[i]? = some field →
        op.values[i]? = some value →
        record.get (start + i) = .ok (field, value)) :
    ofRecord op.kind record start = .ok op := by
  cases op with
  | replicatorOnboarding content =>
      have hCapacity :
          record.u64 start = .ok content.capacity.value :=
        Record.view_of_get (hGet 0 rfl rfl) rfl
      have hKey :
          record.fixed 48 (start + 1) = .ok content.blsKey :=
        Record.fixed_of_get (hGet 1 rfl rfl)
      simp only [ofRecord, kind, hCapacity, hKey,
        liftM_table_ok, ok_bind]
      rfl
  | prepareDrive content =>
      have hSize :
          record.u64 start = .ok content.size.value :=
        Record.view_of_get (hGet 0 rfl rfl) rfl
      have hFee :
          record.u64 (start + 1) =
            .ok content.verificationFee.value :=
        Record.view_of_get (hGet 1 rfl rfl) rfl
      have hCount :
          record.u16 (start + 2) =
            .ok content.replicatorCount :=
        Record.view_of_get (hGet 2 rfl rfl) rfl
      simp only [ofRecord, kind, hSize, hFee, hCount,
        liftM_table_ok, ok_bind]
      rfl
  | dataModification content =>
      have hDrive :
          record.fixed 32 start = .ok content.drive :=
        Record.fixed_of_get (hGet 0 rfl rfl)
      have hData :
          record.fixed 32 (start + 1) =
            .ok content.downloadData :=
        Record.fixed_of_get (hGet 1 rfl rfl)
      have hSize :
          record.u64 (start + 2) =
            .ok content.uploadSize.value :=
        Record.view_of_get (hGet 2 rfl rfl) rfl
      have hFee :
          record.u64 (start + 3) =
            .ok content.feedbackFee.value :=
        Record.view_of_get (hGet 3 rfl rfl) rfl
      simp only [ofRecord, kind, hDrive, hData, hSize, hFee,
        liftM_table_ok, ok_bind]
      rfl
  | dataModificationCancel content =>
      have hDrive :
          record.fixed 32 start = .ok content.drive :=
        Record.fixed_of_get (hGet 0 rfl rfl)
      have hId :
          record.fixed 32 (start + 1) =
            .ok content.modification :=
        Record.fixed_of_get (hGet 1 rfl rfl)
      simp only [ofRecord, kind, hDrive, hId, liftM_table_ok,
        ok_bind]
      rfl
  | driveClosure content =>
      have hDrive :
          record.fixed 32 start = .ok content.drive :=
        Record.fixed_of_get (hGet 0 rfl rfl)
      simp only [ofRecord, kind, hDrive, liftM_table_ok,
        ok_bind]
      rfl
  | endDriveVerification content =>
      have hDrive :
          record.fixed 32 start = .ok content.drive :=
        Record.fixed_of_get (hGet 0 rfl rfl)
      have hTrigger :
          record.fixed 32 (start + 1) = .ok content.trigger :=
        Record.fixed_of_get (hGet 1 rfl rfl)
      have hKeys :
          record.array (start + 2) =
            .ok (content.provers.map (·.toList)) :=
        Record.view_of_get (hGet 2 rfl rfl) rfl
      have hProvers :=
        mapM_map_inverse (proverKey_toList record.name)
          content.provers
      have hRows := Record.rows_of_get (hGet 3 rfl rfl)
      have hOpinions :=
        mapM_ofRecord "opinions" content.opinions
          (Opinion.ofRecord_row "opinions")
      simp only [ofRecord, kind, hDrive, hTrigger, hKeys,
        hProvers, hRows, hOpinions, liftM_table_ok, ok_bind]
      rfl
  | deploy content =>
      have hDrive :
          record.fixed 32 start = .ok content.drive :=
        Record.fixed_of_get (hGet 0 rfl rfl)
      have hOwner :
          record.fixed 32 (start + 1) = .ok content.owner :=
        Record.fixed_of_get (hGet 1 rfl rfl)
      have hFile :
          record.fixed 32 (start + 2) =
            .ok content.fileHash :=
        Record.fixed_of_get (hGet 2 rfl rfl)
      have hVersion :
          record.u64 (start + 3) = .ok content.vmVersion :=
        Record.view_of_get (hGet 3 rfl rfl) rfl
      simp only [ofRecord, kind, hDrive, hOwner, hFile,
        hVersion, liftM_table_ok, ok_bind]
      rfl
  | startExecute content =>
      have hContract :
          record.fixed 32 start = .ok content.superContract :=
        Record.fixed_of_get (hGet 0 rfl rfl)
      have hBytes :
          record.bytes (start + 1) =
            .ok (Text.encode content.function) :=
        Record.view_of_get (hGet 1 rfl rfl) rfl
      have hData :
          record.bytes (start + 3) = .ok content.data :=
        Record.view_of_get (hGet 3 rfl rfl) rfl
      have hFunction := functionName_encode content.function
      have hRows := Record.rows_of_get (hGet 2 rfl rfl)
      have hMosaics :=
        mapM_ofRecord "mosaics" content.mosaics
          (Mosaic.ofRecord_row "mosaics")
      simp only [ofRecord, kind, hContract, hBytes, hData,
        hFunction, hRows, hMosaics, liftM_table_ok, ok_bind]
      rfl

end DriveMarket
