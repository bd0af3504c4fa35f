import DriveMarket.Proofs.Transaction.Values

/-
  What can come of reading the parts of a transaction.

  A record whose values fit the layout of an operation gives
  an operation of that kind, or spells none: a result is
  neither passed nor failed, or a function's name is not text.
  A record whose values fit a header gives the kind and the
  network that it tells, or one of them is unknown.  No field
  is missing or of another kind than its reader expects.

  Key definitions include:
    * `TransactionError.RefusesBytes`

  Correctness is proven by:
    * `TransactionError.RefusesBytes.code_mem`
    * `Operation.ofRecord_yields`
    * `readTags_yields`
-/

namespace DriveMarket

------------------------------------------------------------
-- Refusals
------------------------------------------------------------

/-
  What bytes are refused with: they end too early, declare a
  wrong size, or are in order but spell no transaction.
-/
def TransactionError.RefusesBytes : TransactionError → Prop
  | .table (.malformedBuffer ..) => True
  | .table (.sizeMismatch ..) => True
  | .form _ => True
  | _ => False

theorem TransactionError.RefusesBytes.code_mem
    {cause : TransactionError}
    (hRefuses : cause.RefusesBytes) :
    cause.code ∈
      ["Codec.MalformedBuffer", "Codec.SizeMismatch",
        "Codec.SchemaMismatch"] := by
  cases cause with
  | table cause =>
      cases cause with
      | malformedBuffer => exact .head _
      | sizeMismatch => exact .tail _ (.head _)
      | _ => cases hRefuses
  | form cause => exact .tail _ (.tail _ (.head _))
  | _ => cases hRefuses

theorem TableError.IsMalformed.refusesBytes
    {cause : TableError}
    (hMalformed : cause.IsMalformed) :
    (TransactionError.table cause).RefusesBytes := by
  cases cause with
  | malformedBuffer => trivial
  | _ => cases hMalformed

/- All that spells no transaction refuses the bytes. -/
theorem liftM_form_yields
    {α : Type}
    {x : Except FormError α}
    {returns : α → Prop}
    (hReturns : ∀ a, x = .ok a → returns a) :
    Yields (liftM x : Except TransactionError α)
      returns TransactionError.RefusesBytes := by
  cases x with
  | error cause => exact .error trivial
  | ok a => exact .ok (hReturns a rfl)

------------------------------------------------------------
-- Rows
------------------------------------------------------------

/- What is read row by row is read, or some row refuses. -/
theorem mapM_rows_yields
    {α : Type}
    {fields : List Field}
    {rows : List Record}
    {read : Record → Except TransactionError α}
    (hRows :
      ∀ row ∈ rows, row.fields = fields ∧ row.WellTyped)
    (hRead :
      ∀ {row : Record},
        row.fields = fields →
        row.WellTyped →
        Yields (read row)
          (fun _ => True) TransactionError.RefusesBytes) :
    Yields (rows.mapM read)
      (fun _ => True) TransactionError.RefusesBytes := by
  have hAll :
      Yields (rows.mapM read) (fun items => ∀ _ ∈ items, True)
        TransactionError.RefusesBytes :=
    .mapM fun row hMem =>
      hRead (hRows row hMem).1 (hRows row hMem).2
  exact hAll.any

/- A row of results is a result, or says neither yes nor no. -/
theorem VerificationResult.ofRecord_yields
    {row : Record}
    (hFields : row.fields = Layout.resultFields)
    (hTyped : row.WellTyped) :
    Yields (ofRecord row)
      (fun _ => True) TransactionError.RefusesBytes := by
  rcases row with ⟨name, fields, values⟩
  cases hFields
  rcases hTyped.u8 1 rfl with ⟨byte, hByte⟩
  rcases hTyped.u16 0 rfl with ⟨prover, hProver⟩
  rw [ofRecord]
  simp only [hByte, hProver, liftM_table_ok, ok_bind]
  split
  · exact .ok trivial
  · exact .ok trivial
  · exact .error trivial

theorem Opinion.ofRecord_yields
    {row : Record}
    (hFields : row.fields = Layout.opinionFields)
    (hTyped : row.WellTyped) :
    Yields (ofRecord row)
      (fun _ => True) TransactionError.RefusesBytes := by
  rcases row with ⟨name, fields, values⟩
  cases hFields
  rcases hTyped.u16 0 rfl with ⟨verifier, hVerifier⟩
  rcases hTyped.fixed 1 rfl with ⟨signature, hSignature⟩
  rcases hTyped.rows 2 rfl with ⟨rows, hRows, hEach⟩
  have hResults :=
    mapM_rows_yields hEach VerificationResult.ofRecord_yields
  rw [ofRecord]
  simp only [hRows, hVerifier, hSignature, liftM_table_ok,
    ok_bind]
  exact hResults.bind fun _ _ => .ok trivial

theorem Mosaic.ofRecord_yields
    {row : Record}
    (hFields : row.fields = Layout.mosaicFields)
    (hTyped : row.WellTyped) :
    Yields (ofRecord row)
      (fun _ => True) TransactionError.RefusesBytes := by
  rcases row with ⟨name, fields, values⟩
  cases hFields
  rcases hTyped.u64 0 rfl with ⟨id, hId⟩
  rcases hTyped.u64 1 rfl with ⟨amount, hAmount⟩
  rw [ofRecord]
  simp only [hId, hAmount, liftM_table_ok, ok_bind]
  exact .ok trivial

theorem Cosignature.ofRecord_yields
    {row : Record}
    (hFields : row.fields = Layout.cosignatureFields)
    (hTyped : row.WellTyped) :
    Yields (ofRecord row)
      (fun _ => True) TransactionError.RefusesBytes := by
  rcases row with ⟨name, fields, values⟩
  cases hFields
  rcases hTyped.fixed 0 rfl with ⟨signer, hSigner⟩
  rcases hTyped.fixed 1 rfl with ⟨signature, hSignature⟩
  rw [ofRecord]
  simp only [hSigner, hSignature, liftM_table_ok, ok_bind]
  exact .ok trivial

------------------------------------------------------------
-- Operations
------------------------------------------------------------

/- Keys of the width of a key are keys. -/
theorem mapM_proverKey
    {items : List Bytes}
    (table : String)
    (hItems : ∀ item ∈ items, item.length = 32) :
    ∃ keys, items.mapM (proverKey table) = .ok keys := by
  induction items with
  | nil => exact ⟨[], rfl⟩
  | cons item items ih =>
      rw [List.forall_mem_cons] at hItems
      rcases ih hItems.2 with ⟨keys, hKeys⟩
      have hKey :
          proverKey table item = .ok ⟨item, hItems.1⟩ :=
        proverKey_toList table ⟨item, hItems.1⟩
      rw [List.mapM_cons, hKey, hKeys]
      exact ⟨_, rfl⟩

theorem functionName_yields
    (bytes : Bytes) :
    Yields (functionName bytes)
      (fun _ => True) TransactionError.RefusesBytes := by
  rw [functionName]
  split
  · exact .ok trivial
  · exact .error trivial

/-
  A record with the fields of an operation from some slot on
  gives an operation of that kind, or spells none.
-/
theorem Operation.ofRecord_yields
    {op : OperationKind}
    {record : Record}
    {start : Nat}
    (hTyped : record.WellTyped)
    (hFields :
      ∀ i {field},
        (Layout.operationFields op)[i]? = some field →
        record.fields[start + i]? = some field) :
    Yields (ofRecord op record start)
      (fun content => content.kind = op)
      TransactionError.RefusesBytes := by
  cases op with
  | replicatorOnboarding =>
      rcases hTyped.u64 start (hFields 0 rfl) with
        ⟨capacity, hCapacity⟩
      rcases hTyped.fixed (start + 1) (hFields 1 rfl) with
        ⟨key, hKey⟩
      rw [ofRecord]
      simp only [hCapacity, hKey, liftM_table_ok, ok_bind]
      exact .ok rfl
  | prepareDrive =>
      rcases hTyped.u64 start (hFields 0 rfl) with
        ⟨size, hSize⟩
      rcases hTyped.u64 (start + 1) (hFields 1 rfl) with
        ⟨fee, hFee⟩
      rcases hTyped.u16 (start + 2) (hFields 2 rfl) with
        ⟨count, hCount⟩
      rw [ofRecord]
      simp only [hSize, hFee, hCount, liftM_table_ok, ok_bind]
      exact .ok rfl
  | dataModification =>
      rcases hTyped.fixed start (hFields 0 rfl) with
        ⟨drive, hDrive⟩
      rcases hTyped.fixed (start + 1) (hFields 1 rfl) with
        ⟨data, hData⟩
      rcases hTyped.u64 (start + 2) (hFields 2 rfl) with
        ⟨size, hSize⟩
      rcases hTyped.u64 (start + 3) (hFields 3 rfl) with
        ⟨fee, hFee⟩
      rw [ofRecord]
      simp only [hDrive, hData, hSize, hFee, liftM_table_ok,
        ok_bind]
      exact .ok rfl
  | dataModificationCancel =>
      rcases hTyped.fixed start (hFields 0 rfl) with
        ⟨drive, hDrive⟩
      rcases hTyped.fixed (start + 1) (hFields 1 rfl) with
        ⟨id, hId⟩
      rw [ofRecord]
      simp only [hDrive, hId, liftM_table_ok, ok_bind]
      exact .ok rfl
  | driveClosure =>
      rcases hTyped.fixed start (hFields 0 rfl) with
        ⟨drive, hDrive⟩
      rw [ofRecord]
      simp only [hDrive, liftM_table_ok, ok_bind]
      exact .ok rfl
  | endDriveVerification =>
      rcases hTyped.fixed start (hFields 0 rfl) with
        ⟨drive, hDrive⟩
      rcases hTyped.fixed (start + 1) (hFields 1 rfl) with
        ⟨trigger, hTrigger⟩
      rcases hTyped.array (start + 2) (hFields 2 rfl) with
        ⟨items, hItems, hWidth⟩
      rcases hTyped.rows (start + 3) (hFields 3 rfl) with
        ⟨rows, hRows, hEach⟩
      rcases mapM_proverKey record.name hWidth with
        ⟨keys, hKeys⟩
      have hOpinions :=
        mapM_rows_yields hEach Opinion.ofRecord_yields
      rw [ofRecord]
      simp only [hItems, hKeys, hRows, hDrive, hTrigger,
        liftM_table_ok, ok_bind]
      exact hOpinions.bind fun _ _ => .ok rfl
  | deploy =>
      rcases hTyped.fixed start (hFields 0 rfl) with
        ⟨drive, hDrive⟩
      rcases hTyped.fixed (start + 1) (hFields 1 rfl) with
        ⟨owner, hOwner⟩
      rcases hTyped.fixed (start + 2) (hFields 2 rfl) with
        ⟨file, hFile⟩
      rcases hTyped.u64 (start + 3) (hFields 3 rfl) with
        ⟨version, hVersion⟩
      rw [ofRecord]
      simp only [hDrive, hOwner, hFile, hVersion,
        liftM_table_ok, ok_bind]
      exact .ok rfl
  | startExecute =>
      rcases hTyped.fixed start (hFields 0 rfl) with
        ⟨contract, hContract⟩
      rcases hTyped.bytes (start + 1) (hFields 1 rfl) with
        ⟨name, hName⟩
      rcases hTyped.rows (start + 2) (hFields 2 rfl) with
        ⟨rows, hRows, hEach⟩
      rcases hTyped.bytes (start + 3) (hFields 3 rfl) with
        ⟨data, hData⟩
      have hMosaics :=
        mapM_rows_yields hEach Mosaic.ofRecord_yields
      rw [ofRecord]
      simp only [hName, hRows, hContract, hData,
        liftM_table_ok, ok_bind]
      exact (functionName_yields name).bind fun _ _ =>
        hMosaics.bind fun _ _ => .ok rfl

------------------------------------------------------------
-- Tags
------------------------------------------------------------

/- A known tag is that of its kind. -/
theorem readTag_eq_ok
    {tag : UInt16}
    {kind : TransactionKind}
    (hRead : readTag tag = .ok kind) :
    kind.tag = tag := by
  unfold readTag at hRead
  cases hKind : TransactionKind.ofTag? tag with
  | none =>
      rw [hKind] at hRead
      cases hRead
  | some found =>
      rw [hKind] at hRead
      cases hRead
      have hTag := List.find?_some hKind
      exact beq_iff_eq.mp hTag

/- A word packs the network and version that it is read as. -/
theorem readNetwork_eq_ok
    {kind : TransactionKind}
    {word : UInt32}
    {network : Network}
    (hRead : readNetwork kind word = .ok network) :
    VersionWord.pack network kind.version = word := by
  unfold readNetwork VersionWord.unpack at hRead
  dsimp only at hRead
  split at hRead
  · cases hRead
  · rename_i found hByte
    split at hRead
    · rename_i hVersion
      cases hRead
      have hFound := List.find?_some hByte
      have hWord := word.toNat_lt
      have hHigh :
          network.byte.toNat = word.toNat / 0x1000000 := by
        rw [beq_iff_eq.mp hFound, UInt8.toNat_ofNat']
        omega
      rw [VersionWord.pack, hHigh, ← hVersion,
        Nat.div_add_mod', UInt32.ofNat_toNat]
    · cases hRead

/- A header tells the kind and the network that its tags are. -/
theorem readTags_yields
    {versionSlot typeSlot : Nat}
    {versionName typeName : String}
    {header : Record}
    (hTyped : header.WellTyped)
    (hVersion :
      header.fields[versionSlot]? = some ⟨versionName, .u32⟩)
    (hType :
      header.fields[typeSlot]? = some ⟨typeName, .u16⟩) :
    Yields (readTags versionSlot typeSlot header)
      (fun found =>
        header.values[versionSlot]? =
            some (.u32
              (VersionWord.pack found.2 found.1.version)) ∧
          header.values[typeSlot]? = some (.u16 found.1.tag))
      TransactionError.RefusesBytes := by
  rcases hTyped.get hVersion with
    ⟨_, hWord, hGetWord, ⟨⟩⟩
  rcases hTyped.get hType with ⟨_, hTag, hGetTag, ⟨⟩⟩
  have hU32 : header.u32 versionSlot = .ok _ :=
    Record.view_of_get hGetWord rfl
  have hU16 : header.u16 typeSlot = .ok _ :=
    Record.view_of_get hGetTag rfl
  rw [readTags, hU16, hU32]
  simp only [liftM_table_ok, ok_bind]
  refine (liftM_form_yields fun _ => readTag_eq_ok).bind ?_
  rintro kind rfl
  refine (liftM_form_yields fun _ => readNetwork_eq_ok).bind ?_
  rintro network rfl
  exact .ok ⟨hWord, hTag⟩

end DriveMarket
