import DriveMarket.Json.Transactions
import DriveMarket.Proofs.Json.Restoring
import DriveMarket.Proofs.Transaction.RoundTrip
import DriveMarket.Transaction.Decode

/-
  Transactions that are read back from their JSON form.

  A form loses nothing: amounts, sizes, fees and deadlines
  keep all their bits, and aggregates keep what is nested in
  them.  The one thing that reading checks is that the
  opinions of verification rounds line up, wherever in the
  transaction a round occurs, and the first round that does
  not line up says why the transaction is refused.

  Key definitions include:
    * `Body.rounds`
    * `Transaction.rounds`
    * `validateRounds`
    * `Body.formAt`

  Correctness is proven by:
    * `VerificationRound.form_restores`
    * `Operation.contentForm_restores`
    * `Body.formAt_restores`
    * `Transaction.form_restores`
    * `Transaction.restored_or_refused`
-/

namespace DriveMarket

open RecordFields (Restores)
open JsonForm (restores_uint16 restores_uint64 restores_bool
  restores_text restores_bytes restores_list)

------------------------------------------------------------
-- Operations
------------------------------------------------------------

theorem VerificationResult.form_restores
    (result : VerificationResult) :
    VerificationResult.form.Restores result (.ok ()) :=
  Restores.map VerificationResult.mk
      (.field "prover" (restores_uint16 result.prover))
    |>.seq (.field "result" (restores_bool result.passed))
    |>.form (by decide)

theorem Opinion.form_restores
    (opinion : Opinion) :
    Opinion.form.Restores opinion (.ok ()) :=
  Restores.map Opinion.mk
      (.field "verifier" (restores_uint16 opinion.verifier))
    |>.seq (.field "bls_signature"
      (BlsSignature.form_restores opinion.signature))
    |>.seq (.field "results"
      (restores_list VerificationResult.form_restores
        opinion.results))
    |>.form (by decide)

/- A round is read back if its opinions line up. -/
theorem VerificationRound.form_restores
    (round : VerificationRound) :
    VerificationRound.form.Restores round round.validate := by
  have hFields :
      VerificationRound.fields.form.Restores round (.ok ()) :=
    Restores.map VerificationRound.mk
        (.field "drive_key" (Digest.form_restores round.drive))
      |>.seq (.field "verification_trigger"
        (Digest.form_restores round.trigger))
      |>.seq (.field "provers"
        (restores_list Digest.form_restores round.provers))
      |>.seq (.field "opinions"
        (restores_list Opinion.form_restores round.opinions))
      |>.form (by decide)
  apply hFields.checked
  unfold VerificationRound.make VerificationRound.validate
  cases checkShapes round.provers.length round.opinions with
  | error cause => rfl
  | ok => rfl

theorem Mosaic.form_restores
    (mosaic : Mosaic) :
    Mosaic.form.Restores mosaic (.ok ()) :=
  Restores.map Mosaic.mk
      (.field "id" (restores_uint64 mosaic.id))
    |>.seq (.field "amount"
      (Amount.form_restores mosaic.amount))
    |>.form (by decide)

theorem ReplicatorOnboarding.form_restores
    (content : ReplicatorOnboarding) :
    ReplicatorOnboarding.form.Restores content (.ok ()) :=
  Restores.map ReplicatorOnboarding.mk
      (.field "capacity"
        (Amount.form_restores content.capacity))
    |>.seq (.field "bls_public_key"
      (BlsPublicKey.form_restores content.blsKey))
    |>.form (by decide)

theorem PrepareDrive.form_restores
    (content : PrepareDrive) :
    PrepareDrive.form.Restores content (.ok ()) :=
  Restores.map PrepareDrive.mk
      (.field "drive_size"
        (StorageSize.form_restores content.size))
    |>.seq (.field "verification_fee_amount"
      (Amount.form_restores content.verificationFee))
    |>.seq (.field "replicator_count"
      (restores_uint16 content.replicatorCount))
    |>.form (by decide)

theorem DataModification.form_restores
    (content : DataModification) :
    DataModification.form.Restores content (.ok ()) :=
  Restores.map DataModification.mk
      (.field "drive_key" (Digest.form_restores content.drive))
    |>.seq (.field "download_data_cdi"
      (Digest.form_restores content.downloadData))
    |>.seq (.field "upload_size"
      (StorageSize.form_restores content.uploadSize))
    |>.seq (.field "feedback_fee_amount"
      (Amount.form_restores content.feedbackFee))
    |>.form (by decide)

theorem DataModificationCancel.form_restores
    (content : DataModificationCancel) :
    DataModificationCancel.form.Restores content (.ok ()) :=
  Restores.map DataModificationCancel.mk
      (.field "drive_key" (Digest.form_restores content.drive))
    |>.seq (.field "data_modification_id"
      (Digest.form_restores content.modification))
    |>.form (by decide)

theorem DriveClosure.form_restores
    (content : DriveClosure) :
    DriveClosure.form.Restores content (.ok ()) :=
  Restores.map DriveClosure.mk
      (.field "drive_key" (Digest.form_restores content.drive))
    |>.form (by decide)

theorem Deploy.form_restores
    (content : Deploy) :
    Deploy.form.Restores content (.ok ()) :=
  Restores.map Deploy.mk
      (.field "drive_key" (Digest.form_restores content.drive))
    |>.seq (.field "owner"
      (Digest.form_restores content.owner))
    |>.seq (.field "file_hash"
      (Digest.form_restores content.fileHash))
    |>.seq (.field "vm_version"
      (restores_uint64 content.vmVersion))
    |>.form (by decide)

theorem StartExecute.form_restores
    (content : StartExecute) :
    StartExecute.form.Restores content (.ok ()) :=
  Restores.map StartExecute.mk
      (.field "super_contract"
        (Digest.form_restores content.superContract))
    |>.seq (.field "function" (restores_text content.function))
    |>.seq (.field "mosaics"
      (restores_list Mosaic.form_restores content.mosaics))
    |>.seq (.field "data" (restores_bytes content.data))
    |>.form (by decide)

------------------------------------------------------------
-- Rounds
------------------------------------------------------------

/- The verification round that an operation is, if it is one. -/
def Operation.rounds : Operation → List VerificationRound
  | .endDriveVerification round => [round]
  | _ => []

mutual

/- The verification rounds that occur in a body, in order. -/
def Body.rounds : Body → List VerificationRound
  | .operation content => content.rounds
  | .aggregate _ ⟨transactions, _⟩ =>
      Embedded.listRounds transactions
termination_by structural body => body

/- Those that occur in embedded transactions. -/
def Embedded.listRounds :
    List Embedded → List VerificationRound
  | [] => []
  | ⟨_, _, body⟩ :: rest =>
      body.rounds ++ Embedded.listRounds rest
termination_by structural transactions => transactions

end

/- The verification rounds that occur in a transaction. -/
def Transaction.rounds
    (tx : Transaction) : List VerificationRound :=
  tx.body.rounds

/- Whether all of some rounds line up; the first decides. -/
def validateRounds
    (rounds : List VerificationRound) :
    Except ModelError Unit :=
  rounds.forM VerificationRound.validate

theorem validateRounds_singleton
    (round : VerificationRound) :
    validateRounds [round] = round.validate := by
  unfold validateRounds
  rw [List.forM]
  cases round.validate with
  | error cause => rfl
  | ok => rfl

/- The form of operations of one kind. -/
def Operation.contentForm
    (kind : OperationKind) : JsonForm Operation :=
  { read := readContent kind
    write := writeContent }

/- An operation comes to the verdict on its round. -/
theorem Operation.contentForm_restores
    (content : Operation) :
    (contentForm content.kind).Restores content
      (validateRounds content.rounds) := by
  unfold JsonForm.Restores
  dsimp only [contentForm]
  cases content with
  | replicatorOnboarding content =>
      exact (ReplicatorOnboarding.form_restores
        content).map_eq replicatorOnboarding
  | prepareDrive content =>
      exact (PrepareDrive.form_restores content).map_eq
        prepareDrive
  | dataModification content =>
      exact (DataModification.form_restores content).map_eq
        dataModification
  | dataModificationCancel content =>
      exact (DataModificationCancel.form_restores
        content).map_eq dataModificationCancel
  | driveClosure content =>
      exact (DriveClosure.form_restores content).map_eq
        driveClosure
  | deploy content =>
      exact (Deploy.form_restores content).map_eq deploy
  | startExecute content =>
      exact (StartExecute.form_restores content).map_eq
        startExecute
  | endDriveVerification round =>
      rw [rounds, validateRounds_singleton]
      exact round.form_restores.map_eq endDriveVerification

------------------------------------------------------------
-- Bodies
------------------------------------------------------------

theorem Cosignature.form_restores
    (cosignature : Cosignature) :
    Cosignature.form.Restores cosignature (.ok ()) :=
  Restores.map Cosignature.mk
      (.field "signer"
        (Digest.form_restores cosignature.signer))
    |>.seq (.field "signature"
      (Signature.form_restores cosignature.signature))
    |>.form (by decide)

/- The form of bodies that are nested at most so deeply. -/
def Body.formAt
    (nesting : Nat) : JsonForm Body :=
  { read := Body.readNested nesting
    write := Body.toJson }

section

variable {bodyForm : JsonForm Body}

/- An embedded transaction comes to the verdict on its body. -/
theorem Embedded.formWith_restores
    {embedded : Embedded}
    {verdict : Except ModelError Unit}
    (hBody : bodyForm.Restores embedded.body verdict) :
    (Embedded.formWith bodyForm).Restores embedded
      verdict := by
  have hNames :
      ["signer", "network_type", "body"].Nodup := by
    decide
  have hFields :=
    Restores.map Embedded.mk
        (.field "signer" (Digest.form_restores embedded.signer))
      |>.seq (.field "network_type"
        (Network.form_restores embedded.network))
      |>.seq (.field "body" hBody)
  cases embedded
  exact hFields.form hNames

/- An aggregate comes to the verdict on its transactions. -/
theorem Aggregate.formWith_restores
    {aggregate : Aggregate}
    {rule : Embedded → Except ModelError Unit}
    (hTransactions :
      ∀ embedded ∈ aggregate.transactions,
        (Embedded.formWith bodyForm).Restores embedded
          (rule embedded)) :
    (Aggregate.formWith bodyForm).Restores aggregate
      (aggregate.transactions.forM rule) := by
  have hNames :
      ["transactions", "cosignatures"].Nodup := by
    decide
  have hFields :=
    Restores.map Aggregate.mk
        (.field "transactions" (.list hTransactions))
      |>.seq (.field "cosignatures"
        (restores_list Cosignature.form_restores
          aggregate.cosignatures))
  have hVerdict :
      (aggregate.transactions.forM rule >>= fun _ => .ok ()) =
        aggregate.transactions.forM rule := by
    cases aggregate.transactions.forM rule with
    | error cause => rfl
    | ok => rfl
  rw [hVerdict] at hFields
  cases aggregate
  exact hFields.form hNames

end

/- Embedded transactions are written each in its own form. -/
theorem Embedded.listToJson_eq
    (nesting : Nat)
    (transactions : List Embedded) :
    Embedded.listToJson transactions =
      transactions.map
        (Embedded.formWith (Body.formAt nesting)).write := by
  induction transactions with
  | nil => rfl
  | cons embedded rest ih =>
      rcases embedded with ⟨signer, network, body⟩
      rw [Embedded.listToJson, ih, List.map_cons]
      rfl

/- A body is nested less deeply than what it stands in. -/
theorem Embedded.depth_of_mem
    {embedded : Embedded}
    {transactions : List Embedded}
    (hMem : embedded ∈ transactions) :
    embedded.body.toJson.depth <
      JsonValue.depthOfItems
        (Embedded.listToJson transactions) := by
  induction transactions with
  | nil => cases hMem
  | cons first rest ih =>
      rw [Embedded.listToJson, JsonValue.depthOfItems]
      rcases List.mem_cons.mp hMem with rfl | hRest
      · rcases embedded with ⟨signer, network, body⟩
        apply Nat.lt_of_lt_of_le _ (Nat.le_max_left _ _)
        simp only [Embedded.toJson, JsonValue.depth,
          JsonValue.depthOfMembers, JsonValue.depthOfMember]
        omega
      · exact Nat.lt_of_lt_of_le (ih hRest)
          (Nat.le_max_right _ _)

theorem Body.readNested_operation
    (nesting : Nat)
    (kind : OperationKind)
    (content : JsonValue) :
    Body.readNested nesting (.object [(kind.name, content)]) =
      (Operation.readContent kind content).map
        .operation := by
  have hName :
      TransactionKind.ofName? kind.name =
        some (.operation kind) :=
    TransactionKind.ofName?_name (.operation kind)
  rw [Body.readNested.eq_def]
  simp only [hName]

theorem Body.readNested_aggregate
    (nesting : Nat)
    (form : AggregateForm)
    (content : JsonValue) :
    Body.readNested (nesting + 1)
        (.object [(form.name, content)]) =
      ((Aggregate.formWith (Body.formAt nesting)).read
        content).map (.aggregate form) := by
  have hName :
      TransactionKind.ofName? form.name =
        some (.aggregate form) :=
    TransactionKind.ofName?_name (.aggregate form)
  rw [Body.readNested.eq_def]
  simp only [hName]
  rfl

/- Rounds are validated one transaction after the other. -/
theorem Embedded.forM_validateRounds
    (transactions : List Embedded) :
    (transactions.forM fun embedded =>
        validateRounds embedded.body.rounds) =
      validateRounds (Embedded.listRounds transactions) := by
  induction transactions with
  | nil => rfl
  | cons embedded rest ih =>
      rcases embedded with ⟨signer, network, body⟩
      rw [List.forM, ih, Embedded.listRounds]
      exact List.forM_append.symm

mutual

/- A body comes to the verdict on the rounds that are in it. -/
theorem Body.formAt_restores
    (body : Body)
    (nesting : Nat)
    (hDepth : body.toJson.depth ≤ nesting) :
    (Body.formAt nesting).Restores body
      (validateRounds body.rounds) := by
  match body with
  | .operation content =>
      unfold JsonForm.Restores
      dsimp only [Body.formAt, Body.toJson]
      rw [Body.readNested_operation, Body.rounds]
      exact content.contentForm_restores.map_eq
        Body.operation
  | .aggregate form ⟨transactions, cosignatures⟩ =>
      rw [Body.toJson, Aggregate.toJson, JsonValue.depth,
        JsonValue.depthOfMembers] at hDepth
      cases nesting with
      | zero => cases hDepth
      | succ nesting =>
          have hInner :=
            Embedded.formAt_restores transactions nesting (by
              intro embedded hMem
              have hLess := Embedded.depth_of_mem hMem
              simp only [JsonValue.depthOfMember,
                JsonValue.depth, JsonValue.depthOfMembers]
                at hDepth
              omega)
          have hContent :
              (Aggregate.formWith
                (Body.formAt nesting)).Restores
                ⟨transactions, cosignatures⟩ _ :=
            Aggregate.formWith_restores hInner
          rw [Embedded.forM_validateRounds] at hContent
          have hWrite :
              (Aggregate.formWith (Body.formAt nesting)).write
                  ⟨transactions, cosignatures⟩ =
                Aggregate.toJson
                  ⟨transactions, cosignatures⟩ := by
            rw [Aggregate.toJson,
              Embedded.listToJson_eq nesting]
            rfl
          unfold JsonForm.Restores
          dsimp only [Body.formAt, Body.toJson]
          rw [Body.readNested_aggregate, ← hWrite, Body.rounds]
          exact hContent.map_eq (Body.aggregate form)
  termination_by structural body

/- So do the embedded transactions of an aggregate. -/
theorem Embedded.formAt_restores
    (transactions : List Embedded)
    (nesting : Nat)
    (hDepth :
      ∀ embedded ∈ transactions,
        embedded.body.toJson.depth ≤ nesting) :
    ∀ embedded ∈ transactions,
      (Embedded.formWith (Body.formAt nesting)).Restores
        embedded (validateRounds embedded.body.rounds) := by
  match transactions with
  | [] => exact List.forall_mem_nil _
  | ⟨signer, network, body⟩ :: rest =>
      rw [List.forall_mem_cons] at hDepth ⊢
      constructor
      · apply Embedded.formWith_restores
        exact Body.formAt_restores body nesting hDepth.1
      · exact Embedded.formAt_restores rest nesting hDepth.2
  termination_by structural transactions

end

------------------------------------------------------------
-- Transactions
------------------------------------------------------------

theorem Body.form_restores
    (body : Body) :
    Body.form.Restores body (validateRounds body.rounds) :=
  body.formAt_restores body.toJson.depth (Nat.le_refl _)

theorem Header.form_restores
    (header : Header) :
    Header.form.Restores header (.ok ()) :=
  Restores.map Header.mk
      (.field "signature"
        (Signature.form_restores header.signature))
    |>.seq (.field "signer"
      (Digest.form_restores header.signer))
    |>.seq (.field "network_type"
      (Network.form_restores header.network))
    |>.seq (.field "max_fee"
      (Amount.form_restores header.maxFee))
    |>.seq (.field "deadline"
      (Deadline.form_restores header.deadline))
    |>.form (by decide)

/- A transaction comes to the verdict on its rounds. -/
theorem Transaction.form_restores
    (tx : Transaction) :
    Transaction.form.Restores tx (validateRounds tx.rounds) :=
  Restores.map Transaction.mk
      (.field "header" (Header.form_restores tx.header))
    |>.seq (.field "body" (Body.form_restores tx.body))
    |>.form (by decide)

/- Rounds fail as the first one does that does not line up. -/
theorem validateRounds_eq_error_iff
    {rounds : List VerificationRound}
    {cause : ModelError} :
    validateRounds rounds = .error cause ↔
      ∃ earlier round later,
        rounds = earlier ++ round :: later ∧
        (∀ other ∈ earlier, other.validate = .ok ()) ∧
        round.validate = .error cause := by
  induction rounds with
  | nil => simp [validateRounds, pure, Except.pure]
  | cons first rest ih =>
      unfold validateRounds at ih ⊢
      rw [List.forM, bind_eq_error_iff, ih]
      constructor
      · rintro (hError | ⟨_, hFirst, earlier, round, later,
          rfl, hEarlier, hRound⟩)
        · exact ⟨[], first, rest, rfl, List.forall_mem_nil _,
            hError⟩
        · refine ⟨first :: earlier, round, later, rfl, ?_,
            hRound⟩
          exact List.forall_mem_cons.mpr ⟨hFirst, hEarlier⟩
      · rintro ⟨earlier, round, later, hRounds, hEarlier,
          hRound⟩
        cases earlier with
        | nil =>
            cases hRounds
            exact .inl hRound
        | cons other earlier =>
            cases hRounds
            rw [List.forall_mem_cons] at hEarlier
            exact .inr ⟨(), hEarlier.1, earlier, round, later,
              rfl, hEarlier.2, hRound⟩

/- A check of rounds passes, or the first other one fails it. -/
theorem validateRounds_eq_ok_iff
    {rounds : List VerificationRound} :
    validateRounds rounds = .ok () ↔
      ∀ round ∈ rounds, round.validate = .ok () :=
  forM_eq_ok_iff

theorem Transaction.read_write_eq_ok_iff
    {tx : Transaction} :
    form.read (form.write tx) = .ok tx ↔
      ∀ round ∈ tx.rounds, round.validate = .ok () := by
  rw [tx.form_restores.read_eq, ← validateRounds_eq_ok_iff]
  cases validateRounds tx.rounds with
  | error cause => simp [Except.map]
  | ok => simp [Except.map]

theorem Transaction.read_write_eq_error_iff
    {tx : Transaction}
    {fault : JsonFault} :
    form.read (form.write tx) = .error fault ↔
      ∃ cause,
        fault = .refused cause ∧
        validateRounds tx.rounds = .error cause := by
  rw [tx.form_restores.read_eq]
  cases validateRounds tx.rounds with
  | error cause => simp [Except.map, eq_comm]
  | ok => simp [Except.map]

/-
  A transaction is read back as it is if the opinions of all
  its rounds line up.  Else it is refused under a rule, which
  is the one that its first other round breaks.  That goes for
  every transaction that can be decoded, and the numbers of 64
  bits that transactions hold come back whatever they are.
-/
theorem Transaction.restored_or_refused
    (tx : Transaction) :
    (form.read (form.write tx) = .ok tx ↔
      ∀ round ∈ tx.rounds, round.validate = .ok ()) ∧
    (∀ fault,
      form.read (form.write tx) = .error fault ↔
        ∃ cause earlier round later,
          fault = .refused cause ∧
          tx.rounds = earlier ++ round :: later ∧
          (∀ other ∈ earlier, other.validate = .ok ()) ∧
          round.validate = .error cause) ∧
    (∀ bytes,
      decode bytes = .ok tx →
      (form.read (form.write tx) = .ok tx ↔
        ¬ ∃ round ∈ tx.rounds,
          ∃ cause, round.validate = .error cause)) ∧
    ∀ n : UInt64,
      Amount.form.read (Amount.form.write ⟨n⟩) = .ok ⟨n⟩ ∧
      StorageSize.form.read (StorageSize.form.write ⟨n⟩) =
        .ok ⟨n⟩ ∧
      Deadline.form.read (Deadline.form.write ⟨n⟩) =
        .ok ⟨n⟩ ∧
      JsonForm.uint64.read (JsonForm.uint64.write n) =
        .ok n := by
  refine ⟨read_write_eq_ok_iff, ?_, ?_, ?_⟩
  · intro fault
    simp only [read_write_eq_error_iff,
      validateRounds_eq_error_iff, exists_and_left]
  · intro bytes hDecode
    rw [read_write_eq_ok_iff]
    constructor
    · rintro hValid ⟨round, hMem, cause, hError⟩
      rw [hValid round hMem] at hError
      cases hError
    · intro hNone round hMem
      cases hRound : round.validate with
      | error cause =>
          exact absurd ⟨round, hMem, cause, hRound⟩ hNone
      | ok => rfl
  · intro n
    exact ⟨(Amount.form_restores ⟨n⟩).read_eq,
      (StorageSize.form_restores ⟨n⟩).read_eq,
      (Deadline.form_restores ⟨n⟩).read_eq,
      (restores_uint64 n).read_eq⟩

/-
  An aggregate can be decoded, though a round of nobody stands
  in it, for which it is refused when it is read back.
-/
theorem Transaction.restored_or_refused_decoded :
    let round : VerificationRound :=
      ⟨.zero 32, .zero 32, [], []⟩
    let embedded : Embedded := {
      signer := .zero 32
      network := .mijinTest
      body := .operation (.endDriveVerification round) }
    let tx : Transaction :=
      ⟨.unsigned .mijinTest ⟨0⟩ ⟨1⟩,
        .aggregate .complete ⟨[embedded], []⟩⟩
    ∃ bytes,
      decode bytes = .ok tx ∧
      form.read (form.write tx) =
        .error (.refused .emptyProverList) := by
  intro round embedded tx
  have hEncode : ∃ bytes, tx.encode = .ok bytes :=
    exists_eq_ok (by decide +kernel)
  rcases hEncode with ⟨bytes, hEncode⟩
  refine ⟨bytes, decode_of_encode hEncode, ?_⟩
  rw [tx.restored_or_refused.2.1]
  exact ⟨.emptyProverList, [], round, [], rfl, rfl,
    List.forall_mem_nil _, rfl⟩

end DriveMarket
