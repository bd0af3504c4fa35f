import DriveMarket.Cosigning.Draft
import DriveMarket.Proofs.Cosigning.Collecting
import DriveMarket.Proofs.Transaction.SignedPart

/-
  What holds of every pending aggregate, and of what it is
  announced as.

  An aggregate is opened once its signature verifies, and from
  then on its hash and the signers it requires are fixed.
  Whatever is attached or merged, only verified signatures of
  required signers are kept.  As cosignatures have no part in
  what is signed, the announced aggregate has the signature
  and the hash that the pending one had.

  Key definitions include:
    * `PendingAggregate.Reachable`
    * `PendingAggregate.WellFormed`
    * `SignedTransaction.Announceable`

  Correctness is proven by:
    * `PendingAggregate.Reachable.keeps`
    * `PendingAggregate.start_eq_ok_iff`
    * `PendingAggregate.WellFormed.start`
    * `PendingAggregate.WellFormed.attach`
    * `PendingAggregate.Reachable.wellFormed`
    * `PendingAggregate.WellFormed.finish_announceable`
    * `PendingAggregate.finish_of_reachable`
-/

namespace DriveMarket

------------------------------------------------------------
-- Inner Signers
------------------------------------------------------------

namespace Transaction

/- The signers of the transactions inside an aggregate. -/
def innerSigners
    (tx : Transaction) : List PublicKey :=
  match tx.body.aggregate? with
  | none => []
  | some content => content.transactions.map (·.signer)

theorem innerSigners_withCosignatures
    (cosignatures : List Cosignature)
    (tx : Transaction) :
    (tx.withCosignatures cosignatures).innerSigners =
      tx.innerSigners := by
  rcases tx with ⟨header, body⟩
  cases body <;> rfl

/- All inner signers but the initiator have to cosign. -/
theorem contains_requiredCosigners
    {tx : Transaction}
    {required : OrderedSet PublicKey}
    (hRequired : tx.requiredCosigners = .ok required)
    (key : PublicKey) :
    required.contains key ↔
      key ∈ tx.innerSigners ∧ key ≠ tx.header.signer := by
  unfold requiredCosigners at hRequired
  unfold innerSigners
  cases hContent : tx.body.aggregate? with
  | none =>
      rw [hContent] at hRequired
      cases hRequired
  | some content =>
      rw [hContent] at hRequired
      cases hRequired
      rw [OrderedSet.contains_ofList, List.mem_filter,
        bne_iff_ne]

/- Only aggregates ask for cosigners, and they keep them. -/
theorem cosignatures_of_requiredCosigners
    {tx : Transaction}
    {required : OrderedSet PublicKey}
    (hRequired : tx.requiredCosigners = .ok required)
    (cosignatures : List Cosignature) :
    (tx.withCosignatures cosignatures).kind.isAggregate ∧
      (tx.withCosignatures cosignatures).body.cosignatures =
        cosignatures := by
  rcases tx with ⟨header, body⟩
  cases body with
  | operation content => cases hRequired
  | aggregate form content => exact ⟨rfl, rfl⟩

/- A transaction that verifies can be written. -/
theorem exists_encode_of_verify
    {tx : Transaction}
    {scheme : SignatureScheme}
    {generationHash : Digest}
    (hVerify : tx.verify scheme generationHash = .ok ()) :
    ∃ bytes, tx.encode = .ok bytes := by
  unfold verify at hVerify
  rw [bind_eq_ok_iff] at hVerify
  rcases hVerify with ⟨part, hPart, -⟩
  unfold signedPart at hPart
  rw [bind_eq_ok_iff] at hPart
  rcases hPart with ⟨table, hTable, -⟩
  refine ⟨table.bytes, ?_⟩
  rw [encode, hTable]
  rfl

/- What a verified hash is. -/
theorem verifiedHash_eq_ok
    {tx : Transaction}
    {scheme : SignatureScheme}
    {generationHash hash : Digest}
    (hHash :
      tx.verifiedHash scheme generationHash = .ok hash) :
    tx.verify scheme generationHash = .ok () ∧
      tx.hash generationHash = .ok hash := by
  unfold verifiedHash at hHash
  by_cases hSigned : tx.header.isSigned
  · simp only [hSigned, Bool.not_true, Bool.false_eq_true,
      if_false, bind_eq_ok_iff, mapError_eq_ok_iff] at hHash
    rcases hHash with ⟨_, hVerify, hHash⟩
    exact ⟨hVerify, hHash⟩
  · simp [hSigned] at hHash
    cases hHash

end Transaction

namespace PendingAggregate

variable {scheme : SignatureScheme}
variable {generationHash : Digest}
variable {pending : PendingAggregate}

------------------------------------------------------------
-- Reachable Accumulators
------------------------------------------------------------

/-
  An accumulator that was opened for an aggregate, received or
  just signed, and then offered cosignatures, one by one,
  several at once or out of any other accumulator.
-/
inductive Reachable
    (scheme : SignatureScheme)
    (generationHash : Digest) : PendingAggregate → Prop where
  | start
      {tx : Transaction}
      {pending : PendingAggregate}
      (hStart : start scheme generationHash tx = .ok pending) :
      Reachable scheme generationHash pending
  | sign
      {factory : Factory}
      {seed : Seed}
      {now : UInt64}
      {draft : AggregateDraft}
      {pending : PendingAggregate}
      (hNetwork :
        factory.settings.generationHash = generationHash)
      (hSign :
        draft.sign factory scheme seed now = .ok pending) :
      Reachable scheme generationHash pending
  | attach
      {pending : PendingAggregate}
      (cosignature : Cosignature)
      (hPending : Reachable scheme generationHash pending) :
      Reachable scheme generationHash
        (pending.attach scheme cosignature).2
  | attachAll
      {pending : PendingAggregate}
      (cosignatures : List Cosignature)
      (hPending : Reachable scheme generationHash pending) :
      Reachable scheme generationHash
        (pending.attachAll scheme cosignatures).2
  | merge
      {pending : PendingAggregate}
      (other : PendingAggregate)
      (hPending : Reachable scheme generationHash pending) :
      Reachable scheme generationHash
        (pending.merge scheme other).2

section Kept

variable {P : PendingAggregate → Prop}

/- What one cosignature cannot change, several cannot. -/
theorem attachAll_keeps
    (hAttach :
      ∀ {pending : PendingAggregate} (cosignature : Cosignature),
        P pending → P (pending.attach scheme cosignature).2)
    (cosignatures : List Cosignature)
    (hPending : P pending) :
    P (pending.attachAll scheme cosignatures).2 := by
  induction cosignatures generalizing pending with
  | nil => exact hPending
  | cons cosignature rest ih =>
      have hNext := hAttach cosignature hPending
      unfold PendingAggregate.attachAll
      cases hFirst : pending.attach scheme cosignature with
      | mk result next =>
          rw [hFirst] at hNext
          cases result with
          | error cause => exact hNext
          | ok isNew => exact ih hNext

/-
  What holds of every opened accumulator and is kept whenever
  a cosignature is attached holds of every reachable one.
-/
theorem Reachable.keeps
    (hStart :
      ∀ {tx : Transaction} {pending : PendingAggregate},
        PendingAggregate.start scheme generationHash tx =
          .ok pending →
        P pending)
    (hAttach :
      ∀ {pending : PendingAggregate} (cosignature : Cosignature),
        P pending → P (pending.attach scheme cosignature).2)
    (hReachable : Reachable scheme generationHash pending) :
    P pending := by
  induction hReachable with
  | start hOpened => exact hStart hOpened
  | sign hNetwork hSign =>
      subst hNetwork
      unfold AggregateDraft.sign at hSign
      simp only [bind_eq_ok_iff] at hSign
      rcases hSign with ⟨tx, -, signed, -, hOpened⟩
      exact hStart hOpened
  | attach cosignature hPending ih =>
      exact hAttach cosignature ih
  | attachAll cosignatures hPending ih =>
      exact attachAll_keeps hAttach cosignatures ih
  | merge other hPending ih =>
      unfold PendingAggregate.merge
      split
      · exact attachAll_keeps hAttach other.cosignatures ih
      · exact ih

end Kept

/-
  An accumulator is opened for an aggregate that holds
  something, if its signature verifies and all cosignatures
  that it carries are accepted.
-/
theorem start_eq_ok_iff
    {tx : Transaction} :
    start scheme generationHash tx = .ok pending ↔
      ∃ form content hash required count,
        tx.body = .aggregate form content ∧
        content.transactions ≠ [] ∧
        (tx.withCosignatures []).verifiedHash scheme
            generationHash =
          .ok hash ∧
        (tx.withCosignatures []).requiredCosigners =
          .ok required ∧
        attachAll scheme content.cosignatures
            ⟨tx.withCosignatures [], hash, required,
              .empty⟩ =
          (.ok count, pending) := by
  rcases tx with ⟨header, body⟩
  cases body with
  | operation content =>
      constructor
      · intro hStart
        cases hStart
      · rintro ⟨form, content, hash, required, count, hBody, -⟩
        cases hBody
  | aggregate form content =>
      unfold start
      constructor
      · intro hStart
        by_cases hEmpty : content.transactions.isEmpty
        · simp [Body.aggregate?, hEmpty] at hStart
          cases hStart
        simp only [Body.aggregate?, hEmpty,
          Bool.false_eq_true, if_false, bind_eq_ok_iff]
          at hStart
        rcases hStart with
          ⟨hash, hHash, required, hRequired, hCarried⟩
        have hSome : content.transactions ≠ [] := by
          simpa using hEmpty
        split at hCarried
        · cases hCarried
        · rename_i count next hAll
          cases hCarried
          exact ⟨form, content, hash, required, count, rfl,
            hSome, hHash, hRequired, hAll⟩
      · rintro ⟨form', content', hash, required, count, hBody,
          hSome, hHash, hRequired, hAll⟩
        cases hBody
        have hEmpty : ¬ content.transactions.isEmpty := by
          simpa using hSome
        simp only [Body.aggregate?, hEmpty,
          Bool.false_eq_true, if_false, hHash, hRequired,
          ok_bind, hAll]
        rfl

/-
  The signature of the aggregate verifies, hash and required
  signers are its own, and every cosignature is accepted.
-/
structure WellFormed
    (scheme : SignatureScheme)
    (generationHash : Digest)
    (pending : PendingAggregate) : Prop where
  verified :
    pending.transaction.verify scheme generationHash = .ok ()
  hashed :
    pending.transaction.hash generationHash =
      .ok pending.hash
  required :
    pending.transaction.requiredCosigners =
      .ok pending.required
  collected :
    ∀ cosignature ∈ pending.cosignatures,
      pending.Accepts scheme cosignature

namespace WellFormed

theorem attach
    (cosignature : Cosignature)
    (hPending : pending.WellFormed scheme generationHash) :
    (pending.attach scheme cosignature).2.WellFormed scheme
      generationHash := by
  rw [attach_snd]
  by_cases hAccepts : pending.Accepts scheme cosignature
  · rw [if_pos hAccepts]
    refine
      { verified := hPending.verified
        hashed := hPending.hashed
        required := hPending.required
        collected := ?_ }
    intro other hMem
    rcases List.mem_map.mp hMem with ⟨entry, hEntry, rfl⟩
    rcases OrderedMap.mem_insertNew hEntry with hNew | hOld
    · rw [hNew]
      exact hAccepts
    · exact hPending.collected _
        (List.mem_map.mpr ⟨entry, hOld, rfl⟩)
  · rw [if_neg hAccepts]
    exact hPending

/- Nothing is opened that does not verify. -/
theorem start
    {tx : Transaction}
    (hStart :
      PendingAggregate.start scheme generationHash tx =
        .ok pending) :
    pending.WellFormed scheme generationHash := by
  rcases start_eq_ok_iff.mp hStart with
    ⟨form, content, hash, required, count, -, -, hHash,
      hRequired, hAll⟩
  rcases Transaction.verifiedHash_eq_ok hHash with
    ⟨hVerified, hHashed⟩
  have hOpened :
      WellFormed scheme generationHash
        ⟨tx.withCosignatures [], hash, required, .empty⟩ :=
    { verified := hVerified
      hashed := hHashed
      required := hRequired
      collected := by
        intro cosignature hMem
        cases hMem }
  have hAttached :=
    attachAll_keeps WellFormed.attach content.cosignatures
      hOpened
  rw [hAll] at hAttached
  exact hAttached

end WellFormed

/- Every reachable accumulator is well-formed. -/
theorem Reachable.wellFormed
    (hReachable : Reachable scheme generationHash pending) :
    pending.WellFormed scheme generationHash :=
  hReachable.keeps .start .attach

end PendingAggregate

------------------------------------------------------------
-- Announcing
------------------------------------------------------------

/-
  A signed aggregate as the network wants it: the bytes are
  those of the transaction, signature and hash are right, and
  every inner signer but the initiator has cosigned the hash,
  each once and nobody else, in the order of their keys.
-/
structure SignedTransaction.Announceable
    (scheme : SignatureScheme)
    (generationHash : Digest)
    (signed : SignedTransaction) : Prop where
  decode_eq :
    Transaction.decode signed.payload =
      .ok signed.transaction
  isAggregate : signed.transaction.kind.isAggregate
  verify_eq :
    signed.transaction.verify scheme generationHash = .ok ()
  hash_eq :
    signed.transaction.hash generationHash = .ok signed.hash
  signers_increasing :
    (signed.transaction.body.cosignatures.map
      (·.signer)).Pairwise (· < ·)
  mem_signers_iff :
    ∀ key,
      key ∈ signed.transaction.body.cosignatures.map
          (·.signer) ↔
        key ∈ signed.transaction.innerSigners ∧
          key ≠ signed.transaction.header.signer
  cosignatures_verify :
    ∀ cosignature ∈ signed.transaction.body.cosignatures,
      scheme.verify cosignature.signer signed.hash.toList
        cosignature.signature = .ok ()

namespace PendingAggregate

variable {scheme : SignatureScheme}
variable {generationHash : Digest}
variable {pending : PendingAggregate}

/- Those missing are in order, each listed once. -/
theorem missing_increasing
    (pending : PendingAggregate) :
    pending.missing.Pairwise (· < ·) :=
  pending.required.keys_increasing.filter _

theorem signers_increasing
    (pending : PendingAggregate) :
    pending.signers.Pairwise (· < ·) := by
  rw [signers_eq_keys]
  exact pending.signatures.keys_increasing

namespace WellFormed

/- Missing are the required signers who have not cosigned. -/
theorem mem_missing_iff
    (hPending : pending.WellFormed scheme generationHash)
    (key : PublicKey) :
    key ∈ pending.missing ↔
      key ∈ pending.transaction.innerSigners ∧
        key ≠ pending.initiator ∧
        key ∉ pending.signers := by
  unfold missing initiator
  rw [signers_eq_keys, List.mem_filter,
    OrderedMap.mem_keys_iff, OrderedMap.mem_keys_iff,
    Transaction.contains_requiredCosigners
      hPending.required]
  simp [and_assoc]

/- Nobody cosigns who is not required. -/
theorem required_of_mem_signers
    {key : PublicKey}
    (hPending : pending.WellFormed scheme generationHash)
    (hMem : key ∈ pending.signers) :
    key ∈ pending.transaction.innerSigners ∧
      key ≠ pending.initiator := by
  rcases List.mem_map.mp hMem with ⟨cosignature, hIn, rfl⟩
  have hAccepted := hPending.collected cosignature hIn
  exact (Transaction.contains_requiredCosigners
    hPending.required _).mp hAccepted.1

/- Once nobody is missing, exactly the required have signed. -/
theorem mem_signers_iff
    (hPending : pending.WellFormed scheme generationHash)
    (hNobody : pending.missing = [])
    (key : PublicKey) :
    key ∈ pending.signers ↔
      key ∈ pending.transaction.innerSigners ∧
        key ≠ pending.initiator := by
  constructor
  · exact hPending.required_of_mem_signers
  · rintro ⟨hInner, hOther⟩
    by_contra hNot
    have hMissing :=
      (hPending.mem_missing_iff key).mpr
        ⟨hInner, hOther, hNot⟩
    rw [hNobody] at hMissing
    cases hMissing

/- What is announced in the end is as it should be. -/
theorem finish_announceable
    {payload : Bytes}
    (hPending : pending.WellFormed scheme generationHash)
    (hNobody : pending.missing = [])
    (hEncode : pending.toTransaction.encode = .ok payload) :
    SignedTransaction.Announceable scheme generationHash
      ⟨pending.toTransaction, payload, pending.hash⟩ := by
  have hBare :=
    Transaction.exists_encode_of_verify hPending.verified
  have hPart :
      pending.toTransaction.signedPart =
        pending.transaction.signedPart :=
    Transaction.signedPart_withCosignatures hBare
      ⟨payload, hEncode⟩
  rcases Transaction.cosignatures_of_requiredCosigners
      hPending.required pending.cosignatures with
    ⟨hAggregate, hCosignatures⟩
  change
    pending.toTransaction.body.cosignatures =
      pending.cosignatures at hCosignatures
  have hSigners :
      pending.toTransaction.body.cosignatures.map
          (·.signer) =
        pending.signers := by
    rw [hCosignatures]
    rfl
  refine
    { decode_eq := Transaction.decode_of_encode hEncode
      isAggregate := hAggregate
      verify_eq := ?_
      hash_eq := ?_
      signers_increasing := ?_
      mem_signers_iff := ?_
      cosignatures_verify := ?_ }
  · exact
      (Transaction.verify_withCosignatures scheme
        generationHash hPart).trans hPending.verified
  · exact
      (Transaction.hash_withCosignatures generationHash
        hPart).trans hPending.hashed
  · rw [hSigners]
    exact pending.signers_increasing
  · intro key
    rw [hSigners, hPending.mem_signers_iff hNobody, toTransaction,
      Transaction.innerSigners_withCosignatures]
    rfl
  · intro cosignature hMem
    rw [hCosignatures] at hMem
    exact (hPending.collected cosignature hMem).2

/- Only a length beyond 32 bits keeps it from being written. -/
theorem encode_error
    {cause : CosigningError}
    (hPending : pending.WellFormed scheme generationHash)
    (hError : pending.encode = .error cause) :
    ∃ table field length,
      cause =
        .transaction
          (.table (.lengthOverflow table field length)) ∧
      0x100000000 ≤ length := by
  unfold encode at hError
  rw [mapError_eq_error_iff] at hError
  rcases hError with ⟨inner, hInner, rfl⟩
  have hBare :=
    Transaction.exists_encode_of_verify hPending.verified
  have hOverflow :=
    Transaction.encode_withCosignatures_error hBare hInner
  rcases hOverflow.exists_length with
    ⟨length, -, rfl, hLarge⟩
  exact ⟨_, _, _, rfl, hLarge⟩

end WellFormed

theorem finish_complete
    (hNobody : pending.missing = []) :
    pending.finish =
      (do
        let payload ← pending.encode
        return {
          transaction := pending.toTransaction
          payload := payload
          hash := pending.hash }) := by
  unfold finish
  rw [hNobody]
  rfl

theorem finish_incomplete
    (hSomebody : pending.missing ≠ []) :
    pending.finish =
      .error (.incomplete pending.missing) := by
  unfold finish
  rw [if_neg (by simpa using hSomebody)]

/-
  A reachable accumulator is finished exactly if every inner
  signer but the initiator has cosigned; otherwise those who
  have not are told, in order.  What is announced then is the
  aggregate with all cosignatures, and only a length beyond 32
  bits can keep it from being announced.
-/
theorem finish_of_reachable
    (hReachable : Reachable scheme generationHash pending) :
    (∀ signed,
      pending.finish = .ok signed →
      signed.transaction = pending.toTransaction ∧
        signed.Announceable scheme generationHash) ∧
    (∀ key,
      key ∈ pending.transaction.innerSigners →
      key ≠ pending.initiator →
      key ∉ pending.signers →
      pending.finish = .error (.incomplete pending.missing)) ∧
    pending.missing.Pairwise (· < ·) ∧
    (∀ key,
      key ∈ pending.missing ↔
        key ∈ pending.transaction.innerSigners ∧
          key ≠ pending.initiator ∧
          key ∉ pending.signers) ∧
    (pending.missing = [] →
      ∀ cause,
        pending.finish = .error cause →
        ∃ table field length,
          cause =
            .transaction
              (.table (.lengthOverflow table field length)) ∧
          0x100000000 ≤ length) := by
  have hPending := hReachable.wellFormed
  have hMissing := hPending.mem_missing_iff
  refine ⟨?_, ?_, pending.missing_increasing, hMissing, ?_⟩
  · intro signed hFinish
    by_cases hNobody : pending.missing = []
    · rw [finish_complete hNobody, bind_eq_ok_iff] at hFinish
      rcases hFinish with ⟨payload, hEncode, hPure⟩
      cases hPure
      unfold encode at hEncode
      rw [mapError_eq_ok_iff] at hEncode
      exact ⟨rfl,
        hPending.finish_announceable hNobody hEncode⟩
    · rw [finish_incomplete hNobody] at hFinish
      cases hFinish
  · intro key hInner hOther hNot
    have hMem := (hMissing key).mpr ⟨hInner, hOther, hNot⟩
    exact finish_incomplete (List.ne_nil_of_mem hMem)
  · intro hNobody cause hError
    rw [finish_complete hNobody, bind_eq_error_iff] at hError
    rcases hError with hEncode | ⟨payload, -, hPure⟩
    · exact hPending.encode_error hEncode
    · cases hPure

open SignatureScheme (byName)

/-
  An aggregate whose initiator asks another account to close
  its drive: it can be announced once the other has cosigned,
  and not before.
-/
theorem finish_of_reachable_cosigned :
    let closure : Embedded := {
      signer := secondSeed
      network := .mijinTest
      body := .operation (.driveClosure ⟨.zero 32⟩) }
    let tx : Transaction :=
      ⟨.unsigned .mijinTest ⟨0⟩ ⟨1⟩,
        .aggregate .complete ⟨[closure], []⟩⟩
    ∃ signed pending finished,
      tx.sign byName firstSeed (.zero 32) = .ok signed ∧
      PendingAggregate.start byName (.zero 32)
        signed.transaction = .ok pending ∧
      pending.missing = [secondSeed] ∧
      pending.finish = .error (.incomplete [secondSeed]) ∧
      (pending.attach byName
        (.make byName secondSeed pending.hash)).2.finish =
          .ok finished ∧
      finished.Announceable byName (.zero 32) := by
  intro closure tx
  have hRun :
      ∃ finished, (do
        let signed ←
          (tx.sign byName firstSeed (.zero 32)).mapError
            .transaction
        let pending ←
          PendingAggregate.start byName (.zero 32)
            signed.transaction
        if pending.missing != [secondSeed] then
          throw .emptyAggregate
        (pending.attach byName
          (.make byName secondSeed
            pending.hash)).2.finish) =
        Except.ok finished :=
    exists_eq_ok (by decide +kernel)
  simp only [bind_eq_ok_iff, mapError_eq_ok_iff] at hRun
  rcases hRun with
    ⟨finished, signed, hSign, pending, hStart, h⟩
  by_cases hMissing : pending.missing = [secondSeed]
  · simp only [hMissing, bne_self_eq_false, Bool.false_eq_true,
      if_false] at h
    have hReachable := Reachable.start hStart
    rcases finish_of_reachable hReachable with
      ⟨-, hIncomplete, -, hMem, -⟩
    rcases finish_of_reachable
        (hReachable.attach
          (.make byName secondSeed pending.hash)) with
      ⟨hFinish, -⟩
    have hNeeded : secondSeed ∈ pending.missing := by
      rw [hMissing]
      exact List.mem_cons_self
    rcases (hMem secondSeed).mp hNeeded with
      ⟨hInner, hOther, hNot⟩
    refine ⟨signed, pending, finished, hSign, hStart,
      hMissing, ?_, h, (hFinish finished h).2⟩
    rw [← hMissing]
    exact hIncomplete secondSeed hInner hOther hNot
  · simp [hMissing] at h
    cases h
end PendingAggregate

end DriveMarket
