import DriveMarket.Proofs.Cosigning.Pending

/-
  Pending aggregates that are passed on.

  An accumulator is passed on as the bytes of its aggregate
  with the cosignatures collected so far.  Whoever receives
  them checks everything again, and as only what is accepted
  was ever collected, ends up with the same accumulator.  The
  cosignatures that travel along change neither signature nor
  hash, so that what is signed on a copy counts everywhere.

  Key definitions include:
    * `PendingAggregate.Opened`

  Correctness is proven by:
    * `PendingAggregate.Reachable.opened`
    * `PendingAggregate.Opened.start_toTransaction`
    * `PendingAggregate.Opened.cosign_toTransaction`
    * `PendingAggregate.relay_of_reachable`
-/

namespace DriveMarket

------------------------------------------------------------
-- Copies of a Transaction
------------------------------------------------------------

/- The verified hash is the same with other cosignatures. -/
theorem Transaction.verifiedHash_withCosignatures
    {tx : Transaction}
    {cosignatures : List Cosignature}
    (scheme : SignatureScheme)
    (generationHash : Digest)
    (hPart :
      (tx.withCosignatures cosignatures).signedPart =
        tx.signedPart) :
    (tx.withCosignatures cosignatures).verifiedHash scheme
        generationHash =
      tx.verifiedHash scheme generationHash := by
  unfold verifiedHash
  rw [verify_withCosignatures scheme generationHash hPart,
    hash_withCosignatures generationHash hPart]
  rfl

namespace PendingAggregate

variable {scheme : SignatureScheme}
variable {generationHash : Digest}
variable {pending : PendingAggregate}

------------------------------------------------------------
-- Opened Accumulators
------------------------------------------------------------

/-
  An accumulator for an aggregate that holds something, has no
  cosignatures of its own and a signature that verifies, with
  the hash and the required signers of that aggregate.
-/
structure Opened
    (scheme : SignatureScheme)
    (generationHash : Digest)
    (pending : PendingAggregate) : Prop where
  bare :
    ∃ form transactions,
      pending.transaction.body =
          .aggregate form ⟨transactions, []⟩ ∧
        transactions ≠ []
  hash :
    pending.transaction.verifiedHash scheme generationHash =
      .ok pending.hash
  required :
    pending.transaction.requiredCosigners =
      .ok pending.required

namespace Opened

/- What is collected has no part in how it was opened. -/
theorem withSignatures
    (signatures : OrderedMap PublicKey Signature)
    (hPending : pending.Opened scheme generationHash) :
    Opened scheme generationHash
      { pending with signatures := signatures } :=
  ⟨hPending.bare, hPending.hash, hPending.required⟩

theorem attach
    (cosignature : Cosignature)
    (hPending : pending.Opened scheme generationHash) :
    (pending.attach scheme cosignature).2.Opened scheme
      generationHash := by
  rw [attach_snd]
  exact hPending.withSignatures _

theorem start
    {tx : Transaction}
    (hStart :
      PendingAggregate.start scheme generationHash tx =
        .ok pending) :
    pending.Opened scheme generationHash := by
  rcases start_eq_ok_iff.mp hStart with
    ⟨form, content, hash, required, count, hBody, hSome,
      hHash, hRequired, hAll⟩
  have hOpened :
      Opened scheme generationHash
        ⟨tx.withCosignatures [], hash, required, .empty⟩ :=
    { bare := by
        refine ⟨form, content.transactions, ?_, hSome⟩
        rw [Transaction.withCosignatures, hBody]
        rfl
      hash := hHash
      required := hRequired }
  have hAttached :=
    attachAll_keeps Opened.attach content.cosignatures hOpened
  rw [hAll] at hAttached
  exact hAttached

end Opened

/- Every reachable accumulator was opened. -/
theorem Reachable.opened
    (hReachable : Reachable scheme generationHash pending) :
    pending.Opened scheme generationHash :=
  hReachable.keeps .start .attach

------------------------------------------------------------
-- Copies
------------------------------------------------------------

namespace Opened

/- The aggregate of an accumulator carries what it collected. -/
theorem toTransaction_body
    (hPending : pending.Opened scheme generationHash) :
    ∃ form transactions,
      pending.toTransaction.body =
          .aggregate form
            ⟨transactions, pending.cosignatures⟩ ∧
        transactions ≠ [] ∧
        pending.toTransaction.withCosignatures [] =
          pending.transaction := by
  rcases hPending.bare with
    ⟨form, transactions, hBody, hSome⟩
  refine ⟨form, transactions, ?_, hSome, ?_⟩
  · rw [toTransaction, Transaction.withCosignatures, hBody]
    rfl
  · rw [toTransaction, Transaction.withCosignatures,
      Transaction.withCosignatures, hBody]
    simp only [Body.withCosignatures]
    rw [← hBody]

/-
  If all that was collected is accepted, it is collected again
  from the aggregate that carries it.
-/
theorem start_toTransaction
    (hPending : pending.Opened scheme generationHash)
    (hCollected :
      ∀ cosignature ∈ pending.cosignatures,
        pending.Accepts scheme cosignature) :
    PendingAggregate.start scheme generationHash
        pending.toTransaction =
      .ok pending := by
  rcases hPending.toTransaction_body with
    ⟨form, transactions, hBody, hSome, hBare⟩
  let opened : PendingAggregate :=
    { pending with signatures := .empty }
  have hAccepts :
      ∀ cosignature ∈ pending.cosignatures,
        opened.Accepts scheme cosignature :=
    hCollected
  have hSame :
      opened.attachEach scheme pending.cosignatures =
        pending := by
    rw [attachEach_eq, OrderedMap.collect_entries
      pending.signatures]
    · exact pending.entries_cosignatures
    · intro cosignature hMem
      rw [decide_eq_true_eq]
      exact hAccepts cosignature hMem
  rcases attachAll_of_accepts hAccepts with ⟨count, hAll⟩
  rw [hSame] at hAll
  refine start_eq_ok_iff.mpr
    ⟨form, _, pending.hash, pending.required, count, hBody,
      hSome, ?_, ?_, ?_⟩
  · rw [hBare]
    exact hPending.hash
  · rw [hBare]
    exact hPending.required
  · rw [hBare]
    exact hAll

/-
  What is signed on a copy with cosignatures is the hash of
  the aggregate without them.
-/
theorem cosign_toTransaction
    {bytes : Bytes}
    (hPending : pending.Opened scheme generationHash)
    (hEncode : pending.toTransaction.encode = .ok bytes)
    (seed : Seed) :
    pending.toTransaction.cosign scheme seed generationHash =
      .ok (.make scheme seed pending.hash) := by
  rcases hPending.toTransaction_body with
    ⟨form, transactions, hBody, -, -⟩
  have hVerified :=
    (Transaction.verifiedHash_eq_ok hPending.hash).1
  have hBare := Transaction.exists_encode_of_verify hVerified
  have hPart :
      pending.toTransaction.signedPart =
        pending.transaction.signedPart :=
    Transaction.signedPart_withCosignatures hBare
      ⟨bytes, hEncode⟩
  have hHash :
      pending.toTransaction.verifiedHash scheme
          generationHash =
        .ok pending.hash :=
    (Transaction.verifiedHash_withCosignatures scheme
      generationHash hPart).trans hPending.hash
  rw [Transaction.cosign, Transaction.kind, hBody, hHash]
  rfl

section SameAggregate

variable {other : PendingAggregate}

/- Hash and required signers follow from the aggregate. -/
theorem fixed
    (hPending : pending.Opened scheme generationHash)
    (hOther : other.Opened scheme generationHash)
    (hSame : other.transaction = pending.transaction) :
    other.hash = pending.hash ∧
      other.required = pending.required := by
  have hHash := hOther.hash
  have hRequired := hOther.required
  rw [hSame, hPending.hash] at hHash
  rw [hSame, hPending.required] at hRequired
  exact ⟨(Except.ok.inj hHash).symm,
    (Except.ok.inj hRequired).symm⟩

/- Accumulators for one aggregate agree on what they accept. -/
theorem accepts_iff
    (hPending : pending.Opened scheme generationHash)
    (hOther : other.Opened scheme generationHash)
    (hSame : other.transaction = pending.transaction)
    (cosignature : Cosignature) :
    other.Accepts scheme cosignature ↔
      pending.Accepts scheme cosignature := by
  rcases hPending.fixed hOther hSame with ⟨hHash, hRequired⟩
  unfold Accepts
  rw [hHash, hRequired]

end SameAggregate

end Opened

/-
  The bytes of a reachable accumulator are read as a copy from
  which the same accumulator is opened again.  A cosignature
  that a required signer makes on the copy is attached to
  every accumulator for the same aggregate, as a new one
  exactly if its signer had none there.
-/
theorem relay_of_reachable
    {bytes : Bytes}
    (hReachable : Reachable scheme generationHash pending)
    (hEncode : pending.encode = .ok bytes) :
    ∃ copy,
      Transaction.decode bytes = .ok copy ∧
      start scheme generationHash copy = .ok pending ∧
      (scheme.AcceptsOwn →
        ∀ seed,
          pending.required.contains (scheme.publicKey seed) →
          ∃ cosignature,
            copy.cosign scheme seed generationHash =
              .ok cosignature ∧
            cosignature.signer = scheme.publicKey seed ∧
            ∀ other,
              Reachable scheme generationHash other →
              other.transaction = pending.transaction →
              (other.attach scheme cosignature).1 =
                .ok (!other.signatures.contains
                  (scheme.publicKey seed))) := by
  have hPending := hReachable.opened
  have hCollected := hReachable.wellFormed.collected
  unfold encode at hEncode
  rw [mapError_eq_ok_iff] at hEncode
  refine ⟨pending.toTransaction,
    Transaction.decode_of_encode hEncode,
    hPending.start_toTransaction hCollected, ?_⟩
  intro hScheme seed hRequired
  refine ⟨_, hPending.cosign_toTransaction hEncode seed, rfl,
    ?_⟩
  intro other hOther hSame
  have hAccepts :
      pending.Accepts scheme
        (.make scheme seed pending.hash) :=
    ⟨hRequired, hScheme seed pending.hash.toList⟩
  exact attach_of_accepts
    ((hPending.accepts_iff hOther.opened hSame _).mpr hAccepts)

open SignatureScheme (byName)

/-
  An aggregate that another account has cosigned is passed on.
  On the copy the other cosigns once more, which is new to
  whoever opened the aggregate before, and only to them.
-/
theorem relay_of_reachable_cosigned :
    let closure : Embedded := {
      signer := secondSeed
      network := .mijinTest
      body := .operation (.driveClosure ⟨.zero 32⟩) }
    let tx : Transaction :=
      ⟨.unsigned .mijinTest ⟨0⟩ ⟨1⟩,
        .aggregate .bonded ⟨[closure], []⟩⟩
    ∃ signed pending attached bytes copy cosignature,
      tx.sign byName firstSeed (.zero 32) = .ok signed ∧
      PendingAggregate.start byName (.zero 32)
        signed.transaction = .ok pending ∧
      attached = (pending.attach byName
        (.make byName secondSeed pending.hash)).2 ∧
      attached.encode = .ok bytes ∧
      Transaction.decode bytes = .ok copy ∧
      PendingAggregate.start byName (.zero 32) copy =
        .ok attached ∧
      copy.cosign byName secondSeed (.zero 32) =
        .ok cosignature ∧
      (pending.attach byName cosignature).1 = .ok true ∧
      (attached.attach byName cosignature).1 = .ok false := by
  intro closure tx
  have hRun :
      ∃ bytes, (do
        let signed ←
          (tx.sign byName firstSeed (.zero 32)).mapError
            .transaction
        let pending ←
          PendingAggregate.start byName (.zero 32)
            signed.transaction
        let attached :=
          (pending.attach byName
            (.make byName secondSeed pending.hash)).2
        if !attached.required.contains secondSeed ||
            pending.signatures.contains secondSeed ||
            !attached.signatures.contains secondSeed then
          throw .emptyAggregate
        attached.encode) =
        Except.ok bytes :=
    exists_eq_ok (by decide +kernel)
  simp only [bind_eq_ok_iff, mapError_eq_ok_iff] at hRun
  rcases hRun with
    ⟨bytes, signed, hSign, pending, hStart, hChecked⟩
  split at hChecked
  · cases hChecked
  · rename_i hSides
    simp only [Bool.or_eq_true, Bool.not_eq_true', not_or,
      Bool.not_eq_true, Bool.not_eq_false] at hSides
    rcases hSides with ⟨⟨hRequired, hNew⟩, hOld⟩
    have hPending := Reachable.start hStart
    have hAttached :=
      hPending.attach
        (.make byName secondSeed pending.hash)
    rcases relay_of_reachable hAttached hChecked with
      ⟨copy, hDecode, hCopy, hCosign⟩
    rcases hCosign SignatureScheme.byName_acceptsOwn secondSeed
        hRequired with
      ⟨cosignature, hMade, -, hOthers⟩
    have hSame :
        pending.transaction =
          (pending.attach byName
            (.make byName secondSeed
              pending.hash)).2.transaction := by
      rw [attach_snd]
    have hFirst := hOthers pending hPending hSame
    have hSecond := hOthers _ hAttached rfl
    refine ⟨signed, pending, _, bytes, copy, cosignature,
      hSign, hStart, rfl, hChecked, hDecode, hCopy, hMade,
      ?_, ?_⟩
    · rw [hFirst]
      exact congrArg (Except.ok !·) hNew
    · rw [hSecond]
      exact congrArg (Except.ok !·) hOld

end PendingAggregate

end DriveMarket
