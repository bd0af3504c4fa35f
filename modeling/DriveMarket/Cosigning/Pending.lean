import DriveMarket.Cosigning.Error
import DriveMarket.Ordered.Map
import DriveMarket.Transaction.Signing

/-
  Collecting the cosignatures of a signed aggregate.

  The initiator's signature fixes the hash that everybody else
  with a transaction in the aggregate has to sign.  Signatures
  are kept under their signers, so they may arrive in any
  order and more than once.

  Key definitions include:
    * `Cosignature.make`
    * `Transaction.requiredCosigners`
    * `Transaction.cosign`
    * `PendingAggregate`
    * `PendingAggregate.start`
    * `PendingAggregate.attach`
    * `PendingAggregate.attachAll`
    * `PendingAggregate.merge`
    * `PendingAggregate.finish`
-/

namespace DriveMarket

------------------------------------------------------------
-- Cosignatures
------------------------------------------------------------

/- The signature of an aggregate's hash under a seed. -/
def Cosignature.make
    (scheme : SignatureScheme)
    (seed : Seed)
    (hash : Digest) : Cosignature :=
  { signer := scheme.publicKey seed
    signature := scheme.sign seed hash.toList }

/-
  Who has to cosign an aggregate: the signers of its
  transactions, without the initiator.
-/
def Transaction.requiredCosigners
    (tx : Transaction) :
    Except CosigningError (OrderedSet PublicKey) :=
  match tx.body.aggregate? with
  | none => .error (.notAggregate tx.kind)
  | some content =>
      .ok (OrderedSet.ofList
        ((content.transactions.map (·.signer)).filter
          (· != tx.header.signer)))

/- The hash of a transaction whose signature verifies. -/
def Transaction.verifiedHash
    (scheme : SignatureScheme)
    (generationHash : Digest)
    (tx : Transaction) : Except CosigningError Digest := do
  if !tx.header.isSigned then
    throw .unsigned
  (tx.verify scheme generationHash).mapError .transaction
  (tx.hash generationHash).mapError .transaction

/- Cosign an aggregate after checking its signature. -/
def Transaction.cosign
    (scheme : SignatureScheme)
    (seed : Seed)
    (generationHash : Digest)
    (tx : Transaction) :
    Except CosigningError Cosignature := do
  if !tx.kind.isAggregate then
    throw (.notAggregate tx.kind)
  let hash ← tx.verifiedHash scheme generationHash
  return .make scheme seed hash

------------------------------------------------------------
-- Pending Aggregates
------------------------------------------------------------

/-
  A signed aggregate, without cosignatures of its own, and
  those that were collected for its hash.
-/
structure PendingAggregate where
  transaction : Transaction
  hash : Digest
  required : OrderedSet PublicKey
  signatures : OrderedMap PublicKey Signature

namespace PendingAggregate

/- The account that signed the aggregate. -/
def initiator
    (pending : PendingAggregate) : PublicKey :=
  pending.transaction.header.signer

/- The collected cosignatures in the order of their signers. -/
def cosignatures
    (pending : PendingAggregate) : List Cosignature :=
  pending.signatures.entries.map fun entry =>
    { signer := entry.1
      signature := entry.2 }

/- The required signers without a cosignature, in order. -/
def missing
    (pending : PendingAggregate) : List PublicKey :=
  pending.required.keys.filter
    (!pending.signatures.contains ·)

/- Whether there are as many cosignatures as required. -/
def isComplete
    (pending : PendingAggregate) : Bool :=
  pending.signatures.size == pending.required.size

------------------------------------------------------------
-- Attaching Cosignatures
------------------------------------------------------------

/- Whether a cosignature is required, and verifies. -/
def check
    (scheme : SignatureScheme)
    (cosignature : Cosignature)
    (pending : PendingAggregate) :
    Except CosigningError Unit :=
  if !pending.required.contains cosignature.signer then
    .error (.unexpectedSigner cosignature.signer)
  else
    match scheme.verify cosignature.signer
        pending.hash.toList cosignature.signature with
    | .ok () => .ok ()
    | .error _ =>
        .error (.invalidCosignature cosignature.signer)

/-
  Attach a cosignature, and tell whether its signer had none.
  The first one of each signer is kept.
-/
def attach
    (scheme : SignatureScheme)
    (cosignature : Cosignature)
    (pending : PendingAggregate) :
    Except CosigningError Bool × PendingAggregate :=
  match pending.check scheme cosignature with
  | .error cause => (.error cause, pending)
  | .ok () =>
      if pending.signatures.contains cosignature.signer then
        (.ok false, pending)
      else
        (.ok true,
          { pending with
            signatures :=
              pending.signatures.insert cosignature.signer
                cosignature.signature })

/-
  Attach cosignatures up to the first one that is refused, and
  count the signers who had none.
-/
def attachAll
    (scheme : SignatureScheme) :
    List Cosignature →
    PendingAggregate →
    Except CosigningError Nat × PendingAggregate
  | [], pending => (.ok 0, pending)
  | cosignature :: rest, pending =>
      match pending.attach scheme cosignature with
      | (.error cause, pending) => (.error cause, pending)
      | (.ok isNew, pending) =>
          let (count, pending) :=
            attachAll scheme rest pending
          (count.map (· + isNew.toNat), pending)

/- Attach what was collected elsewhere for the same hash. -/
def merge
    (scheme : SignatureScheme)
    (pending other : PendingAggregate) :
    Except CosigningError Nat × PendingAggregate :=
  if other.hash = pending.hash then
    pending.attachAll scheme other.cosignatures
  else
    (.error (.hashMismatch pending.hash other.hash), pending)

------------------------------------------------------------
-- Starting
------------------------------------------------------------

/-
  Collect for a signed aggregate.  The cosignatures that it
  carries are attached, and none of them may be refused.
-/
def start
    (scheme : SignatureScheme)
    (generationHash : Digest)
    (tx : Transaction) :
    Except CosigningError PendingAggregate :=
  match tx.body.aggregate? with
  | none => .error (.notAggregate tx.kind)
  | some content => do
      if content.transactions.isEmpty then
        throw .emptyAggregate
      let bare := tx.withCosignatures []
      let hash ← bare.verifiedHash scheme generationHash
      let required ← bare.requiredCosigners
      let pending : PendingAggregate :=
        { transaction := bare
          hash := hash
          required := required
          signatures := .empty }
      match pending.attachAll scheme content.cosignatures with
      | (.error cause, _) => throw cause
      | (.ok _, pending) => return pending

------------------------------------------------------------
-- Finishing
------------------------------------------------------------

/- The aggregate with the cosignatures collected so far. -/
def toTransaction
    (pending : PendingAggregate) : Transaction :=
  pending.transaction.withCosignatures pending.cosignatures

/- The bytes of the aggregate as it is now, to pass it on. -/
def encode
    (pending : PendingAggregate) :
    Except CosigningError Bytes :=
  pending.toTransaction.encode.mapError .transaction

/- The aggregate to announce, once nobody is missing. -/
def finish
    (pending : PendingAggregate) :
    Except CosigningError SignedTransaction :=
  if pending.missing.isEmpty then do
    let payload ← pending.encode
    return {
      transaction := pending.toTransaction
      payload := payload
      hash := pending.hash }
  else
    .error (.incomplete pending.missing)

end PendingAggregate

end DriveMarket
