import DriveMarket.Crypto.Sha3
import DriveMarket.Transaction.Encode

/-
  Signing and hashing of transactions.

  What is signed is the table from the version word on, bound
  to a network by its generation hash.  For aggregates the
  signed part ends where the cosignatures start, so attaching
  cosignatures changes neither signature nor hash.

  Key definitions include:
    * `Transaction.signedPart`
    * `transactionHash`
    * `Transaction.hash`
    * `SignedTransaction`
    * `Transaction.sign`
    * `Transaction.verify`
-/

namespace DriveMarket

------------------------------------------------------------
-- Signed Part
------------------------------------------------------------

/- Where the signed part of a written transaction ends. -/
def EncodedTable.signedEnd
    (table : EncodedTable)
    (kind : TransactionKind) : Except FormError Nat :=
  match kind with
  | .operation _ => .ok table.bytes.length
  | .aggregate _ =>
      match table.offsets[Layout.cosignatureSlot]? with
      | some offset => .ok offset
      | none => .error .noCosignatureField

/- The signed part of a written transaction. -/
def EncodedTable.signedPart
    (table : EncodedTable)
    (kind : TransactionKind) : Except FormError Bytes := do
  let stop ← table.signedEnd kind
  if signedStart ≤ stop ∧ stop ≤ table.bytes.length then
    return (table.bytes.take stop).drop signedStart
  else
    throw .shorterThanHeader

/- The bytes of a transaction that its signature covers. -/
def Transaction.signedPart
    (tx : Transaction) : Except TransactionError Bytes := do
  let table ← tx.encodeTable
  (table.signedPart tx.kind).mapError .form

/- What a signature is made of: the network, then the part. -/
def signedMessage
    (generationHash : Digest)
    (part : Bytes) : Bytes :=
  generationHash.toList ++ part

------------------------------------------------------------
-- Hashes
------------------------------------------------------------

/-
  The hash of a transaction.  Of the signature only the first
  half enters.
-/
def transactionHash
    (signature : Signature)
    (signer : PublicKey)
    (generationHash : Digest)
    (part : Bytes) : Digest :=
  Sha3.hashParts
    [signature.toList.take 32, signer.toList,
      generationHash.toList, part]

/- The hash of a transaction as it is signed now. -/
def Transaction.hash
    (generationHash : Digest)
    (tx : Transaction) : Except TransactionError Digest := do
  let part ← tx.signedPart
  return transactionHash tx.header.signature tx.header.signer
    generationHash part

------------------------------------------------------------
-- Signatures
------------------------------------------------------------

/- A signed transaction, the bytes to announce, and its hash. -/
structure SignedTransaction where
  transaction : Transaction
  payload : Bytes
  hash : Digest

/- Sign a transaction, over any signer and signature it had. -/
def Transaction.sign
    (scheme : SignatureScheme)
    (seed : Seed)
    (generationHash : Digest)
    (tx : Transaction) :
    Except TransactionError SignedTransaction := do
  let signer := scheme.publicKey seed
  let tx := { tx with header.signer := signer }
  let part ← tx.signedPart
  let signature :=
    scheme.sign seed (signedMessage generationHash part)
  let tx := { tx with header.signature := signature }
  let payload ← tx.encode
  return {
    transaction := tx
    payload := payload
    hash :=
      transactionHash signature signer generationHash part }

/- Check the signature of a transaction against its signer. -/
def Transaction.verify
    (scheme : SignatureScheme)
    (generationHash : Digest)
    (tx : Transaction) : Except TransactionError Unit := do
  let part ← tx.signedPart
  (scheme.verify tx.header.signer
    (signedMessage generationHash part)
    tx.header.signature).mapError .crypto

end DriveMarket
