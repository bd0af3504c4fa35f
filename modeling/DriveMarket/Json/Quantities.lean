import DriveMarket.Crypto.Bls12381.Encoding
import DriveMarket.Deadline
import DriveMarket.Json.Record
import DriveMarket.Network
import DriveMarket.Quantity
import DriveMarket.Transaction.Kind

/-
  The JSON forms of quantities, keys, and names.

  A quantity is a list of its two words, low word first.

  Key definitions include:
    * `Amount.form`
    * `StorageSize.form`
    * `Deadline.form`
    * `BlsPublicKey.form`
    * `BlsSignature.form`
-/

namespace DriveMarket

------------------------------------------------------------
-- Quantities
------------------------------------------------------------

/- Two words, low word first. -/
def Words.form : JsonForm Words :=
  (JsonForm.pair .uint32 .uint32).convert
    (fun pair => { low := pair.1, high := pair.2 })
    (fun words => (words.low, words.high))

/- Amounts, as their words. -/
def Amount.form : JsonForm Amount :=
  Words.form.convert Amount.ofWords Amount.words

/- Sizes, as their words. -/
def StorageSize.form : JsonForm StorageSize :=
  Words.form.convert StorageSize.ofWords StorageSize.words

/- Deadlines, as numbers. -/
def Deadline.form : JsonForm Deadline :=
  JsonForm.uint64.convert Deadline.mk Deadline.value

------------------------------------------------------------
-- Keys and Digests
------------------------------------------------------------

/- Keys of accounts and drives, and digests. -/
def Digest.form : JsonForm Digest :=
  JsonForm.fixedBytes 32

/- BLS public keys, as records of their bytes. -/
def BlsPublicKey.form : JsonForm BlsPublicKey :=
  (id <$> field "bytes" (.fixedBytesOrText 48)
    id : RecordFields BlsPublicKey BlsPublicKey).form

/- BLS signatures, as records of their bytes. -/
def BlsSignature.form : JsonForm BlsSignature :=
  (id <$> field "bytes" (.fixedBytesOrText 96)
    id : RecordFields BlsSignature BlsSignature).form

/- Signatures of accounts. -/
def Signature.form : JsonForm Signature :=
  JsonForm.fixedBytesOrText 64

------------------------------------------------------------
-- Names
------------------------------------------------------------

/- Networks, by name. -/
def Network.form : JsonForm Network :=
  .named Network.name Network.ofName?

/- Kinds of transactions, by name. -/
def TransactionKind.form : JsonForm TransactionKind :=
  .named TransactionKind.name TransactionKind.ofName?

end DriveMarket
