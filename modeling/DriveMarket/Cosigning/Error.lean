import DriveMarket.Transaction.Error

/-
  Why an aggregate or a cosignature is refused.

  Key definitions include:
    * `CosigningError`
    * `CosigningError.message`
-/

namespace DriveMarket

/- The causes. -/
inductive CosigningError where
  | notAggregate (kind : TransactionKind)
  | emptyAggregate
  | unsigned
  | unexpectedSigner (signer : PublicKey)
  | invalidCosignature (signer : PublicKey)
  | hashMismatch (expected actual : Digest)
  | incomplete (missing : List PublicKey)
  | transaction (cause : TransactionError)
deriving DecidableEq

namespace CosigningError

/- The wording of each cause. -/
def message : CosigningError → String
  | .notAggregate kind =>
      s!"Not an aggregate transaction: {kind.name}"
  | .emptyAggregate =>
      "Empty aggregate: no inner transactions"
  | .unsigned =>
      "Aggregate is not signed by its initiator"
  | .unexpectedSigner signer =>
      s!"Unexpected cosigner: {signer.hex}"
  | .invalidCosignature signer =>
      s!"Invalid cosignature from {signer.hex}"
  | .hashMismatch expected actual =>
      s!"Aggregate hash mismatch: expected {expected.hex}, " ++
        s!"got {actual.hex}"
  | .incomplete missing =>
      s!"Incomplete cosignatures: " ++
        s!"{missing.length} signer(s) missing"
  | .transaction cause =>
      "Transaction error: " ++ cause.message

/- The code of each cause. -/
def code : CosigningError → String
  | .notAggregate _ => "NotAggregate"
  | .emptyAggregate => "EmptyAggregate"
  | .unsigned => "Unsigned"
  | .unexpectedSigner _ => "UnexpectedSigner"
  | .invalidCosignature _ => "InvalidCosignature"
  | .hashMismatch .. => "HashMismatch"
  | .incomplete _ => "IncompleteCosignatures"
  | .transaction cause => "Transaction." ++ cause.code

instance : Refusal CosigningError :=
  ⟨code, message⟩

end CosigningError

end DriveMarket
