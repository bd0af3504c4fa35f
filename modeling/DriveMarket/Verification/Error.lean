import DriveMarket.ModelError

/-
  Why opinions are not accepted, verified or packaged.

  Key definitions include:
    * `VerificationError`
    * `VerificationError.message`
-/

namespace DriveMarket

/- The causes. -/
inductive VerificationError where
  | model (cause : ModelError)
  | verifierOutOfRange (verifier : UInt16) (provers : Nat)
  | resultOutOfOrder
      (verifier : UInt16) (index : Nat) (prover : UInt16)
  | conflictingOpinion (verifier : UInt16)
  | keyCountMismatch (expected actual : Nat)
  | invalidSignature (verifier : UInt16)
  | invalidAggregate (signers : Nat)
deriving DecidableEq

namespace VerificationError

/- The wording of each cause. -/
def message : VerificationError → String
  | .model cause => "Model error: " ++ cause.message
  | .verifierOutOfRange verifier provers =>
      s!"Verifier out of range: {verifier} " ++
        s!"(provers: {provers})"
  | .resultOutOfOrder verifier index prover =>
      s!"Result out of order: verifier {verifier}, " ++
        s!"index {index} names prover {prover}"
  | .conflictingOpinion verifier =>
      s!"Conflicting opinion from verifier {verifier}"
  | .keyCountMismatch expected actual =>
      s!"BLS key count mismatch: expected {expected}, " ++
        s!"got {actual}"
  | .invalidSignature verifier =>
      s!"Invalid opinion signature from verifier {verifier}"
  | .invalidAggregate signers =>
      s!"Aggregate opinion signature invalid " ++
        s!"({signers} signers)"

/- The code of each cause. -/
def code : VerificationError → String
  | .model cause => "Model." ++ cause.code
  | .verifierOutOfRange .. => "VerifierOutOfRange"
  | .resultOutOfOrder .. => "ResultOutOfOrder"
  | .conflictingOpinion _ => "ConflictingOpinion"
  | .keyCountMismatch .. => "KeyCountMismatch"
  | .invalidSignature _ => "InvalidOpinionSignature"
  | .invalidAggregate _ => "AggregateSignatureInvalid"

instance : Refusal VerificationError :=
  ⟨code, message⟩

end VerificationError

end DriveMarket
