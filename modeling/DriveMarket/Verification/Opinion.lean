import DriveMarket.Crypto.Bls12381.Encoding
import DriveMarket.ModelError

/-
  The opinions of a verification round.

  Every verifier attests to a result for every prover.  Entry
  `i` of an opinion is about prover `i`.

  Key definitions include:
    * `VerificationResult`
    * `Opinion`
    * `Opinion.failedProvers`
    * `checkShapes`
-/

namespace DriveMarket

/- The verdict on one prover, given by its index. -/
structure VerificationResult where
  prover : UInt16
  passed : Bool
deriving DecidableEq

/- One verifier's signed results. -/
structure Opinion where
  verifier : UInt16
  signature : BlsSignature
  results : List VerificationResult
deriving DecidableEq

namespace Opinion

/- The provers that an opinion marks as failed. -/
def failedProvers
    (opinion : Opinion) : List UInt16 :=
  (opinion.results.filter (!·.passed)).map (·.prover)

end Opinion

/-
  Whether opinions line up with the provers of a round: at
  least one prover, one opinion for each, and one result for
  each in every opinion.
-/
def checkShapes
    (provers : Nat)
    (opinions : List Opinion) : Except ModelError Unit :=
  if provers = 0 then
    .error .emptyProverList
  else if opinions.length ≠ provers then
    .error
      (.shapeMismatch .opinionCount provers opinions.length)
  else
    match opinions.find? (·.results.length != provers) with
    | some opinion =>
        .error
          (.shapeMismatch .resultsLength provers
            opinion.results.length)
    | none => .ok ()

end DriveMarket
