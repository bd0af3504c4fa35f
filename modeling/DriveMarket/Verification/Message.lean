import DriveMarket.Bytes.Endian
import DriveMarket.Crypto.Bls
import DriveMarket.Verification.Opinion

/-
  What the verifiers of a round sign.

  A verifier signs its results and not its own index, so those
  who agree on every result sign the same message.

  Key definitions include:
    * `opinionMessage`
    * `signOpinion`
    * `verifyOpinion`
-/

namespace DriveMarket

/- The bytes of one result: the prover, then the verdict. -/
def VerificationResult.message
    (result : VerificationResult) : Bytes :=
  LittleEndian.encode 2 result.prover.toNat ++
    [if result.passed then 1 else 0]

/-
  The message of some results: how many there are, in two
  bytes, and then each of them.
-/
def opinionMessage
    (results : List VerificationResult) : Bytes :=
  LittleEndian.encode 2 results.length ++
    results.flatMap (·.message)

/- The opinion of a verifier, signed with its secret. -/
def signOpinion
    (groups : PairingGroups)
    (secret : Nat)
    (verifier : UInt16)
    (results : List VerificationResult) : Opinion :=
  { verifier := verifier
    signature := groups.sign secret (opinionMessage results)
    results := results }

/- Whether the signature of an opinion belongs to a key. -/
def verifyOpinion
    (groups : PairingGroups)
    (opinion : Opinion)
    (key : BlsPublicKey) : Bool :=
  groups.verify (opinionMessage opinion.results)
    opinion.signature key

end DriveMarket
