import DriveMarket.Ordered.Map
import DriveMarket.Transaction.Factory
import DriveMarket.Verification.Error
import DriveMarket.Verification.Message

/-
  Collecting the opinions of one verification round.

  Opinions may arrive in any order.  The first one of each
  verifier counts, and repeating it is harmless.

  Key definitions include:
    * `VerificationSession`
    * `VerificationSession.start`
    * `VerificationSession.check`
    * `VerificationSession.add`
    * `VerificationSession.addSigned`
    * `VerificationSession.verifySignatures`
    * `VerificationSession.toRound`
-/

namespace DriveMarket

/-
  The opinions accepted so far for one round on one drive,
  under the indices of their verifiers.
-/
structure VerificationSession where
  drive : PublicKey
  trigger : Digest
  provers : List PublicKey
  opinions : OrderedMap UInt16 Opinion
deriving DecidableEq

namespace VerificationSession

/- The largest number of provers that a round can have. -/
def maxProvers : Nat :=
  65535

/- A round without opinions. -/
def start
    (drive : PublicKey)
    (trigger : Digest)
    (provers : List PublicKey) :
    Except VerificationError VerificationSession :=
  if provers.isEmpty then
    .error (.model .emptyProverList)
  else if maxProvers < provers.length then
    .error
      (.model
        (.shapeMismatch .proverCount maxProvers
          provers.length))
  else
    .ok {
      drive := drive
      trigger := trigger
      provers := provers
      opinions := .empty }

------------------------------------------------------------
-- Progress
------------------------------------------------------------

/- Whether as many opinions as provers were accepted. -/
def isComplete
    (session : VerificationSession) : Bool :=
  session.opinions.size == session.provers.length

/-
  The verifiers without an opinion, in increasing order.  The
  number of provers is taken for one of 16 bits here.
-/
def missingVerifiers
    (session : VerificationSession) : List UInt16 :=
  let count := UInt16.ofNat session.provers.length
  ((List.range count.toNat).map UInt16.ofNat).filter
    (!session.opinions.contains ·)

------------------------------------------------------------
-- Accepting Opinions
------------------------------------------------------------

/- The first result that is not about the prover at its place. -/
def misplaced?
    (results : List VerificationResult) :
    Option (VerificationResult × Nat) :=
  results.zipIdx.find? fun entry =>
    entry.1.prover.toNat != entry.2

/-
  Whether an opinion fits the round: its verifier is one of
  the provers, and its results name every prover in order.
-/
def check
    (session : VerificationSession)
    (opinion : Opinion) : Except VerificationError Unit :=
  let provers := session.provers.length
  if provers ≤ opinion.verifier.toNat then
    .error (.verifierOutOfRange opinion.verifier provers)
  else if opinion.results.length ≠ provers then
    .error
      (.model
        (.shapeMismatch .resultsLength provers
          opinion.results.length))
  else
    match misplaced? opinion.results with
    | some (result, index) =>
        .error
          (.resultOutOfOrder opinion.verifier index
            result.prover)
    | none => .ok ()

/-
  Accept an opinion, and tell whether it is new.  A verifier
  cannot change its opinion.
-/
def add
    (opinion : Opinion)
    (session : VerificationSession) :
    Except VerificationError Bool × VerificationSession :=
  match session.check opinion with
  | .error cause => (.error cause, session)
  | .ok () =>
      match session.opinions.get? opinion.verifier with
      | some accepted =>
          if accepted = opinion then
            (.ok false, session)
          else
            (.error (.conflictingOpinion opinion.verifier),
              session)
      | none =>
          (.ok true,
            { session with
              opinions :=
                session.opinions.insert opinion.verifier
                  opinion })

/- Whether there is one BLS key for each prover. -/
def checkKeyCount
    (session : VerificationSession)
    (keys : List BlsPublicKey) :
    Except VerificationError Unit :=
  if keys.length = session.provers.length then
    .ok ()
  else
    .error
      (.keyCountMismatch session.provers.length keys.length)

/- Whether an opinion verifies under its verifier's key. -/
def verifies
    (groups : PairingGroups)
    (keys : List BlsPublicKey)
    (opinion : Opinion) : Bool :=
  match keys[opinion.verifier.toNat]? with
  | some key => verifyOpinion groups opinion key
  | none => false

/-
  Accept an opinion whose signature verifies, given the BLS
  keys of the provers in order.
-/
def addSigned
    (groups : PairingGroups)
    (keys : List BlsPublicKey)
    (opinion : Opinion)
    (session : VerificationSession) :
    Except VerificationError Bool × VerificationSession :=
  let checked := do
    session.check opinion
    session.checkKeyCount keys
  match checked with
  | .error cause => (.error cause, session)
  | .ok () =>
      if verifies groups keys opinion then
        session.add opinion
      else
        (.error (.invalidSignature opinion.verifier), session)

------------------------------------------------------------
-- Checking All Signatures
------------------------------------------------------------

/- The messages that were signed, each one once. -/
def messages
    (session : VerificationSession) : List Bytes :=
  (session.opinions.values.map fun opinion =>
    opinionMessage opinion.results).eraseDups

/- The opinions whose verifiers signed one message. -/
def signersOf
    (session : VerificationSession)
    (message : Bytes) : List Opinion :=
  session.opinions.values.filter fun opinion =>
    opinionMessage opinion.results == message

/- Whether the sum of signatures of one message verifies. -/
def aggregateVerifies
    (groups : PairingGroups)
    (keys : List BlsPublicKey)
    (message : Bytes)
    (signers : List Opinion) : Bool :=
  let signerKeys :=
    signers.filterMap fun opinion =>
      keys[opinion.verifier.toNat]?
  match groups.aggregateSignatures
      (signers.map (·.signature)) with
  | .ok aggregate =>
      groups.verifyAggregate message aggregate signerKeys
  | .error _ => false

/-
  Check every signature, given the BLS keys of the provers in
  order.  First the signatures of each message are checked as
  one; if that fails, the opinions are checked one by one to
  name the first verifier whose signature is wrong.
-/
def verifySignatures
    (groups : PairingGroups)
    (keys : List BlsPublicKey)
    (session : VerificationSession) :
    Except VerificationError Unit := do
  session.checkKeyCount keys
  let aggregatesVerify :=
    session.messages.all fun message =>
      aggregateVerifies groups keys message
        (session.signersOf message)
  if aggregatesVerify then
    .ok ()
  else
    match session.opinions.values.find?
        (!verifies groups keys ·) with
    | some opinion =>
        .error (.invalidSignature opinion.verifier)
    | none =>
        .error (.invalidAggregate session.opinions.size)

------------------------------------------------------------
-- Packaging
------------------------------------------------------------

/- The outcome of the round, which needs every opinion. -/
def toRound
    (session : VerificationSession) :
    Except VerificationError VerificationRound :=
  (VerificationRound.make session.drive session.trigger
    session.provers session.opinions.values).mapError .model

/- An unsigned transaction with the outcome of the round. -/
def toTransaction
    (session : VerificationSession)
    (factory : Factory)
    (now : UInt64) :
    Except VerificationError Transaction := do
  let round ← session.toRound
  return factory.operation now (.endDriveVerification round)

end VerificationSession

end DriveMarket
