import DriveMarket.Transaction.Settings
import DriveMarket.Transaction.Signing

/-
  Making transactions under validated settings.

  Key definitions include:
    * `Factory`
    * `Factory.ofSettings`
    * `Factory.header`
    * `Factory.transaction`
    * `Factory.embedded`
    * `Factory.sign`
-/

namespace DriveMarket

/- Settings that passed validation. -/
structure Factory where
  settings : Settings
  valid : settings.validate = .ok ()

namespace Factory

/- A factory for settings, if they are valid. -/
def ofSettings
    (settings : Settings) : Except TransactionError Factory :=
  match h : settings.validate with
  | .ok () => .ok ⟨settings, h⟩
  | .error cause => .error cause

/-
  An unsigned header whose deadline lies the settings' window
  after the given moment, in Unix milliseconds.
-/
def header
    (factory : Factory)
    (now : UInt64) : Header :=
  .unsigned factory.settings.network factory.settings.maxFee
    (.after now factory.settings.window)

/- An unsigned transaction. -/
def transaction
    (factory : Factory)
    (now : UInt64)
    (body : Body) : Transaction :=
  { header := factory.header now
    body := body }

/- An unsigned transaction of one operation. -/
def operation
    (factory : Factory)
    (now : UInt64)
    (content : Operation) : Transaction :=
  factory.transaction now (.operation content)

/- An unsigned aggregate without cosignatures. -/
def aggregate
    (factory : Factory)
    (now : UInt64)
    (form : AggregateForm)
    (transactions : List Embedded) : Transaction :=
  factory.transaction now
    (.aggregate form {
      transactions := transactions
      cosignatures := [] })

/-
  An unsigned transaction that ends a verification round,
  whose opinions must line up with its provers.
-/
def endDriveVerification
    (factory : Factory)
    (now : UInt64)
    (drive : PublicKey)
    (trigger : Digest)
    (provers : List PublicKey)
    (opinions : List Opinion) :
    Except TransactionError Transaction := do
  let round ←
    (VerificationRound.make drive trigger provers
      opinions).mapError .model
  return factory.operation now (.endDriveVerification round)

/- A transaction for an aggregate, on the settings' network. -/
def embedded
    (factory : Factory)
    (signer : PublicKey)
    (body : Body) : Embedded :=
  { signer := signer
    network := factory.settings.network
    body := body }

/- Sign a transaction for the settings' network. -/
def sign
    (factory : Factory)
    (scheme : SignatureScheme)
    (seed : Seed)
    (tx : Transaction) :
    Except TransactionError SignedTransaction :=
  tx.sign scheme seed factory.settings.generationHash

end Factory

end DriveMarket
