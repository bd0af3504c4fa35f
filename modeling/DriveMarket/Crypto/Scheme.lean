import DriveMarket.Bytes.Basic
import DriveMarket.Refusal

/-
  Signature schemes of accounts.

  Everything that signs or verifies takes the scheme as a
  parameter, so that what holds of it holds for every scheme
  whose verification accepts what its signing produces.

  Key definitions include:
    * `CryptoError`
    * `Seed`
    * `SignatureScheme`
    * `SignatureScheme.AcceptsOwn`
-/

namespace DriveMarket

------------------------------------------------------------
-- Refusals
------------------------------------------------------------

/- Why a key, a signature or an aggregation is refused. -/
inductive CryptoError where
  | verificationFailed
  | invalidPublicKey
  | invalidPrivateKey
  | invalidSignature
  | aggregationFailed
  | emptyAggregation
deriving DecidableEq

namespace CryptoError

/- The wording of a refusal. -/
def message : CryptoError → String
  | .verificationFailed => "Signature verification failed"
  | .invalidPublicKey => "Invalid public key"
  | .invalidPrivateKey => "Invalid private key"
  | .invalidSignature => "Invalid signature"
  | .aggregationFailed => "BLS aggregation failed"
  | .emptyAggregation => "Empty aggregation"

/- The code of each refusal. -/
def code : CryptoError → String
  | .verificationFailed => "SignatureVerificationFailed"
  | .invalidPublicKey => "InvalidPublicKey"
  | .invalidPrivateKey => "InvalidPrivateKey"
  | .invalidSignature => "InvalidSignature"
  | .aggregationFailed => "AggregationFailed"
  | .emptyAggregation => "EmptyAggregation"

instance : Refusal CryptoError :=
  ⟨code, message⟩

end CryptoError

------------------------------------------------------------
-- Schemes
------------------------------------------------------------

/- The secret that an account's key pair is made from. -/
abbrev Seed :=
  FixedBytes 32

/- How accounts sign. -/
structure SignatureScheme where
  publicKey : Seed → PublicKey
  sign : Seed → Bytes → Signature
  verify :
    PublicKey → Bytes → Signature →
      Except CryptoError Unit

namespace SignatureScheme

/- Verification accepts every signature that signing produces. -/
def AcceptsOwn
    (scheme : SignatureScheme) : Prop :=
  ∀ seed message,
    scheme.verify (scheme.publicKey seed) message
      (scheme.sign seed message) = .ok ()

end SignatureScheme

end DriveMarket
