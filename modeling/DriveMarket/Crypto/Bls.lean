import DriveMarket.Crypto.Bls12381.Encoding
import DriveMarket.Crypto.Bls12381.HashToCurve
import DriveMarket.Crypto.Bls12381.Pairing
import DriveMarket.Crypto.Scheme

/-
  BLS signatures, with public keys in the first of two paired
  groups and signatures in the second.

  The signature operations are written over any pair of
  groups: a signature is right when the pairing of the key
  with the hashed message equals the pairing of the generator
  with the signature, and aggregation is addition of points.
  BLS12-381 is the pair of groups in use.

  Key definitions include:
    * `PairingGroups`
    * `PairingGroups.verify`
    * `PairingGroups.verifyAggregate`
    * `PairingGroups.aggregateSignatures`
    * `PairingGroups.aggregateKeys`
    * `Bls12381.groups`
    * `BlsSecret`
-/

namespace DriveMarket

------------------------------------------------------------
-- Paired Groups
------------------------------------------------------------

/-
  Two groups with a pairing, the byte forms of their points,
  and a hash to the second group.  `agree key q s` says that
  the pairing of `key` with `q` is the pairing of the
  generator with `s`.
-/
structure PairingGroups where
  KeyPoint : Type
  SignaturePoint : Type
  decodeKey : BlsPublicKey → Option KeyPoint
  encodeKey : KeyPoint → BlsPublicKey
  decodeSignature : BlsSignature → Option SignaturePoint
  encodeSignature : SignaturePoint → BlsSignature
  keyIsZero : KeyPoint → Bool
  keyInSubgroup : KeyPoint → Bool
  signatureInSubgroup : SignaturePoint → Bool
  zeroKey : KeyPoint
  addKeys : KeyPoint → KeyPoint → KeyPoint
  zeroSignature : SignaturePoint
  addSignatures :
    SignaturePoint → SignaturePoint → SignaturePoint
  keyOfSecret : Nat → KeyPoint
  multiple : SignaturePoint → Nat → SignaturePoint
  hash : Bytes → SignaturePoint
  agree :
    KeyPoint → SignaturePoint → SignaturePoint → Bool

namespace PairingGroups

variable (groups : PairingGroups)

/- The point of a usable key: in the subgroup and not zero. -/
def validKey
    (point : groups.KeyPoint) : Bool :=
  !groups.keyIsZero point && groups.keyInSubgroup point

------------------------------------------------------------
-- Signing
------------------------------------------------------------

/- The public key of a secret number. -/
def publicKey
    (secret : Nat) : BlsPublicKey :=
  groups.encodeKey (groups.keyOfSecret secret)

/- The signature of a message under a secret number. -/
def sign
    (secret : Nat)
    (message : Bytes) : BlsSignature :=
  groups.encodeSignature
    (groups.multiple (groups.hash message) secret)

------------------------------------------------------------
-- Verification
------------------------------------------------------------

/-
  Whether a signature of a message belongs to a key.  Bytes
  that are no points, and points outside the subgroups, make
  it fail like a wrong signature.
-/
def verify
    (message : Bytes)
    (signature : BlsSignature)
    (key : BlsPublicKey) : Bool :=
  match groups.decodeSignature signature,
      groups.decodeKey key with
  | some s, some k =>
      groups.signatureInSubgroup s && groups.validKey k &&
        groups.agree k (groups.hash message) s
  | _, _ => false

/-
  Whether an aggregate of signatures of one message belongs
  to the given keys.  No keys, and keys whose sum is zero,
  have no signature.
-/
def verifyAggregate
    (message : Bytes)
    (signature : BlsSignature)
    (keys : List BlsPublicKey) : Bool :=
  match groups.decodeSignature signature,
      keys.mapM groups.decodeKey with
  | some s, some points =>
      let sum := points.foldl groups.addKeys groups.zeroKey
      !points.isEmpty &&
        points.all groups.validKey &&
        groups.signatureInSubgroup s &&
        !groups.keyIsZero sum &&
        groups.agree sum (groups.hash message) s
  | _, _ => false

------------------------------------------------------------
-- Aggregation
------------------------------------------------------------

/-
  The sum of signatures.  The signature at infinity is a
  signature like any other.
-/
def aggregateSignatures
    (signatures : List BlsSignature) :
    Except CryptoError BlsSignature :=
  if signatures.isEmpty then
    .error .emptyAggregation
  else
    match signatures.mapM groups.decodeSignature with
    | none => .error .invalidSignature
    | some points =>
        if points.all groups.signatureInSubgroup then
          .ok (groups.encodeSignature
            (points.foldl groups.addSignatures
              groups.zeroSignature))
        else
          .error .aggregationFailed

/- The sum of public keys, each of which must be usable. -/
def aggregateKeys
    (keys : List BlsPublicKey) :
    Except CryptoError BlsPublicKey :=
  if keys.isEmpty then
    .error .emptyAggregation
  else
    match keys.mapM groups.decodeKey with
    | none => .error .invalidPublicKey
    | some points =>
        if points.all groups.validKey then
          .ok (groups.encodeKey
            (points.foldl groups.addKeys groups.zeroKey))
        else
          .error .aggregationFailed

end PairingGroups

------------------------------------------------------------
-- BLS12-381
------------------------------------------------------------

/- The groups in use. -/
def Bls12381.groups : PairingGroups :=
  { KeyPoint := G1
    SignaturePoint := G2
    decodeKey := decodeG1?
    encodeKey := encodeG1
    decodeSignature := decodeG2?
    encodeSignature := encodeG2
    keyIsZero := CurvePoint.isInfinity
    keyInSubgroup := CurvePoint.inSubgroup
    signatureInSubgroup := CurvePoint.inSubgroup
    zeroKey := CurvePoint.infinity
    addKeys := CurvePoint.add
    zeroSignature := CurvePoint.infinity
    addSignatures := CurvePoint.add
    keyOfSecret := CurvePoint.multiple generator
    multiple := CurvePoint.multiple
    hash := hashToG2
    agree := pairingsAgree }

------------------------------------------------------------
-- Secret Keys
------------------------------------------------------------

/- A secret number of BLS12-381: positive and below the order. -/
structure BlsSecret where
  value : Nat
  pos : 0 < value
  lt_order : value < Bls12381.order

namespace BlsSecret

/- The secret of a number in range. -/
def ofNat?
    (n : Nat) : Option BlsSecret :=
  if h : 0 < n ∧ n < Bls12381.order then
    some ⟨n, h.1, h.2⟩
  else
    none

/- The secret that 32 bytes spell in big-endian. -/
def ofBytes
    (bytes : FixedBytes 32) : Except CryptoError BlsSecret :=
  match ofNat? (BigEndian.decode bytes.toList) with
  | some secret => .ok secret
  | none => .error .invalidPrivateKey

/- The 32 bytes that spell a secret. -/
def toBytes
    (secret : BlsSecret) : FixedBytes 32 :=
  ⟨BigEndian.encode 32 secret.value,
    BigEndian.length_encode _ _⟩

/-
  The keyed hash of a message under SHA-256, for keys of at
  most one block.
-/
def keyedHash
    (key message : Bytes) : Bytes :=
  let key := key ++ List.replicate (64 - key.length) 0
  let pad (byte : UInt8) := key.map (· ^^^ byte)
  (Sha256.hash
    (pad 0x5c ++
      (Sha256.hash (pad 0x36 ++ message)).toList)).toList

/- The number that one salt draws from key material. -/
def derive
    (material salt : Bytes) : Nat :=
  let key := keyedHash salt (material ++ [0])
  let info := BigEndian.encode 2 48
  let first := keyedHash key (info ++ [1])
  let second := keyedHash key (first ++ info ++ [2])
  BigEndian.decode (first ++ second.take 16) %
    Bls12381.order

/-
  Try one salt after another, each the hash of the one before,
  until the drawn number is not zero.
-/
def search
    (material : Bytes) :
    (attempts : Nat) →
    (salt : Bytes) →
    Option BlsSecret
  | 0, _ => none
  | attempts + 1, salt =>
      match ofNat? (derive material salt) with
      | some secret => some secret
      | none =>
          search material attempts (Sha256.hash salt).toList

/-
  The secret of key material of at least 32 bytes.  A second
  salt is needed once in some 2²⁵⁵ draws, so the number of
  attempts is no restriction.
-/
def ofMaterial
    (material : Bytes) : Except CryptoError BlsSecret :=
  let salt :=
    (Sha256.hash (Text.encode "BLS-SIG-KEYGEN-SALT-")).toList
  if material.length < 32 then
    .error .invalidPrivateKey
  else
    match search material 256 salt with
    | some secret => .ok secret
    | none => .error .invalidPrivateKey

end BlsSecret

end DriveMarket
