import DriveMarket.Bytes.Endian
import DriveMarket.Crypto.Repeated
import DriveMarket.Crypto.Scheme
import DriveMarket.Crypto.Sha512

/-
  Ed25519 signatures.

  Points of the twisted Edwards curve are kept in extended
  coordinates, where one addition formula serves all pairs of
  points.  Verification recomputes the commitment and compares
  its encoding with the bytes of the signature, without
  clearing the cofactor: keys of small order, and keys whose
  coordinate is not reduced, are accepted as keys.

  Key definitions include:
    * `Ed25519.Point`
    * `Ed25519.Point.add`
    * `Ed25519.Point.encode`
    * `Ed25519.Point.decode?`
    * `Ed25519.sign`
    * `Ed25519.verify`
    * `Ed25519.scheme`
-/

namespace DriveMarket

namespace Ed25519

------------------------------------------------------------
-- Coordinates
------------------------------------------------------------

/- The prime of the coordinates. -/
def modulus : Nat :=
  (1 <<< 255) - 19

/- The prime order of the base point. -/
def order : Nat :=
  (1 <<< 252) + 27742317777372353535851937790883648493

instance : @NeZero Nat Zero.ofOfNat0 modulus :=
  ⟨Nat.ne_of_gt (by decide)⟩

/- A coordinate. -/
abbrev Coordinate :=
  Fin modulus

namespace Coordinate

/- A power of a coordinate. -/
def power
    (x : Coordinate)
    (n : Nat) : Coordinate :=
  repeated (· * ·) (Fin.ofNat modulus 1) x n

/- The inverse of a coordinate, zero for zero. -/
def inverse
    (x : Coordinate) : Coordinate :=
  power x (modulus - 2)

end Coordinate

/- The coefficient of the curve `y² - x² = 1 + d x² y²`. -/
def curveD : Coordinate :=
  -(Fin.ofNat modulus 121665 *
    Coordinate.inverse (Fin.ofNat modulus 121666))

/- A square root of minus one. -/
def rootOfMinusOne : Coordinate :=
  Coordinate.power (Fin.ofNat modulus 2) ((modulus - 1) / 4)

/-
  A square root of the quotient `u / v`, if it has one: one
  power gives a root of either the quotient or its negative.
-/
def quotientRoot?
    (u v : Coordinate) : Option Coordinate :=
  let v₃ := v * v * v
  let x :=
    u * v₃ *
      Coordinate.power (u * v₃ * v₃ * v) ((modulus - 5) / 8)
  if v * (x * x) = u then
    some x
  else if v * (x * x) = -u then
    some (x * rootOfMinusOne)
  else
    none

------------------------------------------------------------
-- Points
------------------------------------------------------------

/- A point `(x / z, y / z)` with `t / z` the product of both. -/
structure Point where
  x : Coordinate
  y : Coordinate
  z : Coordinate
  t : Coordinate

namespace Point

/- The neutral point. -/
def zero : Point :=
  { x := Fin.ofNat modulus 0
    y := Fin.ofNat modulus 1
    z := Fin.ofNat modulus 1
    t := Fin.ofNat modulus 0 }

/- The sum of two points. -/
def add
    (p q : Point) : Point :=
  let a := (p.y - p.x) * (q.y - q.x)
  let b := (p.y + p.x) * (q.y + q.x)
  let c := (curveD + curveD) * p.t * q.t
  let d := (p.z + p.z) * q.z
  let e := b - a
  let f := d - c
  let g := d + c
  let h := b + a
  { x := e * f
    y := g * h
    z := f * g
    t := e * h }

/- The negative of a point. -/
def neg
    (p : Point) : Point :=
  { p with
    x := -p.x
    t := -p.t }

/- The sum of `n` copies of a point. -/
def multiple
    (p : Point)
    (n : Nat) : Point :=
  repeated add zero p n

/- The base point. -/
def base : Point :=
  let x := Fin.ofNat modulus
    15112221349535400772501151409588531511454012693041857206046113283949847762202
  let y := Fin.ofNat modulus
    46316835694926478169428394003475163141307993866256225615783033603165251855960
  { x := x
    y := y
    z := Fin.ofNat modulus 1
    t := x * y }

/-
  The second coordinate, with the parity of the first one in
  the highest bit.
-/
def encode
    (p : Point) : FixedBytes 32 :=
  let w := Coordinate.inverse p.z
  let x := p.x * w
  let y := p.y * w
  ⟨LittleEndian.encode 32
      (y.val + (1 <<< 255) * (x.val % 2)),
    LittleEndian.length_encode _ _⟩

/-
  The point of an encoding.  The second coordinate is taken
  modulo the prime, and a zero first coordinate is taken with
  either parity bit.
-/
def decode?
    (bytes : FixedBytes 32) : Option Point := do
  let n := LittleEndian.decode bytes.toList
  let parity := n / (1 <<< 255)
  let y := Fin.ofNat modulus (n % (1 <<< 255))
  let one := Fin.ofNat modulus 1
  let root ←
    quotientRoot? (y * y - one) (curveD * (y * y) + one)
  let x := if root.val % 2 = parity then root else -root
  return {
    x := x
    y := y
    z := one
    t := x * y }

end Point

------------------------------------------------------------
-- Signatures
------------------------------------------------------------

/- A SHA-512 digest as a number modulo the order. -/
def scalarOf
    (parts : List Bytes) : Nat :=
  LittleEndian.decode (Sha512.hash parts.flatten).toList %
    order

/-
  The secret scalar of a seed: the first half of its digest
  with the three lowest bits and the highest bit cleared and
  the second highest bit set.
-/
def secretScalar
    (seed : Seed) : Nat :=
  let digest := (Sha512.hash seed.toList).toList
  let n := LittleEndian.decode (digest.take 32)
  (1 <<< 254) + n % (1 <<< 254) / 8 * 8

/- The public key of a seed. -/
def publicKey
    (seed : Seed) : PublicKey :=
  (Point.base.multiple (secretScalar seed)).encode

/-
  The signature of a message.  The commitment comes from the
  second half of the seed's digest and the message, so signing
  needs no randomness.
-/
def sign
    (seed : Seed)
    (message : Bytes) : Signature :=
  let secret := secretScalar seed
  let salt := (Sha512.hash seed.toList).toList.drop 32
  let key := (Point.base.multiple secret).encode
  let nonce := scalarOf [salt, message]
  let commitment := (Point.base.multiple nonce).encode
  let challenge :=
    scalarOf [commitment.toList, key.toList, message]
  let response := (nonce + challenge * secret) % order
  ⟨commitment.toList ++ LittleEndian.encode 32 response,
    by simp [commitment.length_toList]⟩

/-
  Whether a signature of a message belongs to a key.  The
  response must be reduced, and the recomputed commitment must
  have the very bytes that the signature starts with.
-/
def verify
    (key : PublicKey)
    (message : Bytes)
    (signature : Signature) :
    Except CryptoError Unit :=
  match Point.decode? key with
  | none => .error .invalidPublicKey
  | some point =>
      let commitment := signature.toList.take 32
      let response :=
        LittleEndian.decode (signature.toList.drop 32)
      let challenge :=
        scalarOf [commitment, key.toList, message]
      let expected :=
        (Point.base.multiple response).add
          (point.neg.multiple challenge)
      if response < order ∧
          expected.encode.toList = commitment then
        .ok ()
      else
        .error .verificationFailed

/- The scheme that accounts use. -/
def scheme : SignatureScheme :=
  { publicKey := publicKey
    sign := sign
    verify := verify }

end Ed25519

end DriveMarket
