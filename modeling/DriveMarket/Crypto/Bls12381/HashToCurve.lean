import DriveMarket.Bytes.Endian
import DriveMarket.Bytes.Text
import DriveMarket.Crypto.Bls12381.Curve
import DriveMarket.Crypto.Sha256

/-
  Hashing messages to the second group of BLS12-381.

  A message is expanded to two field elements with SHA-256.
  Each goes to a point of a nearby curve with a nonzero linear
  coefficient, which an isogeny of degree three carries over.
  The sum of both points is multiplied into the subgroup.

  Key definitions include:
    * `Bls12381.expand`
    * `Bls12381.fieldElements`
    * `Bls12381.mapToNearbyCurve`
    * `Bls12381.isogeny`
    * `Bls12381.hashToG2`
-/

namespace DriveMarket

namespace Bls12381

------------------------------------------------------------
-- Field Elements of a Message
------------------------------------------------------------

/- The tag that keeps these hashes apart from all others. -/
def domainTag : Bytes :=
  Text.encode "BLS_SIG_BLS12381G2_XMD:SHA-256_SSWU_RO_POP_"

/- The blocks after the first, each mixing in the one before. -/
def expandBlocks
    (seed suffix : Bytes) :
    (count index : Nat) →
    (previous : Bytes) →
    List Bytes
  | 0, _, _ => []
  | count + 1, index, previous =>
      let block :=
        (Sha256.hash
          (Bytes.xor seed previous ++
            UInt8.ofNat index :: suffix)).toList
      block :: expandBlocks seed suffix count (index + 1) block

/- 256 bytes that depend on the whole message. -/
def expand
    (message : Bytes) : Bytes :=
  let suffix := domainTag ++ [UInt8.ofNat domainTag.length]
  let seed :=
    (Sha256.hash
      (List.replicate 64 0 ++ message ++
        BigEndian.encode 2 256 ++ 0 :: suffix)).toList
  (expandBlocks seed suffix 8 1
    (List.replicate 32 0)).flatten

/- The two field elements of a message. -/
def fieldElements
    (message : Bytes) : List Fp2 :=
  ((expand message).chunks 128 2).map fun piece =>
    Fp2.ofNats
      (BigEndian.decode (piece.take 64))
      (BigEndian.decode (piece.drop 64))

------------------------------------------------------------
-- The Nearby Curve
------------------------------------------------------------

/- The linear coefficient of the nearby curve. -/
def nearbyA : Fp2 :=
  Fp2.ofNats 0 240

/- The constant coefficient of the nearby curve. -/
def nearbyB : Fp2 :=
  Fp2.ofNats 1012 1012

/- A field element that is no square. -/
def nonSquare : Fp2 :=
  -Fp2.ofNats 2 1

/- The right-hand side of the nearby curve's equation. -/
def nearbyCubic
    (x : Fp2) : Fp2 :=
  (x * x + nearbyA) * x + nearbyB

/-
  A point of the nearby curve for each field element: of two
  candidate coordinates one always has a point, and the sign
  of the second coordinate follows the element.
-/
def mapToNearbyCurve
    (e : Fp2) : Fp2 × Fp2 :=
  let s := nonSquare * (e * e)
  let d := s * s + s
  let x₁ :=
    if d = 0 then
      nearbyB * (nonSquare * nearbyA).inverse
    else
      -(nearbyB * nearbyA.inverse) * (1 + d.inverse)
  let x₂ := s * x₁
  let (x, root) :=
    match (nearbyCubic x₁).root? with
    | some root => (x₁, root)
    | none => (x₂, ((nearbyCubic x₂).root?).getD 0)
  (x, if root.isOdd = e.isOdd then root else -root)

/-
  The isogeny from the nearby curve.  Its denominators are the
  square and the cube of the distance to the kernel.
-/
def isogeny
    (point : Fp2 × Fp2) : G2 :=
  let (x, y) := point
  let d := x + (Fp2.ofNats 6 0 - Fp2.ofNats 0 6)
  let xNum :=
    ((x + (Fp2.ofNats 12 0 - Fp2.ofNats 0 12)) * x -
      Fp2.ofNats 0 24) * x + Fp2.ofNats 304 304
  let yNum :=
    ((x + (Fp2.ofNats 18 0 - Fp2.ofNats 0 18)) * x -
      Fp2.ofNats 0 264) * x - Fp2.ofNats 752 752
  if d = 0 then
    CurvePoint.infinity
  else
    let w := (Fp2.ofNats 3 0 * d).inverse
    CurvePoint.ofAffine
      (xNum * (w * w))
      (-(y * yNum * (w * w * w)))

------------------------------------------------------------
-- The Group
------------------------------------------------------------

/- The number of points of the second curve over the order. -/
def cofactor : Nat :=
  let x := parameter
  ((((((((x + 4) * x + 5) * x * x - 4) * x - 6) * x - 4) * x +
    4) * x) + 13) / 9

/- The point of a message. -/
def hashToG2
    (message : Bytes) : G2 :=
  let points :=
    (fieldElements message).map fun e =>
      isogeny (mapToNearbyCurve e)
  let sum := points.foldl CurvePoint.add CurvePoint.infinity
  sum.multiple (cofactor * (3 * parameter * parameter - 3))

end Bls12381

end DriveMarket
