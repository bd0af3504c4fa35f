import DriveMarket.Bytes.Endian
import DriveMarket.Bytes.Hex
import DriveMarket.Crypto.Bls12381.Curve

/-
  Compressed points of BLS12-381.

  A point is written as its first coordinate in big-endian,
  with three marks in the top bits of the first byte: that the
  form is compressed, that the point is at infinity, and that
  the second coordinate is the larger of the two possible.
  Reading accepts only the form that writing produces, but
  does not ask for the subgroup.

  Key definitions include:
    * `BlsPublicKey`
    * `BlsSignature`
    * `Bls12381.encodeG1`
    * `Bls12381.decodeG1?`
    * `Bls12381.encodeG2`
    * `Bls12381.decodeG2?`
-/

namespace DriveMarket

------------------------------------------------------------
-- Byte Forms
------------------------------------------------------------

/- A compressed point of the first group. -/
abbrev BlsPublicKey :=
  FixedBytes 48

/- A compressed point of the second group. -/
abbrev BlsSignature :=
  FixedBytes 96

/- How a public key is shown in diagnostics. -/
def BlsPublicKey.describe
    (key : BlsPublicKey) : String :=
  s!"BlsPublicKey({key.hex})"

/- How a signature is shown: by its first eight bytes. -/
def BlsSignature.describe
    (signature : BlsSignature) : String :=
  s!"BlsSignature({Hex.upper (signature.toList.take 8)}..)"

namespace Bls12381

------------------------------------------------------------
-- Marks
------------------------------------------------------------

/- The marks of a written point, above its first coordinate. -/
def marks
    (infinite large : Bool) : Nat :=
  4 + (if infinite then 2 else 0) + (if large then 1 else 0)

/- A number in the bits of a width under three marks. -/
def encodeMarked
    (width : Nat)
    (infinite large : Bool)
    (n : Nat) : FixedBytes width :=
  ⟨BigEndian.encode width
      (n + marks infinite large * (byteSpan width / 8)),
    BigEndian.length_encode _ _⟩

/-
  What a compressed form says: the point at infinity, or a
  first coordinate and a choice of the second.
-/
inductive Marked where
  | infinity
  | finite (large : Bool) (n : Nat)

/- Read the marks; infinity allows nothing else to be set. -/
def decodeMarked?
    {width : Nat}
    (bytes : FixedBytes width) : Option Marked :=
  let n := BigEndian.decode bytes.toList
  let unit := byteSpan width / 8
  let mark := n / unit
  let rest := n % unit
  if mark = 6 ∧ rest = 0 then
    some .infinity
  else if mark = 4 ∨ mark = 5 then
    some (.finite (mark = 5) rest)
  else
    none

------------------------------------------------------------
-- First Group
------------------------------------------------------------

/- The compressed form of a point. -/
def encodeG1
    (p : G1) : BlsPublicKey :=
  match p.affine? with
  | none => encodeMarked 48 true false 0
  | some (x, y) => encodeMarked 48 false y.isLarge x.val

/-
  The point of a compressed form.  Points with a zero first
  coordinate lie outside the subgroup and are refused at once.
-/
def decodeG1?
    (bytes : BlsPublicKey) : Option G1 := do
  match ← decodeMarked? bytes with
  | .infinity => return CurvePoint.infinity
  | .finite large n =>
      if n = 0 ∨ modulus ≤ n then
        none
      else
        let x := Fp.ofNat n
        let root ← (CurvePoint.cubic x).root?
        let y := if root.isLarge = large then root else -root
        return CurvePoint.ofAffine x y

------------------------------------------------------------
-- Second Group
------------------------------------------------------------

/- The compressed form of a point; the part at `u` comes first. -/
def encodeG2
    (p : G2) : BlsSignature :=
  match p.affine? with
  | none => encodeMarked 96 true false 0
  | some (x, y) =>
      encodeMarked 96 false y.isLarge
        (x.im.val * byteSpan 48 + x.re.val)

/- The point of a compressed form. -/
def decodeG2?
    (bytes : BlsSignature) : Option G2 := do
  match ← decodeMarked? bytes with
  | .infinity => return CurvePoint.infinity
  | .finite large n =>
      let im := n / byteSpan 48
      let re := n % byteSpan 48
      if modulus ≤ im ∨ modulus ≤ re then
        none
      else
        let x := Fp2.ofNats re im
        let root ← (CurvePoint.cubic x).root?
        let y := if root.isLarge = large then root else -root
        return CurvePoint.ofAffine x y

end Bls12381

end DriveMarket
