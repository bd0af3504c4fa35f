import DriveMarket.Crypto.Bls12381.Field

/-
  The curve `y² = x³ + b` over a field, for both groups that
  BLS12-381 pairs.

  Points are kept in projective coordinates.  One addition
  formula is right for all pairs of points, because neither
  curve has a point of order two.

  Key definitions include:
    * `Bls12381.CurveField`
    * `Bls12381.CurvePoint`
    * `Bls12381.CurvePoint.add`
    * `Bls12381.CurvePoint.multiple`
    * `Bls12381.CurvePoint.affine?`
    * `Bls12381.CurvePoint.inSubgroup`
    * `Bls12381.G1`
    * `Bls12381.G2`
-/

namespace DriveMarket

namespace Bls12381

------------------------------------------------------------
-- Coordinates
------------------------------------------------------------

/- What a curve needs of the field of its coordinates. -/
class CurveField (F : Type) where
  zero : F
  one : F
  add : F → F → F
  sub : F → F → F
  neg : F → F
  mul : F → F → F
  inverse : F → F
  constant : F
  isZero : F → Bool

instance : CurveField Fp where
  zero := Fp.ofNat 0
  one := Fp.ofNat 1
  add := fun x y => x + y
  sub := fun x y => x - y
  neg := fun x => -x
  mul := fun x y => x * y
  inverse := Fp.inverse
  constant := Fp.ofNat 4
  isZero := fun x => x.val == 0

instance : CurveField Fp2 where
  zero := 0
  one := 1
  add := fun x y => x + y
  sub := fun x y => x - y
  neg := fun x => -x
  mul := Fp2.mul
  inverse := Fp2.inverse
  constant := Fp2.ofNats 4 4
  isZero := fun x => x.re.val == 0 && x.im.val == 0

------------------------------------------------------------
-- Points
------------------------------------------------------------

/- The point `(x / z, y / z)`, at infinity when `z` is zero. -/
structure CurvePoint (F : Type) where
  x : F
  y : F
  z : F

namespace CurvePoint

open CurveField

variable {F : Type}
variable [CurveField F]

/- The point at infinity. -/
def infinity : CurvePoint F :=
  { x := zero
    y := one
    z := zero }

/- The point of two coordinates. -/
def ofAffine
    (x y : F) : CurvePoint F :=
  { x := x
    y := y
    z := one }

/- Whether a point is at infinity. -/
def isInfinity
    (p : CurvePoint F) : Bool :=
  isZero p.z

/- The coordinates of a point that is not at infinity. -/
def affine?
    (p : CurvePoint F) : Option (F × F) :=
  if p.isInfinity then
    none
  else
    let w := inverse p.z
    some (mul p.x w, mul p.y w)

/- The right-hand side of the curve's equation. -/
def cubic
    (x : F) : F :=
  add (mul (mul x x) x) constant

/- Three times an element. -/
@[specialize]
def triple
    (x : F) : F :=
  add (add x x) x

/- The sum of two points. -/
@[specialize]
def add
    (p q : CurvePoint F) : CurvePoint F :=
  let b₃ := triple (constant : F)
  let xx := mul p.x q.x
  let yy := mul p.y q.y
  let zz := mul p.z q.z
  let xy :=
    sub (mul (CurveField.add p.x p.y)
      (CurveField.add q.x q.y)) (CurveField.add xx yy)
  let yz :=
    sub (mul (CurveField.add p.y p.z)
      (CurveField.add q.y q.z)) (CurveField.add yy zz)
  let xz :=
    sub (mul (CurveField.add p.x p.z)
      (CurveField.add q.x q.z)) (CurveField.add xx zz)
  let xx₃ := triple xx
  let bzz := mul b₃ zz
  let bxz := mul b₃ xz
  let plus := CurveField.add yy bzz
  let minus := sub yy bzz
  { x := sub (mul xy minus) (mul yz bxz)
    y := CurveField.add (mul minus plus) (mul bxz xx₃)
    z := CurveField.add (mul plus yz) (mul xx₃ xy) }

/- The negative of a point. -/
def neg
    (p : CurvePoint F) : CurvePoint F :=
  { p with y := CurveField.neg p.y }

/- The sum of `n` copies of a point. -/
@[specialize]
def multiple
    (p : CurvePoint F)
    (n : Nat) : CurvePoint F :=
  repeated add infinity p n

/- Whether a point lies in the subgroup of prime order. -/
def inSubgroup
    (p : CurvePoint F) : Bool :=
  (p.multiple order).isInfinity

end CurvePoint

------------------------------------------------------------
-- Groups
------------------------------------------------------------

/- Points over the base field: public keys. -/
abbrev G1 :=
  CurvePoint Fp

/- Points over the quadratic extension: signatures. -/
abbrev G2 :=
  CurvePoint Fp2

/- The generator of the public keys. -/
def generator : G1 :=
  CurvePoint.ofAffine
    (Fp.ofNat
      0x17f1d3a73197d7942695638c4fa9ac0fc3688c4f9774b905a14e3a3f171bac586c55e83ff97a1aeffb3af00adb22c6bb)
    (Fp.ofNat
      0x08b3f481e3aaa0f1a09e30ed741d8ae4fcf5e095d5d00af600db18cb2c04b3edd03cc744a2888ae40caa232946c5e7e1)

end Bls12381

end DriveMarket
