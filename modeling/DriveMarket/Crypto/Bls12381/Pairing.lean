import DriveMarket.Crypto.Bls12381.Curve

/-
  The pairing of the two groups of BLS12-381.

  A loop over the digits of the curve's parameter multiplies
  up the lines through multiples of the second point, taken at
  the first point.  Raising to the power that sends the full
  field to its elements of prime order makes the result
  bilinear.  A line is known up to factors that this power
  sends to one.

  Key definitions include:
    * `Bls12381.line`
    * `Bls12381.miller`
    * `Bls12381.finalPower`
    * `Bls12381.pairingsAgree`
-/

namespace DriveMarket

namespace Bls12381

------------------------------------------------------------
-- Lines
------------------------------------------------------------

/- A point of the second group that is not at infinity. -/
abbrev TwistPoint :=
  Fp2 × Fp2

/-
  The line of a slope through a point, taken at a point of
  the first group.
-/
def line
    (slope : Fp2)
    (t : TwistPoint)
    (p : Fp × Fp) : Fp12 :=
  { a :=
      { a := slope * t.1 - t.2
        b := -(slope.scale p.1)
        c := 0 }
    b :=
      { a := 0
        b := ⟨p.2, Fp.ofNat 0⟩
        c := 0 } }

/- The third point on a line, mirrored: the sum of two points. -/
def lineSum
    (slope : Fp2)
    (t q : TwistPoint) : TwistPoint :=
  let x := slope * slope - t.1 - q.1
  (x, slope * (t.1 - x) - t.2)

/- The slope of the tangent at a point. -/
def tangentSlope
    (t : TwistPoint) : Fp2 :=
  let xx := t.1 * t.1
  (xx + xx + xx) * (t.2 + t.2).inverse

/- The slope of the line through two points. -/
def chordSlope
    (t q : TwistPoint) : Fp2 :=
  (t.2 - q.2) * (t.1 - q.1).inverse

------------------------------------------------------------
-- Loop
------------------------------------------------------------

/-
  One digit of the loop: square and multiply by the tangent,
  and on a set digit also by the chord to the starting point.
-/
def millerStep
    (p : Fp × Fp)
    (q : TwistPoint)
    (current : Fp12 × TwistPoint)
    (digit : Bool) : Fp12 × TwistPoint :=
  let (f, t) := current
  let slope := tangentSlope t
  let f := f * f * line slope t p
  let t := lineSum slope t t
  if digit then
    let slope := chordSlope t q
    (f * line slope t p, lineSum slope t q)
  else
    (f, t)

/- The digits of the parameter below the highest, high to low. -/
def loopDigits : List Bool :=
  (List.range (Nat.log2 parameter)).reverse.map
    parameter.testBit

/-
  The product of lines for two points; one if either is at
  infinity.  The parameter is negative, which conjugates the
  product.
-/
def miller
    (p : G1)
    (q : G2) : Fp12 :=
  match p.affine?, q.affine? with
  | some p, some q =>
      (loopDigits.foldl (millerStep p q) (1, q)).1.conjugate
  | _, _ => 1

/-
  The power `(modulus ^ 12 - 1) / order`, whose first factor
  `modulus ^ 6 - 1` is a conjugation and a division.
-/
def finalPower
    (f : Fp12) : Fp12 :=
  let g := f.conjugate * f.inverse
  let square := modulus * modulus
  g.power
    ((square + 1) * ((square * square - square + 1) / order))

/-
  Whether the pairing of `p` with `q` equals the pairing of
  the generator with `s`.
-/
def pairingsAgree
    (p : G1)
    (q s : G2) : Bool :=
  finalPower (miller p q * miller generator.neg s) == 1

end Bls12381

end DriveMarket
