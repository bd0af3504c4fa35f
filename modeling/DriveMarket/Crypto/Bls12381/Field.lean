import DriveMarket.Crypto.Repeated

/-
  The fields of the pairing-friendly curve BLS12-381.

  Everything about the curve follows from one parameter.  The
  base field is extended in three steps: by a root `u` of
  minus one, by a cube root `v` of `1 + u`, and by a square
  root `w` of `v`.

  Key definitions include:
    * `Bls12381.modulus`
    * `Bls12381.order`
    * `Bls12381.Fp`
    * `Bls12381.Fp2`
    * `Bls12381.Fp6`
    * `Bls12381.Fp12`
-/

namespace DriveMarket

namespace Bls12381

------------------------------------------------------------
-- Parameters
------------------------------------------------------------

/- The absolute value of the curve's parameter, a negative one. -/
def parameter : Nat :=
  0xd201000000010000

/- The prime order of the groups that are paired. -/
def order : Nat :=
  let square := parameter * parameter
  square * square - square + 1

/- The prime of the base field. -/
def modulus : Nat :=
  (parameter + 1) * (parameter + 1) * order / 3 - parameter

instance : @NeZero Nat Zero.ofOfNat0 modulus :=
  ⟨Nat.ne_of_gt (by decide)⟩

------------------------------------------------------------
-- Base Field
------------------------------------------------------------

/- An element of the base field. -/
abbrev Fp :=
  Fin modulus

namespace Fp

/- The element of a natural number. -/
def ofNat
    (n : Nat) : Fp :=
  Fin.ofNat modulus n

/- A power of an element. -/
def power
    (x : Fp)
    (n : Nat) : Fp :=
  repeated (· * ·) (ofNat 1) x n

/- The inverse of an element, zero for zero. -/
def inverse
    (x : Fp) : Fp :=
  power x (modulus - 2)

/- A square root of an element, if it has one. -/
def root?
    (x : Fp) : Option Fp :=
  let root := power x ((modulus + 1) / 4)
  if root * root = x then some root else none

/- Whether an element is the larger of itself and its negative. -/
def isLarge
    (x : Fp) : Bool :=
  2 * x.val > modulus

end Fp

------------------------------------------------------------
-- Quadratic Extension
------------------------------------------------------------

/- An element `re + im * u`, where `u * u` is minus one. -/
structure Fp2 where
  re : Fp
  im : Fp
deriving DecidableEq

namespace Fp2

/- The element of two natural numbers. -/
def ofNats
    (re im : Nat) : Fp2 :=
  { re := Fp.ofNat re
    im := Fp.ofNat im }

instance : Zero Fp2 :=
  ⟨ofNats 0 0⟩

instance : One Fp2 :=
  ⟨ofNats 1 0⟩

instance : Add Fp2 :=
  ⟨fun x y => ⟨x.re + y.re, x.im + y.im⟩⟩

instance : Sub Fp2 :=
  ⟨fun x y => ⟨x.re - y.re, x.im - y.im⟩⟩

instance : Neg Fp2 :=
  ⟨fun x => ⟨-x.re, -x.im⟩⟩

/- The product, with three products of the base field. -/
def mul
    (x y : Fp2) : Fp2 :=
  let a := x.re * y.re
  let b := x.im * y.im
  { re := a - b
    im := (x.re + x.im) * (y.re + y.im) - a - b }

instance : Mul Fp2 :=
  ⟨mul⟩

/- A multiple by an element of the base field. -/
def scale
    (x : Fp2)
    (c : Fp) : Fp2 :=
  ⟨x.re * c, x.im * c⟩

/- The product with `1 + u`. -/
def twist
    (x : Fp2) : Fp2 :=
  ⟨x.re - x.im, x.re + x.im⟩

/- A power of an element. -/
def power
    (x : Fp2)
    (n : Nat) : Fp2 :=
  repeated mul 1 x n

/- The inverse of an element, zero for zero. -/
def inverse
    (x : Fp2) : Fp2 :=
  let norm := x.re * x.re + x.im * x.im
  (⟨x.re, -x.im⟩ : Fp2).scale norm.inverse

/-
  A square root of an element, if it has one.  A power of the
  element is a root of it up to a factor whose square is a
  norm-one element, and that factor has a root of its own.
-/
def root?
    (x : Fp2) : Option Fp2 :=
  let a := power x ((modulus - 3) / 4)
  let candidate := a * x
  let unit := a * candidate
  let root :=
    if unit = -1 then
      ofNats 0 1 * candidate
    else
      power (1 + unit) ((modulus - 1) / 2) * candidate
  if root * root = x then some root else none

/-
  Whether an element is the larger of itself and its negative;
  the part at `u` decides unless it is zero.
-/
def isLarge
    (x : Fp2) : Bool :=
  if x.im.val = 0 then x.re.isLarge else x.im.isLarge

/-
  The parity of an element; the first part decides unless it
  is zero.
-/
def isOdd
    (x : Fp2) : Bool :=
  if x.re.val = 0 then x.im.val % 2 == 1
  else x.re.val % 2 == 1

end Fp2

------------------------------------------------------------
-- Sextic Extension
------------------------------------------------------------

/- An element `a + b * v + c * v²`, where `v³` is `1 + u`. -/
structure Fp6 where
  a : Fp2
  b : Fp2
  c : Fp2
deriving DecidableEq

namespace Fp6

instance : Zero Fp6 :=
  ⟨⟨0, 0, 0⟩⟩

instance : One Fp6 :=
  ⟨⟨1, 0, 0⟩⟩

instance : Add Fp6 :=
  ⟨fun x y => ⟨x.a + y.a, x.b + y.b, x.c + y.c⟩⟩

instance : Sub Fp6 :=
  ⟨fun x y => ⟨x.a - y.a, x.b - y.b, x.c - y.c⟩⟩

instance : Neg Fp6 :=
  ⟨fun x => ⟨-x.a, -x.b, -x.c⟩⟩

/- The product, with six products of the quadratic field. -/
def mul
    (x y : Fp6) : Fp6 :=
  let aa := x.a * y.a
  let bb := x.b * y.b
  let cc := x.c * y.c
  { a :=
      aa + ((x.b + x.c) * (y.b + y.c) - bb - cc).twist
    b :=
      (x.a + x.b) * (y.a + y.b) - aa - bb + cc.twist
    c :=
      (x.a + x.c) * (y.a + y.c) - aa - cc + bb }

instance : Mul Fp6 :=
  ⟨mul⟩

/- The product with `v`. -/
def shift
    (x : Fp6) : Fp6 :=
  ⟨x.c.twist, x.a, x.b⟩

/- The inverse of an element, zero for zero. -/
def inverse
    (x : Fp6) : Fp6 :=
  let a := x.a * x.a - (x.b * x.c).twist
  let b := (x.c * x.c).twist - x.a * x.b
  let c := x.b * x.b - x.a * x.c
  let norm := x.a * a + (x.c * b + x.b * c).twist
  let w := norm.inverse
  ⟨a * w, b * w, c * w⟩

end Fp6

------------------------------------------------------------
-- Full Extension
------------------------------------------------------------

/- An element `a + b * w`, where `w * w` is `v`. -/
structure Fp12 where
  a : Fp6
  b : Fp6
deriving DecidableEq

namespace Fp12

instance : One Fp12 :=
  ⟨⟨1, 0⟩⟩

/- The product, with three products of the sextic field. -/
def mul
    (x y : Fp12) : Fp12 :=
  let aa := x.a * y.a
  let bb := x.b * y.b
  { a := aa + bb.shift
    b := (x.a + x.b) * (y.a + y.b) - aa - bb }

instance : Mul Fp12 :=
  ⟨mul⟩

/- The conjugate over the sextic field. -/
def conjugate
    (x : Fp12) : Fp12 :=
  ⟨x.a, -x.b⟩

/- The inverse of an element, zero for zero. -/
def inverse
    (x : Fp12) : Fp12 :=
  let norm := x.a * x.a - (x.b * x.b).shift
  let w := norm.inverse
  ⟨x.a * w, -(x.b * w)⟩

/- A power of an element. -/
def power
    (x : Fp12)
    (n : Nat) : Fp12 :=
  repeated mul 1 x n

end Fp12

end Bls12381

end DriveMarket
