/-
  An operation applied many times to one value, by the binary
  method: powers in a field, multiples on a curve.

  Key definitions include:
    * `repeated`
-/

namespace DriveMarket

variable {α : Type}

/-
  Fold the binary digits of `n`, lowest first, into `result`;
  `x` doubles with each digit.
-/
@[specialize]
def repeatedDigits
    (op : α → α → α) :
    (digits : Nat) →
    (result x : α) →
    (n : Nat) →
    α
  | 0, result, _, _ => result
  | digits + 1, result, x, n =>
      repeatedDigits op digits
        (if n % 2 = 1 then op result x else result)
        (op x x)
        (n / 2)

/-
  The combination of `n` copies of `x`, where `unit` is the
  combination of none.
-/
@[specialize]
def repeated
    (op : α → α → α)
    (unit x : α)
    (n : Nat) : α :=
  repeatedDigits op (Nat.log2 n + 1) unit x n

end DriveMarket
