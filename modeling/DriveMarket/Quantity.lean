/-
  64-bit quantities: token amounts and storage sizes.

  Query payloads carry a quantity as two 32-bit words, low
  word first, which keeps the whole range where a number of a
  floating-point reader would not.

  Key definitions include:
    * `Words`
    * `Words.split`
    * `Words.join`
    * `Word64.wrap`
    * `Word64.clamp`
    * `Amount`
    * `StorageSize`

  Correctness is proven by:
    * `Words.join_split`
    * `Words.split_join`
-/

namespace DriveMarket

------------------------------------------------------------
-- Word Pairs
------------------------------------------------------------

/- A 64-bit number as two 32-bit words. -/
structure Words where
  low : UInt32
  high : UInt32
deriving DecidableEq

namespace Words

/- The two words of a number. -/
def split
    (n : UInt64) : Words :=
  { low := UInt32.ofNat (n.toNat % 0x100000000)
    high := UInt32.ofNat (n.toNat / 0x100000000) }

/- The number of two words. -/
def join
    (words : Words) : UInt64 :=
  UInt64.ofNat
    (words.low.toNat + 0x100000000 * words.high.toNat)

/- No number changes by going through its words. -/
theorem join_split
    (n : UInt64) :
    (split n).join = n := by
  have hBound := n.toNat_lt
  apply UInt64.toNat.inj
  simp only [split, join, UInt32.toNat_ofNat',
    UInt64.toNat_ofNat']
  omega

/- Every pair of words belongs to exactly one number. -/
theorem split_join
    (words : Words) :
    split words.join = words := by
  cases words with
  | mk low high =>
      have hLow := low.toNat_lt
      have hHigh := high.toNat_lt
      simp only [split, join, Words.mk.injEq]
      constructor
      · apply UInt32.toNat.inj
        simp only [UInt32.toNat_ofNat', UInt64.toNat_ofNat']
        omega
      · apply UInt32.toNat.inj
        simp only [UInt32.toNat_ofNat', UInt64.toNat_ofNat']
        omega

end Words

------------------------------------------------------------
-- Bounded Arithmetic
------------------------------------------------------------

namespace Word64

/- The largest 64-bit number. -/
def top : Nat :=
  0xffffffffffffffff

/- What is left of a natural number in 64 bits. -/
def wrap
    (n : Nat) : Nat :=
  n % 0x10000000000000000

/- The sum of two numbers, unless it overflows. -/
def checkedSum
    (a b : UInt64) : Option UInt64 :=
  if a.toNat + b.toNat ≤ top then
    some (a + b)
  else
    none

/- A natural number, or the largest 64-bit number below it. -/
def clamp
    (n : Nat) : UInt64 :=
  UInt64.ofNat (min n top)

/- The sum of two numbers, at most the largest one. -/
def saturatingSum
    (a b : UInt64) : UInt64 :=
  clamp (a.toNat + b.toNat)

/- The difference of two numbers, at least zero. -/
def saturatingDiff
    (a b : UInt64) : UInt64 :=
  clamp (a.toNat - b.toNat)

end Word64

------------------------------------------------------------
-- Quantities
------------------------------------------------------------

/- An amount of tokens: fees and pledged capacity. -/
structure Amount where
  value : UInt64
deriving DecidableEq, Inhabited

/- A size of stored data, in megabytes. -/
structure StorageSize where
  value : UInt64
deriving DecidableEq, Inhabited

namespace Amount

/- The amount that two words spell. -/
def ofWords
    (words : Words) : Amount :=
  ⟨words.join⟩

/- The words that spell an amount. -/
def words
    (amount : Amount) : Words :=
  Words.split amount.value

/- The sum of two amounts, unless it overflows. -/
def checkedAdd
    (a b : Amount) : Option Amount :=
  (Word64.checkedSum a.value b.value).map Amount.mk

end Amount

namespace StorageSize

/- The size that two words spell. -/
def ofWords
    (words : Words) : StorageSize :=
  ⟨words.join⟩

/- The words that spell a size. -/
def words
    (size : StorageSize) : Words :=
  Words.split size.value

/- The sum of two sizes, unless it overflows. -/
def checkedAdd
    (a b : StorageSize) : Option StorageSize :=
  (Word64.checkedSum a.value b.value).map StorageSize.mk

/- What is left of a size after taking another from it. -/
def saturatingSub
    (a b : StorageSize) : StorageSize :=
  ⟨Word64.saturatingDiff a.value b.value⟩

end StorageSize

end DriveMarket
