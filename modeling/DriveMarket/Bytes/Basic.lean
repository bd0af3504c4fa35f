/-
  Byte strings, and byte strings of a fixed width.

  A byte string is the list of its bytes.  Keys, digests,
  signatures and curve points all have a width that never
  varies, so the width is part of their type.

  Key definitions include:
    * `Bytes`
    * `Bytes.chunks`
    * `FixedBytes`
    * `FixedBytes.ofList?`
    * `FixedBytes.zero`
    * `Digest`
    * `PublicKey`
    * `Signature`
-/

namespace DriveMarket

------------------------------------------------------------
-- Byte Strings
------------------------------------------------------------

/- A byte string, first byte first. -/
abbrev Bytes :=
  List UInt8

namespace Bytes

/-
  The first `count` pieces of `width` bytes each.  Only the
  last pieces can be short, and only when bytes run out.
-/
def chunks
    (width : Nat) :
    (count : Nat) →
    (bytes : Bytes) →
    List Bytes
  | 0, _ => []
  | count + 1, bytes =>
      bytes.take width ::
        chunks width count (bytes.drop width)

theorem length_chunks
    (width count : Nat)
    (bytes : Bytes) :
    (chunks width count bytes).length = count := by
  induction count generalizing bytes with
  | zero => rfl
  | succ count ih => simp [chunks, ih]

/- Bitwise exclusive or, as far as the shorter string goes. -/
def xor
    (a b : Bytes) : Bytes :=
  List.zipWith (· ^^^ ·) a b

end Bytes

------------------------------------------------------------
-- Fixed Widths
------------------------------------------------------------

/- Exactly `width` bytes. -/
structure FixedBytes (width : Nat) where
  toList : Bytes
  length_toList : toList.length = width
deriving DecidableEq

namespace FixedBytes

variable {width : Nat}

/- The bytes as a fixed-width value, if their number is right. -/
def ofList?
    (width : Nat)
    (bytes : Bytes) :
    Option (FixedBytes width) :=
  if h : bytes.length = width then
    some ⟨bytes, h⟩
  else
    none

/- All bytes zero: the value of a field that was left out. -/
def zero
    (width : Nat) : FixedBytes width :=
  ⟨List.replicate width 0, List.length_replicate⟩

instance : Inhabited (FixedBytes width) :=
  ⟨zero width⟩

/- Whether every byte is zero. -/
def isZero
    (value : FixedBytes width) : Bool :=
  value.toList.all (· == 0)

/- Two values are equal as soon as their bytes are. -/
theorem ext
    {a b : FixedBytes width}
    (h : a.toList = b.toList) : a = b := by
  cases a
  cases b
  simp_all

/- Reading back the bytes of a fixed-width value. -/
theorem ofList?_toList
    (value : FixedBytes width) :
    ofList? width value.toList = some value := by
  simp [ofList?, value.length_toList]

/- Only byte strings of the right width are taken, as they are. -/
theorem ofList?_eq_some_iff
    {bytes : Bytes}
    {value : FixedBytes width} :
    ofList? width bytes = some value ↔
      value.toList = bytes := by
  constructor
  · intro h
    unfold ofList? at h
    split at h
    · cases h
      rfl
    · cases h
  · intro h
    subst h
    exact ofList?_toList value

/-
  Values are ordered byte by byte from the first, which for
  one width is also the order of the numbers they spell in
  big-endian.
-/
instance : LT (FixedBytes width) :=
  ⟨fun a b => a.toList < b.toList⟩

instance
    (a b : FixedBytes width) : Decidable (a < b) :=
  inferInstanceAs (Decidable (a.toList < b.toList))

end FixedBytes

------------------------------------------------------------
-- Identities
------------------------------------------------------------

/-
  A SHA3-256 digest: content roots, modification ids and
  transaction hashes.
-/
abbrev Digest :=
  FixedBytes 32

/- The Ed25519 key of an account: drives, owners, replicators. -/
abbrev PublicKey :=
  FixedBytes 32

/- An Ed25519 signature. -/
abbrev Signature :=
  FixedBytes 64

end DriveMarket
