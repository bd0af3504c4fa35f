import DriveMarket.Bytes.Basic

/-
  Numbers as byte strings, in both byte orders.

  Writing keeps the lowest bytes of a number, so it loses
  nothing exactly when the number fits the width.

  Key definitions include:
    * `byteSpan`
    * `LittleEndian.encode`
    * `LittleEndian.decode`
    * `BigEndian.encode`
    * `BigEndian.decode`

  Correctness is proven by:
    * `LittleEndian.decode_encode`
    * `LittleEndian.encode_decode`
-/

namespace DriveMarket

------------------------------------------------------------
-- Widths
------------------------------------------------------------

/- How many numbers a width in bytes can hold. -/
def byteSpan : Nat → Nat
  | 0 => 1
  | width + 1 => 256 * byteSpan width

------------------------------------------------------------
-- Least Significant Byte First
------------------------------------------------------------

namespace LittleEndian

/- The lowest `width` bytes of a number, lowest first. -/
def encode :
    (width n : Nat) →
    Bytes
  | 0, _ => []
  | width + 1, n =>
      UInt8.ofNat (n % 256) :: encode width (n / 256)

/- The number that bytes spell, lowest first. -/
def decode : Bytes → Nat
  | [] => 0
  | byte :: rest => byte.toNat + 256 * decode rest

@[simp]
theorem length_encode
    (width n : Nat) :
    (encode width n).length = width := by
  induction width generalizing n with
  | zero => rfl
  | succ width ih => simp [encode, ih]

/- Bytes of one width spell only numbers that it can hold. -/
theorem decode_lt
    (bytes : Bytes) :
    decode bytes < byteSpan bytes.length := by
  induction bytes with
  | nil => simp [decode, byteSpan]
  | cons byte rest ih =>
      have hByte := byte.toNat_lt
      simp only [decode, List.length_cons, byteSpan]
      omega

/- What is read back is the number modulo the width. -/
theorem decode_encode_mod
    (width n : Nat) :
    decode (encode width n) = n % byteSpan width := by
  induction width generalizing n with
  | zero => simp [encode, decode, byteSpan, Nat.mod_one]
  | succ width ih =>
      have hByte : (UInt8.ofNat (n % 256)).toNat = n % 256 := by
        simp [UInt8.toNat_ofNat']
      simp only [encode, decode, ih, hByte, byteSpan]
      rw [Nat.mod_mul]

/- A number that fits the width is read back unchanged. -/
theorem decode_encode
    {width n : Nat}
    (h : n < byteSpan width) :
    decode (encode width n) = n := by
  rw [decode_encode_mod, Nat.mod_eq_of_lt h]

/- Reading and writing again gives the same bytes. -/
theorem encode_decode
    (bytes : Bytes) :
    encode bytes.length (decode bytes) = bytes := by
  induction bytes with
  | nil => rfl
  | cons byte rest ih =>
      have hByte := byte.toNat_lt
      have hLow :
          (byte.toNat + 256 * decode rest) % 256 =
            byte.toNat := by
        omega
      have hHigh :
          (byte.toNat + 256 * decode rest) / 256 =
            decode rest := by
        omega
      simp [encode, decode, hLow, hHigh, ih]

end LittleEndian

------------------------------------------------------------
-- Most Significant Byte First
------------------------------------------------------------

namespace BigEndian

/- The lowest `width` bytes of a number, highest first. -/
def encode
    (width n : Nat) : Bytes :=
  (LittleEndian.encode width n).reverse

/- The number that bytes spell, highest first. -/
def decode
    (bytes : Bytes) : Nat :=
  LittleEndian.decode bytes.reverse

@[simp]
theorem length_encode
    (width n : Nat) :
    (encode width n).length = width := by
  simp [encode]

end BigEndian

end DriveMarket
