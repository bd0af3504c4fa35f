import DriveMarket.Bytes.Endian

/-
  SHA-512 of byte strings.

  The message is padded to whole blocks of 128 bytes: one set
  bit, zeros, and the message's length in bits.  Each block is
  mixed into a state of eight 64-bit words by one round per
  round constant, while a window of sixteen words runs along
  the block's message schedule.

  Key definitions include:
    * `Sha512.State`
    * `Sha512.round`
    * `Sha512.compress`
    * `Sha512.pad`
    * `Sha512.hash`
-/

namespace DriveMarket

namespace Sha512

------------------------------------------------------------
-- Word Functions
------------------------------------------------------------

/- Rotation to the right by less than a whole word. -/
def rotate
    (x : UInt64)
    (n : UInt64) : UInt64 :=
  (x >>> n) ||| (x <<< (64 - n))

/- Bitwise choice between two words. -/
def choose
    (x y z : UInt64) : UInt64 :=
  (x &&& y) ^^^ (~~~x &&& z)

/- Bitwise majority of three words. -/
def majority
    (x y z : UInt64) : UInt64 :=
  (x &&& y) ^^^ (x &&& z) ^^^ (y &&& z)

/- The mixing of the first state word. -/
def bigSigma0
    (x : UInt64) : UInt64 :=
  rotate x 28 ^^^ rotate x 34 ^^^ rotate x 39

/- The mixing of the fifth state word. -/
def bigSigma1
    (x : UInt64) : UInt64 :=
  rotate x 14 ^^^ rotate x 18 ^^^ rotate x 41

/- The schedule's mixing of the word fifteen back. -/
def smallSigma0
    (x : UInt64) : UInt64 :=
  rotate x 1 ^^^ rotate x 8 ^^^ (x >>> 7)

/- The schedule's mixing of the word two back. -/
def smallSigma1
    (x : UInt64) : UInt64 :=
  rotate x 19 ^^^ rotate x 61 ^^^ (x >>> 6)

/-
  The round constants: the first 64 fractional bits of the
  cube roots of the first 80 primes.
-/
def constants : List UInt64 :=
  [ 0x428a2f98d728ae22, 0x7137449123ef65cd,
    0xb5c0fbcfec4d3b2f, 0xe9b5dba58189dbbc,
    0x3956c25bf348b538, 0x59f111f1b605d019,
    0x923f82a4af194f9b, 0xab1c5ed5da6d8118,
    0xd807aa98a3030242, 0x12835b0145706fbe,
    0x243185be4ee4b28c, 0x550c7dc3d5ffb4e2,
    0x72be5d74f27b896f, 0x80deb1fe3b1696b1,
    0x9bdc06a725c71235, 0xc19bf174cf692694,
    0xe49b69c19ef14ad2, 0xefbe4786384f25e3,
    0x0fc19dc68b8cd5b5, 0x240ca1cc77ac9c65,
    0x2de92c6f592b0275, 0x4a7484aa6ea6e483,
    0x5cb0a9dcbd41fbd4, 0x76f988da831153b5,
    0x983e5152ee66dfab, 0xa831c66d2db43210,
    0xb00327c898fb213f, 0xbf597fc7beef0ee4,
    0xc6e00bf33da88fc2, 0xd5a79147930aa725,
    0x06ca6351e003826f, 0x142929670a0e6e70,
    0x27b70a8546d22ffc, 0x2e1b21385c26c926,
    0x4d2c6dfc5ac42aed, 0x53380d139d95b3df,
    0x650a73548baf63de, 0x766a0abb3c77b2a8,
    0x81c2c92e47edaee6, 0x92722c851482353b,
    0xa2bfe8a14cf10364, 0xa81a664bbc423001,
    0xc24b8b70d0f89791, 0xc76c51a30654be30,
    0xd192e819d6ef5218, 0xd69906245565a910,
    0xf40e35855771202a, 0x106aa07032bbd1b8,
    0x19a4c116b8d2d0c8, 0x1e376c085141ab53,
    0x2748774cdf8eeb99, 0x34b0bcb5e19b48a8,
    0x391c0cb3c5c95a63, 0x4ed8aa4ae3418acb,
    0x5b9cca4f7763e373, 0x682e6ff3d6b2b8a3,
    0x748f82ee5defb2fc, 0x78a5636f43172f60,
    0x84c87814a1f0ab72, 0x8cc702081a6439ec,
    0x90befffa23631e28, 0xa4506cebde82bde9,
    0xbef9a3f7b2c67915, 0xc67178f2e372532b,
    0xca273eceea26619c, 0xd186b8c721c0c207,
    0xeada7dd6cde0eb1e, 0xf57d4f7fee6ed178,
    0x06f067aa72176fba, 0x0a637dc5a2c898a6,
    0x113f9804bef90dae, 0x1b710b35131c471b,
    0x28db77f523047d84, 0x32caab7b40c72493,
    0x3c9ebe0a15c9bebc, 0x431d67c49c100d4c,
    0x4cc5d4becb3e42b6, 0x597f299cfc657e2a,
    0x5fcb6fab3ad6faec, 0x6c44198c4a475817 ]

------------------------------------------------------------
-- Compression
------------------------------------------------------------

/- The eight chaining words. -/
structure State where
  a : UInt64
  b : UInt64
  c : UInt64
  d : UInt64
  e : UInt64
  f : UInt64
  g : UInt64
  h : UInt64
deriving DecidableEq

/-
  The first state: fractional bits of the square roots of the
  first eight primes.
-/
def State.initial : State :=
  { a := 0x6a09e667f3bcc908
    b := 0xbb67ae8584caa73b
    c := 0x3c6ef372fe94f82b
    d := 0xa54ff53a5f1d36f1
    e := 0x510e527fade682d1
    f := 0x9b05688c2b3e6c1f
    g := 0x1f83d9abfb41bd6b
    h := 0x5be0cd19137e2179 }

/- Word by word sum of two states. -/
def State.add
    (s t : State) : State :=
  { a := s.a + t.a
    b := s.b + t.b
    c := s.c + t.c
    d := s.d + t.d
    e := s.e + t.e
    f := s.f + t.f
    g := s.g + t.g
    h := s.h + t.h }

/- The words of a state, first word first, as bytes. -/
def State.bytes
    (s : State) : Bytes :=
  [s.a, s.b, s.c, s.d, s.e, s.f, s.g, s.h].flatMap
    fun x => BigEndian.encode 8 x.toNat

/-
  Advance the schedule window by one word: the word that falls
  out at the front, and the window after it.
-/
def advance : List UInt64 → UInt64 × List UInt64
  | [] => (0, [])
  | w :: rest =>
      let next :=
        smallSigma1 (rest.getD 13 0) + rest.getD 8 0 +
          smallSigma0 (rest.getD 0 0) + w
      (w, rest ++ [next])

/- One round, with its constant. -/
def round
    (current : State × List UInt64)
    (constant : UInt64) : State × List UInt64 :=
  let (s, window) := current
  let (w, window) := advance window
  let t₁ :=
    s.h + bigSigma1 s.e + choose s.e s.f s.g + constant + w
  let t₂ := bigSigma0 s.a + majority s.a s.b s.c
  ({ a := t₁ + t₂
     b := s.a
     c := s.b
     d := s.c
     e := s.d + t₁
     f := s.e
     g := s.f
     h := s.g },
    window)

/- Mix one block into the chaining state. -/
def compress
    (s : State)
    (block : Bytes) : State :=
  let window :=
    (block.chunks 8 16).map fun word =>
      UInt64.ofNat (BigEndian.decode word)
  s.add (constants.foldl round (s, window)).1

------------------------------------------------------------
-- Messages
------------------------------------------------------------

/- The zeros between the set bit and the length. -/
def zeros
    (length : Nat) : Nat :=
  (239 - length % 128) % 128

/- The message padded to whole blocks. -/
def pad
    (message : Bytes) : Bytes :=
  message ++ 0x80 ::
    (List.replicate (zeros message.length) 0 ++
      BigEndian.encode 16 (8 * message.length))

/- The digest of a message. -/
def hash
    (message : Bytes) : FixedBytes 64 :=
  let padded := pad message
  let blocks := padded.chunks 128 (padded.length / 128)
  let final := blocks.foldl compress State.initial
  ⟨final.bytes, by simp [State.bytes]⟩

end Sha512

end DriveMarket
