import DriveMarket.Bytes.Endian

/-
  SHA-256 of byte strings.

  The message is padded to whole blocks of 64 bytes: one set
  bit, zeros, and the message's length in bits.  Each block is
  mixed into a state of eight 32-bit words by one round per
  round constant, while a window of sixteen words runs along
  the block's message schedule.

  Key definitions include:
    * `Sha256.State`
    * `Sha256.round`
    * `Sha256.compress`
    * `Sha256.pad`
    * `Sha256.hash`
-/

namespace DriveMarket

namespace Sha256

------------------------------------------------------------
-- Word Functions
------------------------------------------------------------

/- Rotation to the right by less than a whole word. -/
def rotate
    (x : UInt32)
    (n : UInt32) : UInt32 :=
  (x >>> n) ||| (x <<< (32 - n))

/- Bitwise choice between two words. -/
def choose
    (x y z : UInt32) : UInt32 :=
  (x &&& y) ^^^ (~~~x &&& z)

/- Bitwise majority of three words. -/
def majority
    (x y z : UInt32) : UInt32 :=
  (x &&& y) ^^^ (x &&& z) ^^^ (y &&& z)

/- The mixing of the first state word. -/
def bigSigma0
    (x : UInt32) : UInt32 :=
  rotate x 2 ^^^ rotate x 13 ^^^ rotate x 22

/- The mixing of the fifth state word. -/
def bigSigma1
    (x : UInt32) : UInt32 :=
  rotate x 6 ^^^ rotate x 11 ^^^ rotate x 25

/- The schedule's mixing of the word fifteen back. -/
def smallSigma0
    (x : UInt32) : UInt32 :=
  rotate x 7 ^^^ rotate x 18 ^^^ (x >>> 3)

/- The schedule's mixing of the word two back. -/
def smallSigma1
    (x : UInt32) : UInt32 :=
  rotate x 17 ^^^ rotate x 19 ^^^ (x >>> 10)

/-
  The round constants: the first 32 fractional bits of the
  cube roots of the first 64 primes.
-/
def constants : List UInt32 :=
  [ 0x428a2f98, 0x71374491, 0xb5c0fbcf, 0xe9b5dba5, 0x3956c25b,
    0x59f111f1, 0x923f82a4, 0xab1c5ed5, 0xd807aa98, 0x12835b01,
    0x243185be, 0x550c7dc3, 0x72be5d74, 0x80deb1fe, 0x9bdc06a7,
    0xc19bf174, 0xe49b69c1, 0xefbe4786, 0x0fc19dc6, 0x240ca1cc,
    0x2de92c6f, 0x4a7484aa, 0x5cb0a9dc, 0x76f988da, 0x983e5152,
    0xa831c66d, 0xb00327c8, 0xbf597fc7, 0xc6e00bf3, 0xd5a79147,
    0x06ca6351, 0x14292967, 0x27b70a85, 0x2e1b2138, 0x4d2c6dfc,
    0x53380d13, 0x650a7354, 0x766a0abb, 0x81c2c92e, 0x92722c85,
    0xa2bfe8a1, 0xa81a664b, 0xc24b8b70, 0xc76c51a3, 0xd192e819,
    0xd6990624, 0xf40e3585, 0x106aa070, 0x19a4c116, 0x1e376c08,
    0x2748774c, 0x34b0bcb5, 0x391c0cb3, 0x4ed8aa4a, 0x5b9cca4f,
    0x682e6ff3, 0x748f82ee, 0x78a5636f, 0x84c87814, 0x8cc70208,
    0x90befffa, 0xa4506ceb, 0xbef9a3f7, 0xc67178f2 ]

------------------------------------------------------------
-- Compression
------------------------------------------------------------

/- The eight chaining words. -/
structure State where
  a : UInt32
  b : UInt32
  c : UInt32
  d : UInt32
  e : UInt32
  f : UInt32
  g : UInt32
  h : UInt32
deriving DecidableEq

/-
  The first state: fractional bits of the square roots of the
  first eight primes.
-/
def State.initial : State :=
  { a := 0x6a09e667
    b := 0xbb67ae85
    c := 0x3c6ef372
    d := 0xa54ff53a
    e := 0x510e527f
    f := 0x9b05688c
    g := 0x1f83d9ab
    h := 0x5be0cd19 }

/- Word by word sum of two states. -/
def State.add
    (s t : State) : State :=
  { a := s.a + t.a
    b := s.b + t.b
    c := s.c + t.c
    d := s.d + t.d
    e := s.e + t.e
    f := s.f + t.f
    g := s.g + t.g
    h := s.h + t.h }

/- The words of a state, first word first, as bytes. -/
def State.bytes
    (s : State) : Bytes :=
  [s.a, s.b, s.c, s.d, s.e, s.f, s.g, s.h].flatMap
    fun x => BigEndian.encode 4 x.toNat

/-
  Advance the schedule window by one word: the word that falls
  out at the front, and the window after it.
-/
def advance : List UInt32 → UInt32 × List UInt32
  | [] => (0, [])
  | w :: rest =>
      let next :=
        smallSigma1 (rest.getD 13 0) + rest.getD 8 0 +
          smallSigma0 (rest.getD 0 0) + w
      (w, rest ++ [next])

/- One round, with its constant. -/
def round
    (current : State × List UInt32)
    (constant : UInt32) : State × List UInt32 :=
  let (s, window) := current
  let (w, window) := advance window
  let t₁ :=
    s.h + bigSigma1 s.e + choose s.e s.f s.g + constant + w
  let t₂ := bigSigma0 s.a + majority s.a s.b s.c
  ({ a := t₁ + t₂
     b := s.a
     c := s.b
     d := s.c
     e := s.d + t₁
     f := s.e
     g := s.f
     h := s.g },
    window)

/- Mix one block into the chaining state. -/
def compress
    (s : State)
    (block : Bytes) : State :=
  let window :=
    (block.chunks 4 16).map fun word =>
      UInt32.ofNat (BigEndian.decode word)
  s.add (constants.foldl round (s, window)).1

------------------------------------------------------------
-- Messages
------------------------------------------------------------

/- The zeros between the set bit and the length. -/
def zeros
    (length : Nat) : Nat :=
  (119 - length % 64) % 64

/- The message padded to whole blocks. -/
def pad
    (message : Bytes) : Bytes :=
  message ++ 0x80 ::
    (List.replicate (zeros message.length) 0 ++
      BigEndian.encode 8 (8 * message.length))

/- The digest of a message. -/
def hash
    (message : Bytes) : FixedBytes 32 :=
  let padded := pad message
  let blocks := padded.chunks 64 (padded.length / 64)
  let final := blocks.foldl compress State.initial
  ⟨final.bytes, by simp [State.bytes]⟩

end Sha256

end DriveMarket
