import DriveMarket.Bytes.Endian

/-
  SHA3-256 of byte strings.

  A sponge over the Keccak permutation: the padded message is
  absorbed in blocks of 136 bytes into a state of 5 × 5 lanes
  of 64 bits, and the digest is the first 32 bytes of the last
  state.

  Key definitions include:
    * `Sha3.State`
    * `Sha3.round`
    * `Sha3.permute`
    * `Sha3.absorb`
    * `Sha3.hash`
-/

namespace DriveMarket

namespace Sha3

------------------------------------------------------------
-- Lanes
------------------------------------------------------------

/- Twenty-five lanes; lane `(x, y)` stands at `x + 5 * y`. -/
abbrev State :=
  Vector UInt64 25

/- The lane at two coordinates. -/
def lane
    (s : State)
    (x y : Fin 5) : UInt64 :=
  s.get ⟨x.val + 5 * y.val, by omega⟩

/- The state with a given lane at each pair of coordinates. -/
def ofLanes
    (f : Fin 5 → Fin 5 → UInt64) : State :=
  Vector.ofFn fun i : Fin 25 =>
    f ⟨i.val % 5, by omega⟩ ⟨i.val / 5, by omega⟩

/- Rotation of a lane to the left. -/
def rotate
    (x n : UInt64) : UInt64 :=
  (x <<< n) ||| (x >>> (64 - n))

/- How far each lane is rotated, in the order of the state. -/
def offsets : Vector UInt64 25 :=
  #v[0, 1, 62, 28, 27, 36, 44, 6, 55, 20, 3, 10, 43,
    25, 39, 41, 45, 15, 21, 8, 18, 2, 61, 56, 14]

/- The constant of each round. -/
def constants : List UInt64 :=
  [ 0x0000000000000001, 0x0000000000008082,
    0x800000000000808a, 0x8000000080008000,
    0x000000000000808b, 0x0000000080000001,
    0x8000000080008081, 0x8000000000008009,
    0x000000000000008a, 0x0000000000000088,
    0x0000000080008009, 0x000000008000000a,
    0x000000008000808b, 0x800000000000008b,
    0x8000000000008089, 0x8000000000008003,
    0x8000000000008002, 0x8000000000000080,
    0x000000000000800a, 0x800000008000000a,
    0x8000000080008081, 0x8000000000008080,
    0x0000000080000001, 0x8000000080008008 ]

------------------------------------------------------------
-- Permutation
------------------------------------------------------------

/- Add to each lane the parities of two nearby columns. -/
def mixColumns
    (s : State) : State :=
  let parity : Vector UInt64 5 :=
    Vector.ofFn fun x =>
      lane s x 0 ^^^ lane s x 1 ^^^ lane s x 2 ^^^
        lane s x 3 ^^^ lane s x 4
  let change : Vector UInt64 5 :=
    Vector.ofFn fun x =>
      parity.get (x - 1) ^^^ rotate (parity.get (x + 1)) 1
  ofLanes fun x y => lane s x y ^^^ change.get x

/- Rotate every lane and move it to its new place. -/
def moveLanes
    (s : State) : State :=
  ofLanes fun x y =>
    rotate (lane s (x + 3 * y) x) (lane offsets (x + 3 * y) x)

/- Combine each lane with the next two of its row. -/
def combineRows
    (s : State) : State :=
  ofLanes fun x y =>
    lane s x y ^^^ (~~~lane s (x + 1) y &&& lane s (x + 2) y)

/- One round, with its constant. -/
def round
    (s : State)
    (constant : UInt64) : State :=
  let mixed := combineRows (moveLanes (mixColumns s))
  mixed.set 0 (mixed.get 0 ^^^ constant)

/- All rounds. -/
def permute
    (s : State) : State :=
  constants.foldl round s

------------------------------------------------------------
-- Sponge
------------------------------------------------------------

/- The bytes absorbed at a time. -/
def rate : Nat :=
  136

/- Mix one block into the state. -/
def absorb
    (s : State)
    (block : Bytes) : State :=
  let words :=
    (block.chunks 8 (rate / 8)).map fun word =>
      UInt64.ofNat (LittleEndian.decode word)
  let input := words.toArray
  permute
    (Vector.ofFn fun i : Fin 25 =>
      s.get i ^^^ input.getD i.val 0)

/-
  The message padded to whole blocks: the bits `01` that mark
  the hash function, then a set bit, zeros, and a set bit.
-/
def pad
    (message : Bytes) : Bytes :=
  let missing := rate - message.length % rate
  let tail : Bytes :=
    if missing = 1 then
      [0x86]
    else
      0x06 :: (List.replicate (missing - 2) 0 ++ [0x80])
  message ++ tail

/- The digest of a message. -/
def hash
    (message : Bytes) : Digest :=
  let padded := pad message
  let blocks := padded.chunks rate (padded.length / rate)
  let final :=
    blocks.foldl absorb (Vector.replicate 25 0)
  ⟨[final.get 0, final.get 1, final.get 2, final.get 3].flatMap
      fun word => LittleEndian.encode 8 word.toNat,
    by simp⟩

/- The digest of several byte strings, one after the other. -/
def hashParts
    (parts : List Bytes) : Digest :=
  hash parts.flatten

end Sha3

end DriveMarket
