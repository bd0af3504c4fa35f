import DriveMarket.Crypto.Bls
import Mathlib.Algebra.BigOperators.Group.List.Basic
import Mathlib.Data.ZMod.Basic

/-
  What is relied on of paired groups.

  Points are added in both groups, and the pairing turns sums
  into products.  A verification compares two pairings.  The
  byte form of a point need not give back the same point, only
  one with the same pairing.

  Key definitions include:
    * `PairingLaws`
    * `Residues.groups`
    * `Residues.laws`

  Correctness is proven by:
    * `PairingLaws.pairing_sumKeys`
    * `PairingLaws.pairing_sumSignatures`
-/

namespace DriveMarket

------------------------------------------------------------
-- Laws
------------------------------------------------------------

/- A pairing into a commutative group that verification uses. -/
structure PairingLaws
    (groups : PairingGroups)
    (Target : Type)
    [CommGroup Target] where
  generator : groups.KeyPoint
  pairing :
    groups.KeyPoint → groups.SignaturePoint → Target
  zeroKey_mem : groups.keyInSubgroup groups.zeroKey
  addKeys_mem :
    ∀ {k l : groups.KeyPoint},
      groups.keyInSubgroup k → groups.keyInSubgroup l →
      groups.keyInSubgroup (groups.addKeys k l)
  pairing_zeroKey :
    ∀ message,
      pairing groups.zeroKey (groups.hash message) = 1
  pairing_addKeys :
    ∀ {k l : groups.KeyPoint} (message : Bytes),
      groups.keyInSubgroup k → groups.keyInSubgroup l →
      pairing (groups.addKeys k l) (groups.hash message) =
        pairing k (groups.hash message) *
          pairing l (groups.hash message)
  zeroSignature_mem :
    groups.signatureInSubgroup groups.zeroSignature
  addSignatures_mem :
    ∀ {s t : groups.SignaturePoint},
      groups.signatureInSubgroup s →
      groups.signatureInSubgroup t →
      groups.signatureInSubgroup (groups.addSignatures s t)
  pairing_zeroSignature :
    pairing generator groups.zeroSignature = 1
  pairing_addSignatures :
    ∀ {s t : groups.SignaturePoint},
      groups.signatureInSubgroup s →
      groups.signatureInSubgroup t →
      pairing generator (groups.addSignatures s t) =
        pairing generator s * pairing generator t
  decode_encodeSignature :
    ∀ {s : groups.SignaturePoint},
      groups.signatureInSubgroup s →
      ∃ t,
        groups.decodeSignature (groups.encodeSignature s) =
          some t ∧
        groups.signatureInSubgroup t ∧
        pairing generator t = pairing generator s
  agree_iff :
    ∀ {k : groups.KeyPoint} {s : groups.SignaturePoint}
      (message : Bytes),
      groups.keyInSubgroup k →
      groups.signatureInSubgroup s →
      (groups.agree k (groups.hash message) s ↔
        pairing k (groups.hash message) =
          pairing generator s)

namespace PairingLaws

variable {groups : PairingGroups}
variable {Target : Type} [CommGroup Target]
variable (laws : PairingLaws groups Target)

/- The pairing of a sum of keys is the product of pairings. -/
theorem pairing_sumKeys
    (message : Bytes)
    (keys : List groups.KeyPoint)
    (first : groups.KeyPoint)
    (hFirst : groups.keyInSubgroup first)
    (hKeys : ∀ k ∈ keys, groups.keyInSubgroup k) :
    groups.keyInSubgroup (keys.foldl groups.addKeys first) ∧
      laws.pairing (keys.foldl groups.addKeys first)
          (groups.hash message) =
        laws.pairing first (groups.hash message) *
          (keys.map fun k =>
            laws.pairing k (groups.hash message)).prod := by
  induction keys generalizing first with
  | nil => exact ⟨hFirst, (mul_one _).symm⟩
  | cons key keys ih =>
      rw [List.forall_mem_cons] at hKeys
      have hSum := laws.addKeys_mem hFirst hKeys.1
      rcases ih _ hSum hKeys.2 with ⟨hMem, hPairing⟩
      refine ⟨hMem, ?_⟩
      rw [List.foldl_cons, hPairing,
        laws.pairing_addKeys message hFirst hKeys.1,
        List.map_cons, List.prod_cons, mul_assoc]

/- The same for a sum of signatures. -/
theorem pairing_sumSignatures
    (signatures : List groups.SignaturePoint)
    (first : groups.SignaturePoint)
    (hFirst : groups.signatureInSubgroup first)
    (hSignatures :
      ∀ s ∈ signatures, groups.signatureInSubgroup s) :
    groups.signatureInSubgroup
        (signatures.foldl groups.addSignatures first) ∧
      laws.pairing laws.generator
          (signatures.foldl groups.addSignatures first) =
        laws.pairing laws.generator first *
          (signatures.map
            (laws.pairing laws.generator)).prod := by
  induction signatures generalizing first with
  | nil => exact ⟨hFirst, (mul_one _).symm⟩
  | cons signature signatures ih =>
      rw [List.forall_mem_cons] at hSignatures
      have hSum :=
        laws.addSignatures_mem hFirst hSignatures.1
      rcases ih _ hSum hSignatures.2 with ⟨hMem, hPairing⟩
      refine ⟨hMem, ?_⟩
      rw [List.foldl_cons, hPairing,
        laws.pairing_addSignatures hFirst hSignatures.1,
        List.map_cons, List.prod_cons, mul_assoc]

end PairingLaws

------------------------------------------------------------
-- Residues
------------------------------------------------------------

/-
  Residues modulo seven with multiplication for a pairing.  A
  point is its own discrete logarithm, so these groups keep no
  secrets, but they add up like any others.
-/
namespace Residues

/- A residue as the first of some bytes. -/
def toBytes
    (width : Nat)
    (n : ZMod 7) : FixedBytes (width + 1) :=
  ⟨UInt8.ofNat n.val :: List.replicate width 0, by
    rw [List.length_cons, List.length_replicate]⟩

/- The residue of the first byte. -/
def ofBytes
    {width : Nat}
    (bytes : FixedBytes width) : ZMod 7 :=
  ((bytes.toList.headD 0).toNat : ZMod 7)

theorem ofBytes_toBytes
    (width : Nat)
    (n : ZMod 7) :
    ofBytes (toBytes width n) = n := by
  have hByte :
      ∀ n : ZMod 7,
        ((UInt8.ofNat n.val).toNat : ZMod 7) = n := by
    decide
  exact hByte n

/- Paired residues: addition for points, products to compare. -/
def groups : PairingGroups :=
  { KeyPoint := ZMod 7
    SignaturePoint := ZMod 7
    decodeKey := fun bytes => some (ofBytes bytes)
    encodeKey := toBytes 47
    decodeSignature := fun bytes => some (ofBytes bytes)
    encodeSignature := toBytes 95
    keyIsZero := fun k => k == 0
    keyInSubgroup := fun _ => true
    signatureInSubgroup := fun _ => true
    zeroKey := 0
    addKeys := fun k l => k + l
    zeroSignature := 0
    addSignatures := fun s t => s + t
    keyOfSecret := fun n => n
    multiple := fun s n => s * n
    hash := fun _ => 1
    agree := fun k q s => k * q == 1 * s }

/- The product of residues, in a group written with products. -/
def pair
    (k q : ZMod 7) : Multiplicative (ZMod 7) :=
  Multiplicative.ofAdd (k * q)

theorem pair_add_left
    (k l q : ZMod 7) :
    pair (k + l) q = pair k q * pair l q := by
  rw [pair, pair, pair, add_mul, ofAdd_add]

theorem pair_add_right
    (k s t : ZMod 7) :
    pair k (s + t) = pair k s * pair k t := by
  rw [pair, pair, pair, mul_add, ofAdd_add]

/- Residues obey the laws of a pairing. -/
def laws : PairingLaws groups (Multiplicative (ZMod 7)) where
  generator := (1 : ZMod 7)
  pairing := pair
  zeroKey_mem := rfl
  addKeys_mem _ _ := rfl
  pairing_zeroKey _ := rfl
  pairing_addKeys _ _ _ := pair_add_left _ _ _
  zeroSignature_mem := rfl
  addSignatures_mem _ _ := rfl
  pairing_zeroSignature := rfl
  pairing_addSignatures _ _ := pair_add_right _ _ _
  decode_encodeSignature _ :=
    ⟨_, congrArg some (ofBytes_toBytes 95 _), rfl, rfl⟩
  agree_iff _ _ _ := by
    simp [groups, pair]

end Residues

end DriveMarket
