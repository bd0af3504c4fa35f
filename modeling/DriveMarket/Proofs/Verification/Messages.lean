import DriveMarket.Proofs.Verification.Aggregate

/-
  A message stands for one list of results.

  The count in front of the results is a number of 16 bits and
  wraps around, so longer lists can have the count of shorter
  ones.  But every result takes up three bytes, so the length
  of the message tells how many there are, and then they can
  be read off one by one.

  Opinions are therefore grouped by their results when they
  are grouped by their messages.  And a signature of some
  results is one of other results only if the hash of the one
  message cannot be told from the hash of the other.

  Key definitions include:
    * `PairingLaws.Collide`
    * `Residues.groupsHashing`
    * `Residues.lawsHashing`

  Correctness is proven by:
    * `VerificationSession.messages_eq`
    * `PairingLaws.verifyOpinion_other_iff`
    * `opinionMessage_unambiguous`
-/

namespace DriveMarket

------------------------------------------------------------
-- Groups
------------------------------------------------------------

/- What is told apart before a step is told apart after it. -/
theorem eraseDups_map
    {α β : Type}
    [BEq α] [LawfulBEq α]
    [BEq β] [LawfulBEq β]
    {f : α → β}
    (hInjective : Function.Injective f)
    (xs : List α) :
    (xs.map f).eraseDups = xs.eraseDups.map f := by
  match xs with
  | [] => rfl
  | x :: xs =>
      have hOthers :
          (xs.map f).filter (fun y => !y == f x) =
            (xs.filter fun y => !y == x).map f := by
        rw [List.filter_map]
        congr 1
        apply List.filter_congr
        intro y _
        rw [Bool.eq_iff_iff]
        simp [hInjective.eq_iff]
      rw [List.map_cons, List.eraseDups_cons,
        List.eraseDups_cons, List.map_cons, hOthers,
        eraseDups_map hInjective]
  termination_by xs.length
  decreasing_by
    exact Nat.lt_succ_of_le (List.length_filter_le _ xs)

/- There is one message for each list of results. -/
theorem VerificationSession.messages_eq
    (session : VerificationSession) :
    session.messages =
      (session.opinions.values.map (·.results)).eraseDups.map
        opinionMessage := by
  rw [← eraseDups_map @opinionMessage_inj, List.map_map]
  rfl

------------------------------------------------------------
-- Signatures
------------------------------------------------------------

namespace PairingLaws

variable {groups : PairingGroups}
variable {Target : Type} [CommGroup Target]
variable (laws : PairingLaws groups Target)

/-
  The hashes of two different messages have the same pairing
  with a usable key.
-/
def Collide
    (key : BlsPublicKey)
    (message other : Bytes) : Prop :=
  message ≠ other ∧
    ∃ k,
      (groups.decodeKey key).filter groups.validKey = some k ∧
      laws.pairing k (groups.hash message) =
        laws.pairing k (groups.hash other)

/- A signature is one of other results only by a collision. -/
theorem verifyOpinion_other_iff
    {key : BlsPublicKey}
    {signature : BlsSignature}
    {results others : List VerificationResult}
    {verifier verifier' : UInt16}
    (hDiffer : results ≠ others)
    (hVerify :
      verifyOpinion groups ⟨verifier, signature, results⟩
        key) :
    verifyOpinion groups ⟨verifier', signature, others⟩
        key ↔
      laws.Collide key (opinionMessage results)
        (opinionMessage others) := by
  rcases laws.verifyOpinion_iff.mp hVerify with
    ⟨k, s, hKey, hSignature, hPairing⟩
  rw [laws.verifyOpinion_iff]
  constructor
  · rintro ⟨k', s', hKey', hSignature', hPairing'⟩
    cases hKey.symm.trans hKey'
    cases hSignature.symm.trans hSignature'
    refine ⟨fun hEqual => hDiffer (opinionMessage_inj hEqual),
      k, hKey, ?_⟩
    rw [hPairing, hPairing']
  · rintro ⟨-, k', hKey', hCollide⟩
    cases hKey.symm.trans hKey'
    exact ⟨k, s, hKey, hSignature,
      hCollide.symm.trans hPairing⟩

end PairingLaws

------------------------------------------------------------
-- Messages
------------------------------------------------------------

/-
  Results can be told from their message, however many there
  are.  So the opinions of a round are grouped by their
  results: there is one message for each list of results that
  was given, and those who signed it are those who gave these
  results.  A signature that verifies for some results does
  not verify for others, under whatever verifier, unless the
  hash has a collision at their messages.
-/
theorem opinionMessage_unambiguous
    {groups : PairingGroups}
    {Target : Type}
    [CommGroup Target]
    (laws : PairingLaws groups Target) :
    (∀ results others,
      opinionMessage results = opinionMessage others ↔
        results = others) ∧
    (∀ session : VerificationSession,
      session.messages =
        (session.opinions.values.map
          (·.results)).eraseDups.map opinionMessage ∧
      ∀ results,
        session.signersOf (opinionMessage results) =
          session.opinions.values.filter fun opinion =>
            opinion.results = results) ∧
    ∀ key signature verifier verifier' results others,
      results ≠ others →
      verifyOpinion groups ⟨verifier, signature, results⟩
        key →
      (verifyOpinion groups ⟨verifier', signature, others⟩
          key ↔
        laws.Collide key (opinionMessage results)
          (opinionMessage others)) := by
  refine ⟨?_, ?_, ?_⟩
  · intro results others
    exact ⟨opinionMessage_inj, congrArg opinionMessage⟩
  · intro session
    exact ⟨session.messages_eq,
      session.signersOf_opinionMessage⟩
  · intro key signature verifier verifier' results others
      hDiffer hVerify
    exact laws.verifyOpinion_other_iff hDiffer hVerify

------------------------------------------------------------
-- Residues with a Hash
------------------------------------------------------------

namespace Residues

/- Paired residues with a hash that is not constant. -/
def groupsHashing
    (hash : Bytes → ZMod 7) : PairingGroups :=
  { groups with hash := hash }

def lawsHashing
    (hash : Bytes → ZMod 7) :
    PairingLaws (groupsHashing hash)
      (Multiplicative (ZMod 7)) where
  generator := (1 : ZMod 7)
  pairing := pair
  zeroKey_mem := rfl
  addKeys_mem _ _ := rfl
  pairing_zeroKey _ :=
    congrArg Multiplicative.ofAdd (zero_mul _)
  pairing_addKeys _ _ _ := pair_add_left _ _ _
  zeroSignature_mem := rfl
  addSignatures_mem _ _ := rfl
  pairing_zeroSignature := rfl
  pairing_addSignatures _ _ := pair_add_right _ _ _
  decode_encodeSignature _ :=
    ⟨_, congrArg some (ofBytes_toBytes 95 _), rfl, rfl⟩
  agree_iff _ _ _ := by
    simp [groupsHashing, groups, pair]

/- One more than the sum of all bytes. -/
def byteSum
    (message : Bytes) : ZMod 7 :=
  message.foldl (fun sum byte => sum + byte.toNat) 1

end Residues

/-
  No results and 65536 of them have the same count in front,
  but not the same message.  A signature that a prover passed
  is none that it failed.
-/
theorem opinionMessage_unambiguous_wrapped :
    let groups := Residues.groupsHashing Residues.byteSum
    let many : List VerificationResult :=
      List.replicate 65536 ⟨0, true⟩
    let passed := signOpinion groups 1 0 [⟨0, true⟩]
    let key := groups.publicKey 1
    (opinionMessage many).take 2 =
      (opinionMessage []).take 2 ∧
    opinionMessage many ≠ opinionMessage [] ∧
    verifyOpinion groups passed key ∧
    ¬ verifyOpinion groups
        { passed with results := [⟨0, false⟩] } key := by
  intro groups many passed key
  have hFront :
      ∀ results,
        (opinionMessage results).take 2 =
          LittleEndian.encode 2 results.length :=
    fun results =>
      List.take_left' (LittleEndian.length_encode 2 _)
  have hCount : many.length = 65536 := List.length_replicate
  have hPassed : verifyOpinion groups passed key := by
    decide +kernel
  rcases opinionMessage_unambiguous
      (Residues.lawsHashing Residues.byteSum) with
    ⟨hMessages, -, hSignatures⟩
  refine ⟨?_, ?_, hPassed, ?_⟩
  · rw [hFront, hFront, hCount]
    rfl
  · rw [ne_eq, hMessages]
    exact List.ne_nil_of_length_pos (by omega)
  · intro hVerify
    rcases (hSignatures key passed.signature 0 0
        [⟨0, true⟩] [⟨0, false⟩] (by decide) hPassed).mp
          hVerify with
      ⟨-, k, hKey, hPairing⟩
    have hPoint :
        (groups.decodeKey key).filter groups.validKey =
          some (1 : ZMod 7) := rfl
    cases hPoint.symm.trans hKey
    cases hPairing

end DriveMarket
