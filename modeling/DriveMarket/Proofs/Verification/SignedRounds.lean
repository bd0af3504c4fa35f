import DriveMarket.Proofs.Verification.Aggregate

/-
  Rounds of which every opinion was checked as it came in.

  If every opinion verifies on its own, the signatures of each
  group of equal results add up to one of the added keys.  So
  the aggregate check of the round can fail for one reason
  only: the keys of a group cancel, and a key of zero has no
  signature.

  Key definitions include:
    * `VerificationSession.SignedUnder`

  Correctness is proven by:
    * `VerificationSession.SignedUnder.all_verify`
    * `PairingLaws.balanced_iff_of_all_verify`
    * `VerificationSession.verifySignatures_of_signed`
-/

namespace DriveMarket

------------------------------------------------------------
-- Verified Opinions Balance
------------------------------------------------------------

/-
  Opinions with the same results that all verify are balanced
  if their keys do not add up to zero.
-/
theorem PairingLaws.balanced_iff_of_all_verify
    {groups : PairingGroups}
    {Target : Type}
    [CommGroup Target]
    (laws : PairingLaws groups Target)
    {keys : List BlsPublicKey}
    {results : List VerificationResult}
    {opinions : List Opinion}
    (hSame : ∀ opinion ∈ opinions, opinion.results = results)
    (hVerify :
      ∀ opinion ∈ opinions,
        VerificationSession.verifies groups keys opinion) :
    laws.Balanced keys (opinionMessage results) opinions ↔
      groups.keyIsZero
        (Opinion.keySum groups keys opinions) = false := by
  constructor
  · exact fun hBalanced => hBalanced.sum_ne_zero
  · intro hSum
    refine ⟨?_, hSum, ?_⟩
    · intro opinion hMem
      rcases laws.verifies_iff.mp (hVerify opinion hMem) with
        ⟨k, s, hKey, hSignature, -⟩
      rw [hKey, hSignature]
      exact ⟨rfl, rfl⟩
    · rw [prod_filterMap, prod_filterMap]
      congr 1
      apply List.map_congr_left
      intro opinion hMem
      have hFactors :=
        laws.factors_eq_of_verifies (hVerify opinion hMem)
      rw [hSame opinion hMem] at hFactors
      exact hFactors

namespace VerificationSession

variable {groups : PairingGroups}
variable {keys : List BlsPublicKey}
variable {session : VerificationSession}

------------------------------------------------------------
-- Signed Sessions
------------------------------------------------------------

/-
  A session all of whose opinions were accepted as signed,
  with the same keys.  What else is offered and not accepted
  leaves a session as it is.
-/
inductive SignedUnder
    (groups : PairingGroups)
    (keys : List BlsPublicKey) : VerificationSession → Prop where
  | start
      {drive : PublicKey}
      {trigger : Digest}
      {provers : List PublicKey}
      {session : VerificationSession}
      (hStart : start drive trigger provers = .ok session) :
      SignedUnder groups keys session
  | addSigned
      {session : VerificationSession}
      (opinion : Opinion)
      (hSession : SignedUnder groups keys session) :
      SignedUnder groups keys
        (session.addSigned groups keys opinion).2

/- What is signed is added if the keys fit and it verifies. -/
theorem addSigned_kept
    (groups : PairingGroups)
    (keys : List BlsPublicKey)
    (opinion : Opinion)
    (session : VerificationSession) :
    (session.addSigned groups keys opinion).2 = session ∨
      keys.length = session.provers.length ∧
        verifies groups keys opinion ∧
        session.addSigned groups keys opinion =
          session.add opinion := by
  unfold addSigned checkKeyCount
  cases hCheck : session.check opinion with
  | error cause => exact .inl rfl
  | ok _ =>
      by_cases hCount : keys.length = session.provers.length
      · rw [if_pos hCount]
        by_cases hVerifies : verifies groups keys opinion
        · right
          refine ⟨hCount, hVerifies, ?_⟩
          simp only [ok_bind, if_pos hVerifies]
        · left
          simp only [ok_bind, if_neg hVerifies]
      · left
        rw [if_neg hCount]
        rfl

namespace SignedUnder

theorem reachable
    (hSigned : SignedUnder groups keys session) :
    Reachable groups session := by
  induction hSigned with
  | start hStart => exact .start hStart
  | addSigned opinion hSession ih =>
      exact .addSigned keys opinion ih

/- Every opinion verifies, and the keys are as many as needed. -/
theorem all_verify
    (hSigned : SignedUnder groups keys session) :
    ∀ opinion ∈ session.opinions.values,
      verifies groups keys opinion ∧
        keys.length = session.provers.length := by
  induction hSigned with
  | start hStart =>
      rcases start_eq_ok_iff.mp hStart with ⟨-, -, rfl⟩
      exact List.forall_mem_nil _
  | addSigned opinion hSession ih =>
      rename_i session
      rcases addSigned_kept groups keys opinion session with
        hSame | ⟨hCount, hVerifies, hAdd⟩
      · rw [hSame]
        exact ih
      · rw [hAdd, add_snd]
        intro other hMem
        rcases List.mem_map.mp hMem with ⟨entry, hEntry, rfl⟩
        split at hEntry
        · rcases OrderedMap.mem_insertNew hEntry with
            hNew | hOld
          · rw [hNew]
            exact ⟨hVerifies, hCount⟩
          · exact ih _ (List.mem_map_of_mem hOld)
        · exact ih _ (List.mem_map_of_mem hEntry)

end SignedUnder

------------------------------------------------------------
-- Checking Once More
------------------------------------------------------------

/- If every opinion verifies, no verifier is to blame. -/
theorem verifySignatures_of_all_verify
    (hCount : keys.length = session.provers.length)
    (hVerify :
      ∀ opinion ∈ session.opinions.values,
        verifies groups keys opinion)
    (hFails : session.verifySignatures groups keys ≠ .ok ()) :
    session.verifySignatures groups keys =
      .error (.invalidAggregate session.opinions.size) := by
  have hNobody :
      session.opinions.values.find?
          (!verifies groups keys ·) = none := by
    rw [List.find?_eq_none]
    intro opinion hMem
    simp [hVerify opinion hMem]
  unfold verifySignatures checkKeyCount at hFails ⊢
  rw [if_pos hCount, ok_bind] at hFails ⊢
  dsimp only at hFails ⊢
  split
  · rename_i hAll
    rw [if_pos hAll] at hFails
    exact absurd rfl hFails
  · rw [hNobody]

/-
  When all opinions were accepted as signed, with the same
  keys, every one of them verifies on its own.  The signatures
  then pass all together unless the keys are not as many as
  the provers, which means that there is no opinion yet, or
  the keys of verifiers with the same results add up to zero.
-/
theorem verifySignatures_of_signed
    {Target : Type}
    [CommGroup Target]
    (laws : PairingLaws groups Target)
    (hSigned : SignedUnder groups keys session) :
    (∀ opinion ∈ session.opinions.values,
      verifies groups keys opinion ∧
        keys.length = session.provers.length) ∧
    session.verifySignatures groups keys =
      if keys.length = session.provers.length then
        if ∀ opinion ∈ session.opinions.values,
            groups.keyIsZero
              (Opinion.keySum groups keys
                (session.agreeing opinion)) = false then
          .ok ()
        else
          .error (.invalidAggregate session.opinions.size)
      else
        .error
          (.keyCountMismatch session.provers.length
            keys.length) := by
  have hAll := hSigned.all_verify
  refine ⟨hAll, ?_⟩
  have hVerify := fun opinion hMem => (hAll opinion hMem).1
  have hSession := hSigned.reachable.wellFormed
  by_cases hCount : keys.length = session.provers.length
  · rw [if_pos hCount]
    have hPasses :
        session.verifySignatures groups keys = .ok () ↔
          ∀ opinion ∈ session.opinions.values,
            groups.keyIsZero
              (Opinion.keySum groups keys
                (session.agreeing opinion)) = false := by
      rw [hSession.verifySignatures_iff_balanced laws keys,
        and_iff_right hCount]
      refine forall₂_congr fun opinion hMem => ?_
      apply laws.balanced_iff_of_all_verify
      · exact fun other hOther =>
          (mem_agreeing.mp hOther).2
      · exact fun other hOther =>
          hVerify other (mem_agreeing.mp hOther).1
    split
    · rename_i hSums
      exact hPasses.mpr hSums
    · rename_i hSums
      exact verifySignatures_of_all_verify hCount hVerify
        fun hOk => hSums (hPasses.mp hOk)
  · rw [if_neg hCount]
    unfold verifySignatures checkKeyCount
    rw [if_neg hCount]
    rfl

------------------------------------------------------------
-- Two Verifiers
------------------------------------------------------------

/- The round after both agreed and were checked at once. -/
def checkedByTwo
    (groups : PairingGroups)
    (first second : Nat) : VerificationSession :=
  let keys := keysOfTwo groups first second
  let one :=
    (unheardTwo.addSigned groups keys
      (signedPass groups first 0)).2
  (one.addSigned groups keys (signedPass groups second 1)).2

theorem checkedByTwo_signed
    (groups : PairingGroups)
    (first second : Nat) :
    SignedUnder groups (keysOfTwo groups first second)
      (checkedByTwo groups first second) := by
  have hStart :
      start (.zero 32) (.zero 32) [.zero 32, .zero 32] =
        .ok unheardTwo := rfl
  exact .addSigned _ (.addSigned _ (.start hStart))

/- Two keys that do not cancel pass. -/
theorem verifySignatures_of_signed_two :
    let session := checkedByTwo Residues.groups 1 2
    let keys := keysOfTwo Residues.groups 1 2
    SignedUnder Residues.groups keys session ∧
      session.opinions.size = 2 ∧
      session.verifySignatures Residues.groups keys =
        .ok () := by
  intro session keys
  have hSigned : SignedUnder Residues.groups keys session :=
    checkedByTwo_signed Residues.groups 1 2
  refine ⟨hSigned, by decide +kernel, ?_⟩
  have hCount : keys.length = session.provers.length := rfl
  have hSums :
      ∀ opinion ∈ session.opinions.values,
        Residues.groups.keyIsZero
          (Opinion.keySum Residues.groups keys
            (session.agreeing opinion)) = false := by
    decide +kernel
  have hResult :=
    (verifySignatures_of_signed Residues.laws hSigned).2
  rw [if_pos hCount, if_pos hSums] at hResult
  exact hResult

/-
  Two keys that are each other's opposite do not: both
  opinions are accepted, but they have no aggregate.
-/
theorem verifySignatures_opposite :
    let session := checkedByTwo Residues.groups 1 6
    let keys := keysOfTwo Residues.groups 1 6
    SignedUnder Residues.groups keys session ∧
      keys.length = session.provers.length ∧
      (∀ opinion ∈ session.opinions.values,
        verifies Residues.groups keys opinion) ∧
      session.verifySignatures Residues.groups keys =
        .error (.invalidAggregate 2) := by
  intro session keys
  refine ⟨checkedByTwo_signed Residues.groups 1 6, rfl,
    ?_, ?_⟩
  · decide +kernel
  · decide +kernel

end VerificationSession

end DriveMarket
