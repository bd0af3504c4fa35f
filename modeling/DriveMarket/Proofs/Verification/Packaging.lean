import DriveMarket.Proofs.Ordered.Keys
import DriveMarket.Proofs.Verification.Collecting
import Mathlib.Data.List.Sort

/-
  When a round is complete, and what it is packaged as.

  The verifiers that were heard are in increasing order and
  all below the number of provers.  So there are as many of
  them as provers only if they are exactly `0, 1, 2, ...`:
  counting the opinions, listing the missing verifiers and
  packaging the round agree on completeness.

  Key definitions include:
    * `VerificationSession.heard`
    * `VerificationSession.Sound`

  Correctness is proven by:
    * `checkShapes_eq_ok_iff`
    * `VerificationSession.WellFormed.heard_sublist`
    * `VerificationSession.WellFormed.isComplete_iff_heard`
    * `VerificationSession.sound_of_reachable`
-/

namespace DriveMarket

/- What it means that opinions line up with some provers. -/
theorem checkShapes_eq_ok_iff
    {provers : Nat}
    {opinions : List Opinion} :
    checkShapes provers opinions = .ok () ↔
      provers ≠ 0 ∧
        opinions.length = provers ∧
        ∀ opinion ∈ opinions,
          opinion.results.length = provers := by
  unfold checkShapes
  by_cases hNone : provers = 0
  · simp [hNone]
  rw [if_neg hNone]
  by_cases hCount : opinions.length = provers
  · rw [if_neg fun hOther => hOther hCount]
    cases hFind :
        opinions.find? (·.results.length != provers) with
    | none => simpa [hNone, hCount] using hFind
    | some opinion =>
        have hMem := List.mem_of_find?_eq_some hFind
        have hOther := List.find?_some hFind
        simp only [bne_iff_ne] at hOther
        simp only [reduceCtorEq, false_iff]
        rintro ⟨-, -, hAll⟩
        exact hOther (hAll opinion hMem)
  · rw [if_pos hCount]
    simp [hCount]

namespace VerificationSession

variable {groups : PairingGroups}
variable {session : VerificationSession}
variable {opinion : Opinion}

------------------------------------------------------------
-- Who Was Heard
------------------------------------------------------------

/- The verifiers whose opinions were accepted. -/
def heard
    (session : VerificationSession) : List Nat :=
  session.opinions.keys.map (·.toNat)

theorem length_heard
    (session : VerificationSession) :
    session.heard.length = session.opinions.size := by
  simp [heard, OrderedMap.keys, OrderedMap.size]

theorem heard_increasing
    (session : VerificationSession) :
    session.heard.Pairwise (· < ·) :=
  List.pairwise_map.mpr session.opinions.keys_increasing

theorem mem_heard_iff
    {verifier : UInt16} :
    verifier.toNat ∈ session.heard ↔
      session.opinions.contains verifier := by
  rw [← OrderedMap.mem_keys_iff, heard,
    List.mem_map_of_injective fun _ _ => UInt16.toNat.inj]

/- Nobody is missing when every index was heard. -/
theorem missingVerifiers_eq_nil_iff
    (hProvers : session.provers.length ≤ maxProvers) :
    session.missingVerifiers = [] ↔
      List.range session.provers.length ⊆ session.heard := by
  have hCount :
      (UInt16.ofNat session.provers.length).toNat =
        session.provers.length :=
    UInt16.toNat_ofNat_of_lt (Nat.lt_succ_of_le hProvers)
  unfold missingVerifiers
  dsimp only
  rw [hCount, List.filter_eq_nil_iff, List.forall_mem_map]
  refine forall₂_congr fun i hMem => ?_
  have hIndex : (UInt16.ofNat i).toNat = i :=
    UInt16.toNat_ofNat_of_lt
      (Nat.lt_succ_of_le
        (Nat.le_trans (List.mem_range.mp hMem).le hProvers))
  have hHeard := @mem_heard_iff session (UInt16.ofNat i)
  rw [hIndex] at hHeard
  rw [hHeard]
  simp

namespace WellFormed

/- What is kept under a verifier is an opinion of its own. -/
theorem of_get?
    {verifier : UInt16}
    (hSession : session.WellFormed)
    (hGet : session.opinions.get? verifier = some opinion) :
    opinion.verifier = verifier ∧ session.Fits opinion := by
  have hMem := OrderedMap.get?_eq_some_iff.mp hGet
  have hEntry := hSession (verifier, opinion) hMem
  exact ⟨hEntry.1, check_eq_ok_iff.mp hEntry.2⟩

theorem get?_verifier
    (hSession : session.WellFormed)
    (hMem : opinion ∈ session.opinions.values) :
    session.opinions.get? opinion.verifier = some opinion := by
  rcases List.mem_map.mp hMem with ⟨entry, hEntry, rfl⟩
  rw [(hSession entry hEntry).1]
  exact OrderedMap.get?_eq_some_iff.mpr hEntry

/- The verifiers of the opinions are those that were heard. -/
theorem map_verifier
    (hSession : session.WellFormed) :
    session.opinions.values.map (·.verifier.toNat) =
      session.heard := by
  unfold OrderedMap.values heard OrderedMap.keys
  rw [List.map_map, List.map_map]
  apply List.map_congr_left
  intro entry hMem
  exact congrArg UInt16.toNat (hSession entry hMem).1

/- Those who were heard are among the provers, in order. -/
theorem heard_sublist
    (hSession : session.WellFormed) :
    session.heard.Sublist
      (List.range session.provers.length) := by
  have hSubset :
      session.heard ⊆ List.range session.provers.length := by
    rw [← hSession.map_verifier, List.subset_def,
      List.forall_mem_map]
    intro opinion hMem
    exact List.mem_range.mpr (hSession.verifier_lt hMem)
  have hNodup : session.heard.Nodup :=
    session.heard_increasing.imp Nat.ne_of_lt
  exact List.sublist_of_subperm_of_pairwise
    (List.subperm_of_subset hNodup hSubset)
    session.heard_increasing List.pairwise_lt_range

/- As many as there are provers are all of them. -/
theorem isComplete_iff_heard
    (hSession : session.WellFormed) :
    session.isComplete ↔
      session.heard = List.range session.provers.length := by
  unfold isComplete
  rw [beq_iff_eq, ← length_heard]
  constructor
  · intro hCount
    apply hSession.heard_sublist.eq_of_length
    rw [hCount, List.length_range]
  · intro hHeard
    rw [hHeard, List.length_range]

/- So counting finds the round complete if nobody is missing. -/
theorem isComplete_iff_missing
    (hSession : session.WellFormed)
    (hProvers : session.provers.length ≤ maxProvers) :
    session.isComplete ↔ session.missingVerifiers = [] := by
  rw [hSession.isComplete_iff_heard,
    missingVerifiers_eq_nil_iff hProvers]
  constructor
  · intro hHeard
    rw [hHeard]
    exact List.Subset.refl _
  · intro hSubset
    -- A sublist that is no shorter than the whole is the whole.
    apply hSession.heard_sublist.eq_of_length_le
    exact (List.subperm_of_subset List.nodup_range
      hSubset).length_le

end WellFormed

------------------------------------------------------------
-- Packaging
------------------------------------------------------------

theorem toRound_eq_ok_iff
    {round : VerificationRound} :
    session.toRound = .ok round ↔
      checkShapes session.provers.length
          session.opinions.values = .ok () ∧
        round =
          ⟨session.drive, session.trigger, session.provers,
            session.opinions.values⟩ := by
  unfold toRound VerificationRound.make
  rw [mapError_eq_ok_iff, bind_eq_ok_iff]
  constructor
  · rintro ⟨_, hShapes, hPure⟩
    cases hPure
    exact ⟨hShapes, rfl⟩
  · rintro ⟨hShapes, rfl⟩
    exact ⟨(), hShapes, rfl⟩

/- A round that lacks opinions says how many there are. -/
theorem toRound_of_not_complete
    (hProvers : session.provers ≠ [])
    (hComplete : ¬ session.isComplete) :
    session.toRound =
      .error
        (.model
          (.shapeMismatch .opinionCount
            session.provers.length
            session.opinions.size)) := by
  have hCount :
      session.opinions.values.length = session.opinions.size :=
    List.length_map _
  have hOther :
      session.opinions.size ≠ session.provers.length := by
    simpa [isComplete] using hComplete
  unfold toRound VerificationRound.make checkShapes
  rw [if_neg (mt List.length_eq_zero_iff.mp hProvers),
    hCount, if_pos hOther]
  rfl

namespace WellFormed

/- A complete round lines up. -/
theorem exists_toRound_iff
    (hSession : session.WellFormed)
    (hProvers : session.provers ≠ []) :
    session.isComplete ↔
      ∃ round, session.toRound = .ok round := by
  constructor
  · intro hComplete
    refine ⟨_, toRound_eq_ok_iff.mpr ⟨?_, rfl⟩⟩
    rw [checkShapes_eq_ok_iff]
    refine ⟨mt List.length_eq_zero_iff.mp hProvers, ?_, ?_⟩
    · unfold isComplete at hComplete
      rw [← beq_iff_eq.mp hComplete]
      exact List.length_map _
    · intro opinion hMem
      exact hSession.length_results hMem
  · rintro ⟨round, hRound⟩
    by_contra hComplete
    rw [toRound_of_not_complete hProvers hComplete] at hRound
    cases hRound

/- Its opinions are those of the verifiers, in order. -/
theorem opinions_of_toRound
    {round : VerificationRound}
    (hSession : session.WellFormed)
    (hRound : session.toRound = .ok round) :
    round.opinions.map (·.verifier.toNat) =
      List.range session.provers.length := by
  rcases toRound_eq_ok_iff.mp hRound with ⟨hShapes, rfl⟩
  have hCount := (checkShapes_eq_ok_iff.mp hShapes).2.1
  rw [hSession.map_verifier,
    ← hSession.isComplete_iff_heard, isComplete, beq_iff_eq,
    ← hCount]
  exact (List.length_map _).symm

end WellFormed

------------------------------------------------------------
-- Reachable Sessions
------------------------------------------------------------

theorem addSigned_provers
    (keys : List BlsPublicKey)
    (opinion : Opinion)
    (session : VerificationSession) :
    (session.addSigned groups keys opinion).2.provers =
      session.provers := by
  rcases addSigned_cases groups keys opinion session with
    hSame | hAdd
  · rw [hSame]
  · rw [hAdd, add_snd]

/- There are provers, and indices for all of them. -/
theorem Reachable.provers_bounds
    (hReachable : Reachable groups session) :
    session.provers ≠ [] ∧
      session.provers.length ≤ maxProvers := by
  induction hReachable with
  | start hStart =>
      rcases start_eq_ok_iff.mp hStart with
        ⟨hSome, hMost, rfl⟩
      exact ⟨hSome, hMost⟩
  | add opinion hSession ih =>
      rw [add_snd]
      exact ih
  | addSigned keys opinion hSession ih =>
      rw [addSigned_provers]
      exact ih

/-
  What a session is, whichever opinions were offered to it.
-/
structure Sound
    (groups : PairingGroups)
    (session : VerificationSession) : Prop where
  bounds :
    1 ≤ session.provers.length ∧
      session.provers.length ≤ 65535
  /- Opinions are kept under their own verifiers, and fit. -/
  opinions :
    ∀ verifier opinion,
      session.opinions.get? verifier = some opinion →
      opinion.verifier = verifier ∧
        verifier.toNat < session.provers.length ∧
        opinion.results.length = session.provers.length ∧
        opinion.results.map (·.prover.toNat) =
          List.range session.provers.length
  /- What is refused leaves no trace. -/
  refused :
    ∀ opinion cause,
      (session.add opinion).1 = .error cause →
      (session.add opinion).2 = session
  refused_signed :
    ∀ keys opinion cause,
      (session.addSigned groups keys opinion).1 =
        .error cause →
      (session.addSigned groups keys opinion).2 = session
  /- Counting, listing and packaging agree. -/
  missing_iff :
    session.isComplete ↔ session.missingVerifiers = []
  round_iff :
    session.isComplete ↔
      ∃ round, session.toRound = .ok round
  /- A round has the opinion of each prover at its place. -/
  packaged :
    ∀ round,
      session.toRound = .ok round →
      round.drive = session.drive ∧
        round.trigger = session.trigger ∧
        round.provers = session.provers ∧
        round.opinions.length = session.provers.length ∧
        (∀ i < session.provers.length,
          ∃ opinion,
            round.opinions[i]? = some opinion ∧
              opinion.verifier.toNat = i ∧
              session.opinions.get? opinion.verifier =
                some opinion) ∧
        round.validate = .ok ()
  incomplete :
    ¬ session.isComplete →
    session.toRound =
      .error
        (.model
          (.shapeMismatch .opinionCount
            session.provers.length session.opinions.size))

/- Every reachable session is sound. -/
theorem sound_of_reachable
    (hReachable : Reachable groups session) :
    session.Sound groups := by
  have hSession := hReachable.wellFormed
  rcases hReachable.provers_bounds with ⟨hSome, hMost⟩
  constructor
  case bounds =>
    exact ⟨List.length_pos_iff.mpr hSome, hMost⟩
  case opinions =>
    intro verifier opinion hGet
    rcases hSession.of_get? hGet with ⟨rfl, hFits⟩
    exact ⟨rfl, hFits.1, hFits.length_results, hFits.2⟩
  case refused => exact fun _ _ => add_error
  case refused_signed => exact fun _ _ _ => addSigned_error
  case missing_iff =>
    exact hSession.isComplete_iff_missing hMost
  case round_iff => exact hSession.exists_toRound_iff hSome
  case packaged =>
    intro round hRound
    have hInOrder := hSession.opinions_of_toRound hRound
    rcases toRound_eq_ok_iff.mp hRound with ⟨hShapes, rfl⟩
    have hCount := (checkShapes_eq_ok_iff.mp hShapes).2.1
    refine ⟨rfl, rfl, rfl, hCount, ?_, hShapes⟩
    intro i hIndex
    have hBound : i < session.opinions.values.length :=
      hCount ▸ hIndex
    refine ⟨session.opinions.values[i],
      List.getElem?_eq_getElem hBound, ?_, ?_⟩
    · have hVerifier := List.getElem_of_eq hInOrder
        (i := i) (by rw [List.length_map]; exact hBound)
      simpa using hVerifier
    · exact hSession.get?_verifier (List.getElem_mem hBound)
  case incomplete => exact toRound_of_not_complete hSome

/-
  Two provers, heard in the wrong order.  In between the first
  one is missing and is refused, as there are no keys.
-/
theorem sound_of_reachable_two :
    let groups := Bls12381.groups
    let one := (unheardTwo.add (passing 1 [0, 1])).2
    let still := one.addSigned groups [] (passing 0 [0, 1])
    let both := (still.2.add (passing 0 [0, 1])).2
    Reachable groups one ∧
      Reachable groups both ∧
      still = (.error (.keyCountMismatch 2 0), one) ∧
      one.missingVerifiers = [0] ∧
      one.toRound =
        .error (.model (.shapeMismatch .opinionCount 2 1)) ∧
      both.missingVerifiers = [] ∧
      ∃ round,
        both.toRound = .ok round ∧
          round.opinions =
            [passing 0 [0, 1], passing 1 [0, 1]] ∧
          round.validate = .ok () := by
  intro groups one still both
  have hStart :
      start (.zero 32) (.zero 32) [.zero 32, .zero 32] =
        .ok unheardTwo := rfl
  have hOne : Reachable groups one :=
    .add _ (.start hStart)
  have hBoth : Reachable groups both :=
    .add _ (.addSigned _ _ hOne)
  have hSound := sound_of_reachable hBoth
  have hComplete : both.isComplete := by decide +kernel
  rcases hSound.round_iff.mp hComplete with ⟨round, hRound⟩
  rcases hSound.packaged round hRound with
    ⟨-, -, -, -, -, hValid⟩
  refine ⟨hOne, hBoth, ?_, ?_, ?_,
    hSound.missing_iff.mp hComplete, round, hRound, ?_,
    hValid⟩
  · decide +kernel
  · decide +kernel
  · apply (sound_of_reachable hOne).incomplete
    decide +kernel
  · rw [(toRound_eq_ok_iff.mp hRound).2]
    decide +kernel

end VerificationSession

end DriveMarket
