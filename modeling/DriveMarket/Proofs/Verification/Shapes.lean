import DriveMarket.Json.Transactions
import DriveMarket.Proofs.Verification.Packaging

/-
  What it says of a round that its opinions line up.

  Lining up is a matter of lengths.  It leaves open whose the
  opinions are and which provers their results name, so that
  two opinions of one verifier line up as well as those of
  two.  A session looks at the indices, and its rounds have an
  opinion of every prover about all of them in order.

  Key definitions include:
    * `VerificationRound.Faithful`

  Correctness is proven by:
    * `VerificationRound.read_form_eq_ok_iff`
    * `VerificationRound.nodup_iff_counts`
    * `VerificationRound.faithful_of_toRound`
    * `VerificationRound.accepted_iff_lengths`
-/

namespace DriveMarket

namespace VerificationRound

variable {round : VerificationRound}

/-
  Every prover is the verifier of exactly one opinion, and
  every opinion has one result for each of them in order.
-/
structure Faithful
    (round : VerificationRound) : Prop where
  verifiers :
    ∀ i < round.provers.length,
      round.opinions.countP (·.verifier.toNat = i) = 1
  results :
    ∀ opinion ∈ round.opinions,
      opinion.results.map (·.prover.toNat) =
        List.range round.provers.length

------------------------------------------------------------
-- Acceptance
------------------------------------------------------------

theorem make_eq_ok_iff
    {drive : PublicKey}
    {trigger : Digest}
    {provers : List PublicKey}
    {opinions : List Opinion} :
    make drive trigger provers opinions = .ok round ↔
      round = ⟨drive, trigger, provers, opinions⟩ ∧
        round.validate = .ok () := by
  unfold make
  rw [bind_eq_ok_iff]
  constructor
  · intro hMade
    rcases hMade with ⟨_, hShapes, hPure⟩
    cases hPure
    exact ⟨rfl, hShapes⟩
  · intro hBoth
    rcases hBoth with ⟨rfl, hShapes⟩
    exact ⟨(), hShapes, rfl⟩

/- What is read from JSON has been made. -/
theorem read_form_eq_ok_iff
    {value : JsonValue} :
    form.read value = .ok round ↔
      fields.form.read value = .ok round ∧
        round.validate = .ok () := by
  unfold form JsonForm.checked
  rw [bind_eq_ok_iff]
  constructor
  · intro hRead
    rcases hRead with ⟨item, hItem, hMade⟩
    rw [mapError_eq_ok_iff, make_eq_ok_iff] at hMade
    rcases hMade with ⟨rfl, hValid⟩
    exact ⟨hItem, hValid⟩
  · intro hBoth
    refine ⟨round, hBoth.1, ?_⟩
    rw [mapError_eq_ok_iff, make_eq_ok_iff]
    exact ⟨rfl, hBoth.2⟩

------------------------------------------------------------
-- One Opinion for Each
------------------------------------------------------------

/-
  As many indices as provers are one of each if they are in
  range and differ.
-/
theorem nodup_iff_counts
    {indices : List Nat}
    {n : Nat}
    (hLength : indices.length = n) :
    (∀ i < n, indices.count i = 1) ↔
      indices.Nodup ∧ ∀ i ∈ indices, i < n := by
  constructor
  · intro hOnce
    have hAll : List.range n ⊆ indices := by
      intro i hIndex
      apply List.count_pos_iff.mp
      rw [hOnce i (List.mem_range.mp hIndex)]
      exact Nat.one_pos
    have hPerm : (List.range n).Perm indices := by
      apply (List.subperm_of_subset List.nodup_range
        hAll).perm_of_length_le
      rw [hLength, List.length_range]
    refine ⟨hPerm.nodup_iff.mp List.nodup_range, ?_⟩
    intro i hIndex
    exact List.mem_range.mp (hPerm.mem_iff.mpr hIndex)
  · intro hBoth i hIndex
    rcases hBoth with ⟨hNodup, hRange⟩
    have hAmong : indices ⊆ List.range n := by
      intro j hMem
      exact List.mem_range.mpr (hRange j hMem)
    have hPerm : indices.Perm (List.range n) := by
      apply (List.subperm_of_subset hNodup
        hAmong).perm_of_length_le
      rw [hLength, List.length_range]
    apply List.count_eq_one_of_mem hNodup
    exact hPerm.mem_iff.mpr (List.mem_range.mpr hIndex)

theorem countP_verifier
    (opinions : List Opinion)
    (i : Nat) :
    opinions.countP (·.verifier.toNat = i) =
      (opinions.map (·.verifier.toNat)).count i := by
  rw [List.count, List.countP_map]
  apply List.countP_congr
  intro opinion _
  simp

/- The rounds of sessions are faithful. -/
theorem faithful_of_toRound
    {groups : PairingGroups}
    {session : VerificationSession}
    (hReachable : session.Reachable groups)
    (hRound : session.toRound = .ok round) :
    round.Faithful := by
  have hSession := hReachable.wellFormed
  have hVerifiers := hSession.opinions_of_toRound hRound
  rcases VerificationSession.toRound_eq_ok_iff.mp hRound with
    ⟨-, rfl⟩
  constructor
  · intro i hIndex
    rw [countP_verifier, hVerifiers]
    exact List.count_eq_one_of_mem List.nodup_range
      (List.mem_range.mpr hIndex)
  · intro opinion hMem
    have hGet := hSession.get?_verifier hMem
    exact (hSession.of_get? hGet).2.2

/-
  A round is accepted for its lengths.  It is faithful if, in
  addition, a session for its provers finds no fault with any
  of its opinions, and no two are of one verifier.
-/
theorem accepted_iff_lengths
    (round : VerificationRound) :
    (round.validate = .ok () ↔
      round.provers ≠ [] ∧
        round.opinions.length = round.provers.length ∧
        ∀ opinion ∈ round.opinions,
          opinion.results.length = round.provers.length) ∧
    (make round.drive round.trigger round.provers
        round.opinions = .ok round ↔
      round.validate = .ok ()) ∧
    (∀ value,
      form.read value = .ok round ↔
        fields.form.read value = .ok round ∧
          round.validate = .ok ()) ∧
    (round.validate = .ok () →
      ∀ session : VerificationSession,
        session.provers = round.provers →
        (round.Faithful ↔
          (round.opinions.map (·.verifier)).Nodup ∧
            ∀ opinion ∈ round.opinions,
              session.check opinion = .ok ())) := by
  refine ⟨?_, ?_, fun value => read_form_eq_ok_iff, ?_⟩
  · rw [validate, checkShapes_eq_ok_iff, ne_eq,
      List.length_eq_zero_iff]
  · rw [make_eq_ok_iff]
    exact and_iff_right rfl
  · intro hValid session hProvers
    rw [validate, checkShapes_eq_ok_iff] at hValid
    have hLength :
        (round.opinions.map (·.verifier.toNat)).length =
          round.provers.length :=
      (List.length_map _).trans hValid.2.1
    have hNodup :
        (round.opinions.map (·.verifier.toNat)).Nodup ↔
          (round.opinions.map (·.verifier)).Nodup := by
      rw [← List.nodup_map_iff fun _ _ => UInt16.toNat.inj,
        List.map_map]
      rfl
    have hCounts := nodup_iff_counts hLength
    simp only [← countP_verifier, hNodup, List.forall_mem_map]
      at hCounts
    simp only [VerificationSession.check_eq_ok_iff,
      VerificationSession.Fits, hProvers]
    constructor
    · intro hFaithful
      have hOnce := hCounts.mp hFaithful.verifiers
      exact ⟨hOnce.1, fun opinion hMem =>
        ⟨hOnce.2 opinion hMem,
          hFaithful.results opinion hMem⟩⟩
    · intro hBoth
      rcases hBoth with ⟨hDistinct, hFits⟩
      constructor
      · exact hCounts.mpr ⟨hDistinct, fun opinion hMem =>
          (hFits opinion hMem).1⟩
      · exact fun opinion hMem => (hFits opinion hMem).2

/-
  Two provers, of whom the first is the verifier of both
  opinions; one of these is about the second prover twice.
-/
theorem accepted_not_faithful :
    let provers : List PublicKey := [.zero 32, .zero 32]
    let opinions :=
      [VerificationSession.passing 0 [0, 1],
        VerificationSession.passing 0 [1, 1]]
    ∃ round,
      make (.zero 32) (.zero 32) provers opinions =
          .ok round ∧
        round.validate = .ok () ∧
        form.read (form.write round) = .ok round ∧
        ¬ round.Faithful := by
  intro provers opinions
  let round : VerificationRound :=
    ⟨.zero 32, .zero 32, provers, opinions⟩
  have hValid : round.validate = .ok () := rfl
  refine ⟨round, make_eq_ok_iff.mpr ⟨rfl, hValid⟩, hValid,
    ?_, ?_⟩
  · decide +kernel
  · intro hFaithful
    have hSecond := hFaithful.verifiers 1 (by decide)
    cases hSecond

end VerificationRound

end DriveMarket
