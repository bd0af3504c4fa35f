import DriveMarket.Proofs.Ordered.FirstWins
import DriveMarket.Proofs.Results
import DriveMarket.Verification.Session

/-
  What holds of every verification session that comes about
  by accepting opinions.

  Key definitions include:
    * `VerificationSession.Fits`
    * `VerificationSession.Reachable`
    * `VerificationSession.WellFormed`

  Correctness is proven by:
    * `opinionMessage_inj`
    * `VerificationSession.check_eq_ok_iff`
    * `VerificationSession.add_of_fits`
    * `VerificationSession.add_snd`
    * `VerificationSession.Reachable.wellFormed`
    * `VerificationSession.WellFormed.nodup_values`
-/

namespace DriveMarket

------------------------------------------------------------
-- Messages
------------------------------------------------------------

theorem LittleEndian.encode_inj
    {width m n : Nat}
    (hM : m < byteSpan width)
    (hN : n < byteSpan width)
    (hEqual : encode width m = encode width n) :
    m = n := by
  rw [← decode_encode hM, ← decode_encode hN, hEqual]

theorem VerificationResult.message_inj
    {a b : VerificationResult}
    (hEqual : a.message = b.message) : a = b := by
  rcases a with ⟨prover, passed⟩
  rcases b with ⟨prover', passed'⟩
  rcases List.append_inj' hEqual rfl with ⟨hProver, hPassed⟩
  have hBound : prover.toNat < byteSpan 2 := prover.toNat_lt
  have hBound' : prover'.toNat < byteSpan 2 :=
    prover'.toNat_lt
  have hNumber : prover.toNat = prover'.toNat :=
    LittleEndian.encode_inj hBound hBound' hProver
  have hSame : prover = prover' := UInt16.toNat.inj hNumber
  cases passed with
  | false =>
      cases passed' with
      | false => rw [hSame]
      | true => cases hPassed
  | true =>
      cases passed' with
      | false => cases hPassed
      | true => rw [hSame]

theorem VerificationResult.length_message
    (result : VerificationResult) :
    result.message.length = 3 := by
  simp [message]

theorem flatMap_message_inj
    {a b : List VerificationResult}
    (hLength : a.length = b.length)
    (hEqual : a.flatMap (·.message) = b.flatMap (·.message)) :
    a = b := by
  induction a generalizing b with
  | nil => exact (List.length_eq_zero_iff.mp hLength.symm).symm
  | cons x a ih =>
      cases b with
      | nil => cases hLength
      | cons y b =>
          rw [List.flatMap_cons, List.flatMap_cons] at hEqual
          have hWidth : x.message.length = y.message.length := by
            rw [x.length_message, y.length_message]
          rcases List.append_inj hEqual hWidth with
            ⟨hHead, hTail⟩
          rw [VerificationResult.message_inj hHead,
            ih (Nat.succ.inj hLength) hTail]

theorem length_opinionMessage
    (results : List VerificationResult) :
    (opinionMessage results).length =
      2 + 3 * results.length := by
  have hWidths :
      results.map (·.message.length) =
        results.map fun _ => 3 :=
    List.map_congr_left fun result _ => result.length_message
  rw [opinionMessage, List.length_append,
    LittleEndian.length_encode, List.length_flatMap, hWidths]
  simp [Nat.mul_comm]

/-
  Results with one message are the same results.  The count in
  front of them may have wrapped around, so it is the length
  of the message that tells how many there are.
-/
theorem opinionMessage_inj
    {a b : List VerificationResult}
    (hEqual : opinionMessage a = opinionMessage b) :
    a = b := by
  have hLengths := congrArg List.length hEqual
  rw [length_opinionMessage, length_opinionMessage]
    at hLengths
  have hLength : a.length = b.length := by
    omega
  rw [opinionMessage, opinionMessage, hLength] at hEqual
  exact flatMap_message_inj hLength
    (List.append_cancel_left hEqual)

namespace VerificationSession

variable {session : VerificationSession}
variable {opinion : Opinion}

------------------------------------------------------------
-- Opinions That Fit
------------------------------------------------------------

/-
  The verifier is one of the provers, and the results name
  every prover in order.
-/
def Fits
    (session : VerificationSession)
    (opinion : Opinion) : Prop :=
  opinion.verifier.toNat < session.provers.length ∧
    opinion.results.map (·.prover.toNat) =
      List.range session.provers.length

instance
    (session : VerificationSession)
    (opinion : Opinion) :
    Decidable (session.Fits opinion) :=
  inferInstanceAs (Decidable (_ ∧ _))

theorem Fits.length_results
    (hFits : session.Fits opinion) :
    opinion.results.length = session.provers.length := by
  have hCount := congrArg List.length hFits.2
  rwa [List.length_map, List.length_range] at hCount

theorem misplaced?_eq_none_iff
    {results : List VerificationResult} :
    misplaced? results = none ↔
      results.map (·.prover.toNat) =
        List.range results.length := by
  unfold misplaced?
  rw [List.find?_eq_none]
  constructor
  · intro hPlaced
    apply List.ext_getElem
    · simp
    · intro i hLeft hRight
      rw [List.length_map] at hLeft
      have hEntry := hPlaced (results[i], i)
        (List.mk_mem_zipIdx_iff_getElem?.mpr (by simp))
      simpa using hEntry
  · rintro hNamed ⟨result, i⟩ hMem
    have hGet := List.mk_mem_zipIdx_iff_getElem?.mp hMem
    rcases List.getElem?_eq_some_iff.mp hGet with
      ⟨hBound, rfl⟩
    have hEntry :=
      List.getElem_of_eq hNamed
        (i := i) (by rw [List.length_map]; exact hBound)
    simpa using hEntry

/- Exactly the opinions that fit pass the check. -/
theorem check_eq_ok_iff :
    session.check opinion = .ok () ↔ session.Fits opinion := by
  unfold check
  by_cases hRange :
      session.provers.length ≤ opinion.verifier.toNat
  · rw [if_pos hRange]
    constructor
    · intro hOk
      cases hOk
    · intro hFits
      exact absurd hFits.1 (Nat.not_lt_of_le hRange)
  rw [if_neg hRange]
  by_cases hLength :
      opinion.results.length = session.provers.length
  · rw [if_neg fun hOther => hOther hLength]
    have hPlaced := @misplaced?_eq_none_iff opinion.results
    rw [hLength] at hPlaced
    unfold Fits
    rw [← hPlaced]
    cases hMisplaced : misplaced? opinion.results with
    | none => simp [Nat.lt_of_not_le hRange]
    | some entry => simp
  · rw [if_pos hLength]
    constructor
    · intro hOk
      cases hOk
    · intro hFits
      exact absurd hFits.length_results hLength

------------------------------------------------------------
-- One Opinion
------------------------------------------------------------

/- What does not fit is told so, and changes nothing. -/
theorem add_of_not_fits
    (hFits : ¬ session.Fits opinion) :
    ∃ cause,
      session.check opinion = .error cause ∧
        session.add opinion = (.error cause, session) := by
  cases hCheck : session.check opinion with
  | error cause =>
      refine ⟨cause, rfl, ?_⟩
      unfold add
      rw [hCheck]
  | ok _ => exact absurd (check_eq_ok_iff.mp hCheck) hFits

/-
  An opinion that fits is new, no news, or in conflict with
  the one that its verifier has given before.
-/
theorem add_of_fits
    (hFits : session.Fits opinion) :
    session.add opinion =
      match session.opinions.get? opinion.verifier with
      | none =>
          (.ok true,
            { session with
              opinions :=
                session.opinions.insert opinion.verifier
                  opinion })
      | some accepted =>
          if accepted = opinion then
            (.ok false, session)
          else
            (.error (.conflictingOpinion opinion.verifier),
              session) := by
  unfold add
  rw [check_eq_ok_iff.mpr hFits]
  cases session.opinions.get? opinion.verifier with
  | none => rfl
  | some accepted => rfl

/- What is not accepted changes nothing. -/
theorem add_error
    {cause : VerificationError}
    (hError : (session.add opinion).1 = .error cause) :
    (session.add opinion).2 = session := by
  by_cases hFits : session.Fits opinion
  · rw [add_of_fits hFits] at hError ⊢
    cases hGet : session.opinions.get? opinion.verifier with
    | none =>
        rw [hGet] at hError
        cases hError
    | some accepted =>
        dsimp only
        split
        · rfl
        · rfl
  · rcases add_of_not_fits hFits with ⟨_, -, hSame⟩
    rw [hSame]

/- An opinion that fits is kept if its verifier has none yet. -/
theorem add_snd
    (opinion : Opinion)
    (session : VerificationSession) :
    (session.add opinion).2 =
      { session with
        opinions :=
          if session.Fits opinion then
            session.opinions.insertNew opinion.verifier
              opinion
          else
            session.opinions } := by
  by_cases hFits : session.Fits opinion
  · rw [if_pos hFits, add_of_fits hFits]
    unfold OrderedMap.insertNew OrderedMap.contains
    cases session.opinions.get? opinion.verifier with
    | none => rfl
    | some accepted =>
        dsimp only [Option.isSome]
        rw [if_pos rfl]
        split
        · rfl
        · rfl
  · rcases add_of_not_fits hFits with ⟨cause, -, hSame⟩
    rw [if_neg hFits, hSame]

/- A signed opinion is refused or offered like any other. -/
theorem addSigned_cases
    (groups : PairingGroups)
    (keys : List BlsPublicKey)
    (opinion : Opinion)
    (session : VerificationSession) :
    (session.addSigned groups keys opinion).2 = session ∨
      session.addSigned groups keys opinion =
        session.add opinion := by
  unfold addSigned
  cases (do
      session.check opinion
      session.checkKeyCount keys :
    Except VerificationError Unit) with
  | error cause => exact .inl rfl
  | ok _ =>
      by_cases hVerifies : verifies groups keys opinion
      · right
        simp only [if_pos hVerifies]
      · left
        simp only [if_neg hVerifies]

theorem addSigned_error
    {groups : PairingGroups}
    {keys : List BlsPublicKey}
    {cause : VerificationError}
    (hError :
      (session.addSigned groups keys opinion).1 =
        .error cause) :
    (session.addSigned groups keys opinion).2 = session := by
  rcases addSigned_cases groups keys opinion session with
    hSame | hAdd
  · exact hSame
  · rw [hAdd] at hError ⊢
    exact add_error hError

------------------------------------------------------------
-- Sessions
------------------------------------------------------------

/- A session starts with some provers, and not too many. -/
theorem start_eq_ok_iff
    {drive : PublicKey}
    {trigger : Digest}
    {provers : List PublicKey} :
    start drive trigger provers = .ok session ↔
      provers ≠ [] ∧
        provers.length ≤ maxProvers ∧
        session = ⟨drive, trigger, provers, .empty⟩ := by
  unfold start
  by_cases hEmpty : provers.isEmpty
  · rw [if_pos hEmpty]
    rw [List.isEmpty_iff] at hEmpty
    simp [hEmpty]
  rw [if_neg hEmpty]
  rw [List.isEmpty_iff] at hEmpty
  by_cases hMany : maxProvers < provers.length
  · rw [if_pos hMany]
    simp [Nat.not_le_of_lt hMany]
  · rw [if_neg hMany]
    simp [hEmpty, Nat.le_of_not_lt hMany, eq_comm]

/- A session that was started and then offered opinions. -/
inductive Reachable
    (groups : PairingGroups) : VerificationSession → Prop where
  | start
      {drive : PublicKey}
      {trigger : Digest}
      {provers : List PublicKey}
      {session : VerificationSession}
      (hStart : start drive trigger provers = .ok session) :
      Reachable groups session
  | add
      {session : VerificationSession}
      (opinion : Opinion)
      (hSession : Reachable groups session) :
      Reachable groups (session.add opinion).2
  | addSigned
      {session : VerificationSession}
      (keys : List BlsPublicKey)
      (opinion : Opinion)
      (hSession : Reachable groups session) :
      Reachable groups
        (session.addSigned groups keys opinion).2

/-
  Every opinion fits the round and is kept under its own
  verifier.
-/
def WellFormed
    (session : VerificationSession) : Prop :=
  ∀ entry ∈ session.opinions.entries,
    entry.2.verifier = entry.1 ∧
      session.check entry.2 = .ok ()

namespace WellFormed

theorem add
    (opinion : Opinion)
    (hSession : session.WellFormed) :
    (session.add opinion).2.WellFormed := by
  rw [add_snd]
  by_cases hFits : session.Fits opinion
  · rw [if_pos hFits]
    intro entry hMem
    rcases OrderedMap.mem_insertNew hMem with hNew | hOld
    · subst hNew
      exact ⟨rfl, check_eq_ok_iff.mpr hFits⟩
    · exact hSession entry hOld
  · rw [if_neg hFits]
    exact hSession

theorem addSigned
    {groups : PairingGroups}
    (keys : List BlsPublicKey)
    (opinion : Opinion)
    (hSession : session.WellFormed) :
    (session.addSigned groups keys opinion).2.WellFormed := by
  rcases addSigned_cases groups keys opinion session with
    hSame | hAdd
  · rw [hSame]
    exact hSession
  · rw [hAdd]
    exact hSession.add opinion

end WellFormed

/- Every reachable session is well-formed. -/
theorem Reachable.wellFormed
    {groups : PairingGroups}
    (hReachable : Reachable groups session) :
    session.WellFormed := by
  induction hReachable with
  | start hStart =>
      rcases start_eq_ok_iff.mp hStart with ⟨-, -, rfl⟩
      intro entry hMem
      cases hMem
  | add opinion hSession ih => exact ih.add opinion
  | addSigned keys opinion hSession ih =>
      exact ih.addSigned keys opinion

namespace WellFormed

theorem fits_of_mem
    (hSession : session.WellFormed)
    (hMem : opinion ∈ session.opinions.values) :
    session.Fits opinion := by
  rcases List.mem_map.mp hMem with ⟨entry, hEntry, rfl⟩
  exact check_eq_ok_iff.mp (hSession entry hEntry).2

/- An accepted opinion is one of a prover of the round. -/
theorem verifier_lt
    (hSession : session.WellFormed)
    (hMem : opinion ∈ session.opinions.values) :
    opinion.verifier.toNat < session.provers.length :=
  (hSession.fits_of_mem hMem).1

/- It has one result for each prover. -/
theorem length_results
    (hSession : session.WellFormed)
    (hMem : opinion ∈ session.opinions.values) :
    opinion.results.length = session.provers.length :=
  (hSession.fits_of_mem hMem).length_results

/- No opinion is accepted twice. -/
theorem nodup_values
    (hSession : session.WellFormed) :
    session.opinions.values.Nodup := by
  have hSorted := session.opinions.sorted
  rw [OrderedMap.values, List.Nodup, List.pairwise_map]
  apply List.Pairwise.imp_of_mem _ hSorted
  intro a b hA hB hLess hEqual
  have hKeyA := (hSession a hA).1
  have hKeyB := (hSession b hB).1
  rw [← hKeyA, ← hKeyB, hEqual] at hLess
  exact OrderedKey.irrefl _ hLess

end WellFormed

/- A round of two provers, before any opinion. -/
def unheardTwo : VerificationSession :=
  { drive := .zero 32
    trigger := .zero 32
    provers := [.zero 32, .zero 32]
    opinions := .empty }

end VerificationSession

end DriveMarket
