import DriveMarket.Proofs.Ordered.FirstWins
import DriveMarket.Proofs.Verification.Session

/-
  Opinions may arrive in any order.

  Whether an opinion fits a round depends on the number of its
  provers alone, and that never changes.  Of each verifier the
  first opinion that fits is kept.

  Key definitions include:
    * `VerificationSession.addEach`
    * `VerificationSession.OpineOnce`

  Correctness is proven by:
    * `VerificationSession.addEach_eq`
    * `VerificationSession.get?_addEach`
    * `VerificationSession.addEach_first_wins`
-/

namespace DriveMarket

namespace VerificationSession

variable {session : VerificationSession}
variable {opinion : Opinion}

------------------------------------------------------------
-- Many Opinions
------------------------------------------------------------

/- Add each opinion, passing over those that are refused. -/
def addEach :
    List Opinion →
    VerificationSession →
    VerificationSession
  | [], session => session
  | opinion :: rest, session =>
      addEach rest (session.add opinion).2

/- The first opinion of each verifier that fits is collected. -/
theorem addEach_eq
    (opinions : List Opinion)
    (session : VerificationSession) :
    session.addEach opinions =
      { session with
        opinions :=
          session.opinions.collect
            (fun opinion => session.Fits opinion)
            (·.verifier) id opinions } := by
  induction opinions generalizing session with
  | nil => rfl
  | cons opinion rest ih =>
      unfold addEach OrderedMap.collect
      rw [ih, add_snd]
      simp only [decide_eq_true_eq]
      rfl

theorem get?_addEach
    (opinions : List Opinion)
    (session : VerificationSession)
    (verifier : UInt16) :
    (session.addEach opinions).opinions.get? verifier =
      (session.opinions.get? verifier).or
        (opinions.find? fun opinion =>
          opinion.verifier = verifier ∧
            session.Fits opinion) := by
  rw [addEach_eq]
  simp [OrderedMap.get?_collect]

/- What fits a round does not depend on its opinions. -/
theorem check_addEach
    (opinions : List Opinion)
    (session : VerificationSession) :
    (session.addEach opinions).check opinion =
      session.check opinion := by
  rw [addEach_eq]
  rfl

theorem fits_addEach
    {opinions : List Opinion} :
    (session.addEach opinions).Fits opinion ↔
      session.Fits opinion := by
  rw [← check_eq_ok_iff, ← check_eq_ok_iff, check_addEach]

/- No verifier has two different opinions that fit. -/
def OpineOnce
    (session : VerificationSession)
    (opinions : List Opinion) : Prop :=
  ∀ a ∈ opinions, ∀ b ∈ opinions,
    a.verifier = b.verifier →
    session.Fits a →
    session.Fits b →
    a = b

/- Then it does not matter which one comes first. -/
theorem addEach_congr
    {first second : List Opinion}
    (hSame : ∀ o, o ∈ first ↔ o ∈ second)
    (hOnce : session.OpineOnce first) :
    session.addEach first = session.addEach second := by
  rw [addEach_eq, addEach_eq]
  congr 1
  apply OrderedMap.collect_congr _ hSame
  intro a hMem b hMem' hVerifier hFits hFits'
  rw [decide_eq_true_eq] at hFits hFits'
  exact hOnce a hMem b hMem' hVerifier hFits hFits'

/-
  Opinions that are added one by one leave, for each verifier,
  the one that was there or else the first one that fits, and
  nothing replaces it later.  Each one that fits is new, the
  same again, or in conflict with the one that is there; what
  does not fit is refused without a trace.  If no verifier has
  two that differ and fit, neither order nor repetition makes a
  difference, to the session or to the round it is packaged as.
-/
theorem addEach_first_wins
    (session : VerificationSession)
    (first : List Opinion) :
    let now := session.addEach first
    (∀ verifier,
      now.opinions.get? verifier =
        (session.opinions.get? verifier).or
          (first.find? fun opinion =>
            opinion.verifier = verifier ∧
              session.Fits opinion)) ∧
    (∀ verifier accepted later,
      now.opinions.get? verifier = some accepted →
      (now.addEach later).opinions.get? verifier =
        some accepted) ∧
    (∀ opinion,
      session.Fits opinion →
      (now.opinions.get? opinion.verifier = none →
        (now.add opinion).1 = .ok true) ∧
      (now.opinions.get? opinion.verifier = some opinion →
        (now.add opinion).1 = .ok false) ∧
      (∀ accepted,
        accepted ≠ opinion →
        now.opinions.get? opinion.verifier = some accepted →
        (now.add opinion).1 =
          .error (.conflictingOpinion opinion.verifier))) ∧
    (∀ opinion,
      ¬ session.Fits opinion →
      ∃ cause,
        session.check opinion = .error cause ∧
          now.add opinion = (.error cause, now)) ∧
    (∀ second,
      (∀ o, o ∈ first ↔ o ∈ second) →
      session.OpineOnce first →
      now = session.addEach second ∧
        now.toRound = (session.addEach second).toRound) := by
  intro now
  refine ⟨?_, ?_, ?_, ?_, ?_⟩
  · exact get?_addEach first session
  · intro verifier accepted later hHeld
    rw [get?_addEach, hHeld, Option.some_or]
  · intro opinion hFits
    have hAdd := add_of_fits
      (fits_addEach.mpr hFits : now.Fits opinion)
    refine ⟨?_, ?_, ?_⟩
    · intro hNone
      rw [hAdd, hNone]
    · intro hHeld
      rw [hAdd, hHeld]
      simp
    · intro accepted hOther hHeld
      rw [hAdd, hHeld]
      simp [hOther]
  · intro opinion hFits
    have hNow : ¬ now.Fits opinion := fun hNow =>
      hFits (fits_addEach.mp hNow)
    rcases add_of_not_fits hNow with
      ⟨cause, hCheck, hAdd⟩
    exact ⟨cause, check_addEach first session ▸ hCheck, hAdd⟩
  · intro second hSame hOnce
    have hEqual : now = session.addEach second :=
      addEach_congr hSame hOnce
    exact ⟨hEqual, congrArg toRound hEqual⟩

/- An opinion whose results name some provers as passed. -/
def passing
    (verifier : UInt16)
    (provers : List UInt16) : Opinion :=
  { verifier := verifier
    signature := .zero 96
    results := provers.map (⟨·, true⟩) }

/-
  Two verifiers in either order; one of them also names the
  provers out of order, and repeats itself.
-/
theorem addEach_first_wins_two :
    let first :=
      [passing 1 [1, 0], passing 1 [0, 1], passing 0 [0, 1]]
    let second :=
      [passing 0 [0, 1], passing 1 [0, 1], passing 1 [0, 1],
        passing 1 [1, 0]]
    (∀ o, o ∈ first ↔ o ∈ second) ∧
      unheardTwo.OpineOnce first ∧
      (unheardTwo.addEach first).opinions.values =
        [passing 0 [0, 1], passing 1 [0, 1]] ∧
      unheardTwo.addEach first = unheardTwo.addEach second := by
  intro first second
  have hSame : ∀ o, o ∈ first ↔ o ∈ second := by
    intro o
    simp only [first, second, List.mem_cons]
    grind
  have hOnce : unheardTwo.OpineOnce first := by
    unfold OpineOnce
    decide +kernel
  rcases addEach_first_wins unheardTwo first with
    ⟨-, -, -, -, hAnyOrder⟩
  refine ⟨hSame, hOnce, ?_, (hAnyOrder second hSame hOnce).1⟩
  decide +kernel

end VerificationSession

end DriveMarket
