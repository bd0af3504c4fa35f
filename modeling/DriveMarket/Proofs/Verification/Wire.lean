import DriveMarket.Proofs.Transaction.Signing
import DriveMarket.Proofs.Verification.Packaging

/-
  A round is sent and taken up again.

  The opinions of a complete round are packaged, signed and
  written.  Nothing of them is lost on the way: whoever reads
  the transaction can offer its opinions, in any order, to a
  session of the same provers.  Each of them fits and is the
  only one of its verifier, so each is new when its turn comes,
  and in the end the session is the one that was packaged.

  Key definitions include:
    * `VerificationSession.unheard`

  Correctness is proven by:
    * `VerificationSession.WellFormed.addEach_perm`
    * `VerificationSession.WellFormed.add_new`
    * `VerificationSession.WellFormed.toTransaction_eq`
    * `VerificationSession.round_survives_sending`
-/

namespace DriveMarket

namespace VerificationSession

variable {groups : PairingGroups}
variable {session : VerificationSession}

------------------------------------------------------------
-- Opinions Offered Again
------------------------------------------------------------

/- A session as it was before any opinion. -/
def unheard
    (session : VerificationSession) : VerificationSession :=
  { session with opinions := .empty }

theorem Reachable.start_unheard
    (hReachable : Reachable groups session) :
    VerificationSession.start session.drive session.trigger
        session.provers =
      .ok session.unheard := by
  rcases hReachable.provers_bounds with ⟨hSome, hMost⟩
  exact start_eq_ok_iff.mpr ⟨hSome, hMost, rfl⟩

namespace WellFormed

/- A verifier has one opinion. -/
theorem eq_of_verifier
    {a b : Opinion}
    (hSession : session.WellFormed)
    (hA : a ∈ session.opinions.values)
    (hB : b ∈ session.opinions.values)
    (hVerifier : a.verifier = b.verifier) :
    a = b := by
  have hGet := hSession.get?_verifier hA
  rw [hVerifier, hSession.get?_verifier hB] at hGet
  exact (Option.some.inj hGet).symm

/- Each opinion is kept under its verifier. -/
theorem entries_values
    (hSession : session.WellFormed) :
    session.opinions.values.map (fun o => (o.verifier, id o)) =
      session.opinions.entries := by
  unfold OrderedMap.values
  rw [List.map_map]
  refine (List.map_congr_left ?_).trans (List.map_id _)
  intro entry hMem
  exact Prod.ext (hSession entry hMem).1 rfl

/- The opinions of a session make it again. -/
theorem addEach_values
    (hSession : session.WellFormed) :
    session.unheard.addEach session.opinions.values =
      session := by
  have hFits :
      ∀ opinion ∈ session.opinions.values,
        decide (session.unheard.Fits opinion) = true :=
    fun opinion hMem =>
      decide_eq_true (hSession.fits_of_mem hMem)
  have hOpinions :=
    OrderedMap.collect_entries session.opinions
      hSession.entries_values hFits
  rw [addEach_eq]
  unfold unheard at hOpinions ⊢
  rw [hOpinions]

section AnyOrder

variable {order : List Opinion}

variable (hSession : session.WellFormed)
variable (hOrder : order.Perm session.opinions.values)

include hSession hOrder

/- So they do in any order. -/
theorem addEach_perm :
    session.unheard.addEach order = session := by
  have hOnce : session.unheard.OpineOnce order := by
    intro a hA b hB hVerifier _ _
    exact hSession.eq_of_verifier (hOrder.mem_iff.mp hA)
      (hOrder.mem_iff.mp hB) hVerifier
  rw [addEach_congr (fun _ => hOrder.mem_iff) hOnce]
  exact hSession.addEach_values

/- Each of them is new when its turn comes. -/
theorem add_new
    {before after : List Opinion}
    {opinion : Opinion}
    (hSplit : order = before ++ opinion :: after) :
    ((session.unheard.addEach before).add opinion).1 =
      .ok true := by
  have hMem : opinion ∈ session.opinions.values := by
    rw [← hOrder.mem_iff, hSplit]
    exact List.mem_append_cons_self
  have hFits :
      (session.unheard.addEach before).Fits opinion :=
    fits_addEach.mpr (hSession.fits_of_mem hMem)
  have hBefore : opinion ∉ before := by
    have hNodup := hOrder.nodup_iff.mpr hSession.nodup_values
    rw [hSplit, List.nodup_middle, List.nodup_cons] at hNodup
    exact mt (List.mem_append_left _) hNodup.1
  have hNone :
      (session.unheard.addEach before).opinions.get?
          opinion.verifier =
        none := by
    rw [get?_addEach, Option.or_eq_none_iff,
      List.find?_eq_none]
    refine ⟨rfl, ?_⟩
    intro other hOther hFound
    rw [decide_eq_true_eq] at hFound
    have hKept : other ∈ session.opinions.values := by
      rw [← hOrder.mem_iff, hSplit]
      exact List.mem_append_left _ hOther
    have hSame :=
      hSession.eq_of_verifier hKept hMem hFound.1
    exact hBefore (hSame ▸ hOther)
  rw [add_of_fits hFits, hNone]

end AnyOrder

/- A complete round is packaged in a transaction. -/
theorem toTransaction_eq
    (hSession : session.WellFormed)
    (hSome : session.provers ≠ [])
    (hComplete : session.isComplete)
    (factory : Factory)
    (now : UInt64) :
    ∃ round,
      session.toRound = .ok round ∧
        session.toTransaction factory now =
          .ok (factory.operation now
            (.endDriveVerification round)) := by
  rcases (hSession.exists_toRound_iff hSome).mp hComplete with
    ⟨round, hRound⟩
  refine ⟨round, hRound, ?_⟩
  rw [toTransaction, hRound]
  rfl

end WellFormed

------------------------------------------------------------
-- Sending a Round
------------------------------------------------------------

/-
  A complete session is packaged in a transaction.  If that is
  written at all, it is signed by any seed, and what is read
  from the signed bytes ends the same round.  The round lines
  up.  A session that is started with the drive, the trigger
  and the provers that were read accepts all opinions that were
  read, in any order, and becomes the session that was sent.
  An opinion that was read verifies under the same keys as the
  one of its verifier that was sent.
-/
theorem round_survives_sending
    (factory : Factory)
    (now : UInt64)
    (scheme : SignatureScheme)
    (seed : Seed)
    (hReachable : Reachable groups session)
    (hComplete : session.isComplete) :
    ∃ tx,
      session.toTransaction factory now = .ok tx ∧
      ((∃ bytes, tx.encode = .ok bytes) →
        ∃ signed copy round fresh,
          factory.sign scheme seed tx = .ok signed ∧
          Transaction.decode signed.payload = .ok copy ∧
          copy.body =
            .operation (.endDriveVerification round) ∧
          session.toRound = .ok round ∧
          round.validate = .ok () ∧
          start round.drive round.trigger round.provers =
            .ok fresh ∧
          (∀ order,
            order.Perm round.opinions →
            (∀ before opinion after,
              order = before ++ opinion :: after →
              ((fresh.addEach before).add opinion).1 =
                .ok true) ∧
            fresh.addEach order = session) ∧
          ∀ opinion ∈ round.opinions,
            ∃ sent,
              session.opinions.get? opinion.verifier =
                  some sent ∧
                ∀ key,
                  verifyOpinion groups opinion key =
                    verifyOpinion groups sent key) := by
  have hSession := hReachable.wellFormed
  rcases hReachable.provers_bounds with ⟨hSome, -⟩
  rcases hSession.toTransaction_eq hSome hComplete factory
      now with
    ⟨round, hRound, hTransaction⟩
  refine ⟨_, hTransaction, ?_⟩
  intro hEncode
  rcases Transaction.exists_signedPart hEncode with
    ⟨part, hPart⟩
  rcases Transaction.exists_sign scheme seed
      factory.settings.generationHash hEncode hPart with
    ⟨payload, hPayload, hSign⟩
  rcases toRound_eq_ok_iff.mp hRound with ⟨hShapes, rfl⟩
  refine ⟨_, _, _, session.unheard, hSign,
    Transaction.decode_of_encode hPayload, rfl, hRound,
    hShapes, hReachable.start_unheard, ?_, ?_⟩
  · intro order hOrder
    refine ⟨?_, hSession.addEach_perm hOrder⟩
    intro before opinion after hSplit
    exact hSession.add_new hOrder hSplit
  · intro opinion hMem
    exact ⟨opinion, hSession.get?_verifier hMem,
      fun _ => rfl⟩

open SignatureScheme (byName) in
/-
  Two provers, heard in the wrong order.  Their opinions are
  read in the right one, and make the session in either.
-/
theorem round_survives_sending_two :
    let factory : Factory := {
      settings := { Settings.default with
        generationHash :=
          ⟨List.replicate 32 1, List.length_replicate⟩ }
      valid := rfl }
    let one := (unheardTwo.add (passing 1 [0, 1])).2
    let both := (one.add (passing 0 [0, 1])).2
    Reachable Bls12381.groups both ∧
      both.isComplete ∧
      ∃ tx signed copy round fresh,
        both.toTransaction factory 0 = .ok tx ∧
        factory.sign byName (.zero 32) tx = .ok signed ∧
        Transaction.decode signed.payload = .ok copy ∧
        copy.body =
          .operation (.endDriveVerification round) ∧
        round.opinions =
          [passing 0 [0, 1], passing 1 [0, 1]] ∧
        start round.drive round.trigger round.provers =
          .ok fresh ∧
        fresh.addEach [passing 0 [0, 1], passing 1 [0, 1]] =
          both ∧
        fresh.addEach [passing 1 [0, 1], passing 0 [0, 1]] =
          both := by
  intro factory one both
  have hStart :
      start (.zero 32) (.zero 32) [.zero 32, .zero 32] =
        .ok unheardTwo := rfl
  have hBoth : Reachable Bls12381.groups both :=
    .add _ (.add _ (.start hStart))
  have hComplete : both.isComplete := by decide +kernel
  have hWritten :
      (both.toTransaction factory 0).toOption.map
          (fun tx => tx.encode.toOption.isSome) =
        some true := by
    decide +kernel
  rcases round_survives_sending factory 0 byName (.zero 32)
      hBoth hComplete with
    ⟨tx, hTransaction, hSent⟩
  rw [hTransaction] at hWritten
  rcases hSent (exists_eq_ok (Option.some.inj hWritten)) with
    ⟨signed, copy, round, fresh, hSign, hDecode, hBody,
      hRound, -, hFresh, hOrders, -⟩
  have hOpinions :
      round.opinions =
        [passing 0 [0, 1], passing 1 [0, 1]] := by
    rw [(toRound_eq_ok_iff.mp hRound).2]
    decide +kernel
  rw [hOpinions] at hOrders
  exact ⟨hBoth, hComplete, tx, signed, copy, round, fresh,
    hTransaction, hSign, hDecode, hBody, hOpinions, hFresh,
    (hOrders _ (.refl _)).2, (hOrders _ (.swap _ _ _)).2⟩

end VerificationSession

end DriveMarket
