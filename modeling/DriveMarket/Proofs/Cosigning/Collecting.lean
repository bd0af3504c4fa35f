import DriveMarket.Cosigning.Pending
import DriveMarket.Proofs.Ordered.FirstWins
import DriveMarket.Proofs.Transaction.Signing

/-
  Cosignatures may arrive in any order.

  Whether one is accepted depends on the hash and the required
  signers alone, and neither ever changes.  Of each signer the
  first one that is accepted is kept.  So the order of arrival
  decides which of several signatures of a signer is kept, but
  not whose signatures are there.

  Key definitions include:
    * `PendingAggregate.Accepts`
    * `PendingAggregate.attachEach`
    * `PendingAggregate.signers`

  Correctness is proven by:
    * `PendingAggregate.attach_snd`
    * `PendingAggregate.attachEach_eq`
    * `PendingAggregate.attachAll_of_accepts`
    * `PendingAggregate.mem_signers_attachEach`
    * `PendingAggregate.attachEach_any_order`
-/

namespace DriveMarket

namespace PendingAggregate

variable {scheme : SignatureScheme}
variable {pending : PendingAggregate}

------------------------------------------------------------
-- One Cosignature
------------------------------------------------------------

/- A cosignature of a required signer that verifies. -/
def Accepts
    (scheme : SignatureScheme)
    (pending : PendingAggregate)
    (cosignature : Cosignature) : Prop :=
  pending.required.contains cosignature.signer ∧
    scheme.verify cosignature.signer pending.hash.toList
      cosignature.signature = .ok ()

theorem check_eq_ok_iff
    {cosignature : Cosignature} :
    pending.check scheme cosignature = .ok () ↔
      pending.Accepts scheme cosignature := by
  unfold check Accepts
  by_cases hRequired :
      pending.required.contains cosignature.signer
  · cases hVerify :
        scheme.verify cosignature.signer pending.hash.toList
          cosignature.signature with
    | ok _ => simp [hRequired]
    | error cause => simp [hRequired]
  · simp [hRequired]

instance
    (cosignature : Cosignature) :
    Decidable (pending.Accepts scheme cosignature) :=
  match hCheck : pending.check scheme cosignature with
  | .ok () => .isTrue (check_eq_ok_iff.mp hCheck)
  | .error _ =>
      .isFalse fun hAccepts => by
        rw [check_eq_ok_iff.mpr hAccepts] at hCheck
        cases hCheck

/- One that is accepted is kept if it is its signer's first. -/
theorem attach_snd
    (scheme : SignatureScheme)
    (cosignature : Cosignature)
    (pending : PendingAggregate) :
    (pending.attach scheme cosignature).2 =
      { pending with
        signatures :=
          if pending.Accepts scheme cosignature then
            pending.signatures.insertNew cosignature.signer
              cosignature.signature
          else
            pending.signatures } := by
  unfold attach OrderedMap.insertNew
  cases hCheck : pending.check scheme cosignature with
  | error cause =>
      have hRefused : ¬ pending.Accepts scheme cosignature := by
        rw [← check_eq_ok_iff, hCheck]
        intro hOk
        cases hOk
      simp [hRefused]
  | ok _ =>
      have hAccepted := check_eq_ok_iff.mp hCheck
      by_cases hHas :
          pending.signatures.contains cosignature.signer
      · simp [hHas]
      · simp [hHas, hAccepted]

/- What is accepted is attached, and is new or is not. -/
theorem attach_of_accepts
    {cosignature : Cosignature}
    (hAccepts : pending.Accepts scheme cosignature) :
    (pending.attach scheme cosignature).1 =
      .ok (!pending.signatures.contains
        cosignature.signer) := by
  unfold attach
  rw [check_eq_ok_iff.mpr hAccepts]
  by_cases hHas :
      pending.signatures.contains cosignature.signer
  · simp [hHas]
  · simp [hHas]

------------------------------------------------------------
-- Many Cosignatures
------------------------------------------------------------

/- Attach each cosignature, passing over refused ones. -/
def attachEach
    (scheme : SignatureScheme) :
    List Cosignature →
    PendingAggregate →
    PendingAggregate
  | [], pending => pending
  | cosignature :: rest, pending =>
      attachEach scheme rest
        (pending.attach scheme cosignature).2

/- Those who have cosigned, in the order of their keys. -/
def signers
    (pending : PendingAggregate) : List PublicKey :=
  pending.cosignatures.map (·.signer)

theorem signers_eq_keys
    (pending : PendingAggregate) :
    pending.signers = pending.signatures.keys := by
  simp [signers, cosignatures, OrderedMap.keys]

theorem length_signers
    (pending : PendingAggregate) :
    pending.signers.length = pending.signatures.size := by
  rw [signers_eq_keys]
  exact List.length_map _

theorem signers_nodup
    (pending : PendingAggregate) :
    pending.signers.Nodup := by
  rw [signers_eq_keys]
  exact pending.signatures.keys_nodup

theorem mem_signers_iff_contains
    {key : PublicKey} :
    key ∈ pending.signers ↔
      pending.signatures.contains key := by
  rw [signers_eq_keys, OrderedMap.mem_keys_iff]

/- The cosignatures are the entries of what was collected. -/
theorem entries_cosignatures
    (pending : PendingAggregate) :
    pending.cosignatures.map (fun c => (c.signer, c.signature)) =
      pending.signatures.entries := by
  rw [cosignatures, List.map_map]
  exact List.map_id _

theorem mem_cosignatures_iff
    {cosignature : Cosignature} :
    cosignature ∈ pending.cosignatures ↔
      pending.signatures.get? cosignature.signer =
        some cosignature.signature := by
  rw [OrderedMap.get?_eq_some_iff, ← entries_cosignatures,
    List.mem_map_of_injective]
  rintro ⟨signer, signature⟩ ⟨signer', signature'⟩ hSame
  cases hSame
  rfl

/- The first cosignature of each signer is collected. -/
theorem attachEach_eq
    (scheme : SignatureScheme)
    (cosignatures : List Cosignature)
    (pending : PendingAggregate) :
    pending.attachEach scheme cosignatures =
      { pending with
        signatures :=
          pending.signatures.collect
            (fun cosignature =>
              pending.Accepts scheme cosignature)
            (·.signer) (·.signature) cosignatures } := by
  induction cosignatures generalizing pending with
  | nil => rfl
  | cons cosignature rest ih =>
      unfold attachEach OrderedMap.collect
      rw [ih, attach_snd]
      simp only [decide_eq_true_eq]
      rfl

/- If all are accepted, all are attached. -/
theorem attachAll_of_accepts
    {cosignatures : List Cosignature}
    (hAccepts :
      ∀ cosignature ∈ cosignatures,
        pending.Accepts scheme cosignature) :
    ∃ count,
      pending.attachAll scheme cosignatures =
        (.ok count,
          pending.attachEach scheme cosignatures) := by
  induction cosignatures generalizing pending with
  | nil => exact ⟨0, rfl⟩
  | cons cosignature rest ih =>
      rw [List.forall_mem_cons] at hAccepts
      have hFirst := attach_of_accepts hAccepts.1
      have hNext := attach_snd scheme cosignature pending
      have hRest :
          ∀ other ∈ rest,
            (pending.attach scheme cosignature).2.Accepts
              scheme other := by
        rw [hNext]
        exact hAccepts.2
      rcases ih hRest with ⟨count, hCount⟩
      unfold attachAll attachEach
      cases hAttach : pending.attach scheme cosignature with
      | mk result next =>
          rw [hAttach] at hFirst hCount
          cases hFirst
          dsimp only at hCount ⊢
          rw [hCount]
          exact ⟨_, rfl⟩

/- Who has cosigned does not depend on any order. -/
theorem contains_attachEach
    (cosignatures : List Cosignature)
    (key : PublicKey) :
    (pending.attachEach scheme
        cosignatures).signatures.contains key ↔
      pending.signatures.contains key ∨
        ∃ cosignature ∈ cosignatures,
          cosignature.signer = key ∧
            pending.Accepts scheme cosignature := by
  rw [attachEach_eq]
  unfold OrderedMap.contains
  rw [OrderedMap.get?_collect, Option.isSome_or,
    Bool.or_eq_true, Option.isSome_map, List.find?_isSome]
  simp only [decide_eq_true_eq]

theorem mem_signers_attachEach
    (cosignatures : List Cosignature)
    (key : PublicKey) :
    key ∈ (pending.attachEach scheme cosignatures).signers ↔
      key ∈ pending.signers ∨
        ∃ cosignature ∈ cosignatures,
          cosignature.signer = key ∧
            pending.Accepts scheme cosignature := by
  rw [mem_signers_iff_contains, mem_signers_iff_contains,
    contains_attachEach]

------------------------------------------------------------
-- Any Order
------------------------------------------------------------

section AnyOrder

variable {first second : List Cosignature}

/- The same cosignatures leave the same signers. -/
theorem contains_attachEach_congr
    (hSame : ∀ c, c ∈ first ↔ c ∈ second)
    (key : PublicKey) :
    (pending.attachEach scheme first).signatures.contains
        key =
      (pending.attachEach scheme second).signatures.contains
        key := by
  rw [Bool.eq_iff_iff, contains_attachEach,
    contains_attachEach]
  simp only [hSame]

/- No signer has two signatures to choose from. -/
def SignOnce
    (scheme : SignatureScheme)
    (hash : Digest)
    (cosignatures : List Cosignature) : Prop :=
  ∀ c ∈ cosignatures, ∀ c' ∈ cosignatures,
    c.signer = c'.signer →
    scheme.verify c.signer hash.toList c.signature =
      .ok () →
    scheme.verify c'.signer hash.toList c'.signature =
      .ok () →
    c.signature = c'.signature

/- Then it does not matter which one comes first. -/
theorem attachEach_congr
    (hSame : ∀ c, c ∈ first ↔ c ∈ second)
    (hOnce : SignOnce scheme pending.hash first) :
    pending.attachEach scheme first =
      pending.attachEach scheme second := by
  rw [attachEach_eq, attachEach_eq scheme second]
  congr 1
  apply OrderedMap.collect_congr _ hSame
  intro c hMem c' hMem' hSigner hFirst hSecond
  rw [decide_eq_true_eq] at hFirst hSecond
  exact hOnce c hMem c' hMem' hSigner hFirst.2 hSecond.2

/-
  Cosignatures that are attached one by one, in any order and
  any number of times, leave the same hash, the same signers,
  and the same signers missing: those who had cosigned before
  and those of whom one was accepted.  If no signer has two
  signatures that verify, nothing at all depends on the order,
  down to the bytes to announce.
-/
theorem attachEach_any_order
    (hSame : ∀ c, c ∈ first ↔ c ∈ second) :
    (pending.attachEach scheme first).hash = pending.hash ∧
    (pending.attachEach scheme second).hash = pending.hash ∧
    (∀ key,
      key ∈ (pending.attachEach scheme first).signers ↔
        key ∈ pending.signers ∨
          ∃ c ∈ first,
            c.signer = key ∧ pending.Accepts scheme c) ∧
    (pending.attachEach scheme first).signers =
      (pending.attachEach scheme second).signers ∧
    (pending.attachEach scheme first).missing =
      (pending.attachEach scheme second).missing ∧
    (pending.attachEach scheme first).isComplete =
      (pending.attachEach scheme second).isComplete ∧
    (SignOnce scheme pending.hash
        (pending.cosignatures ++ first) →
      pending.attachEach scheme first =
        pending.attachEach scheme second ∧
      (pending.attachEach scheme first).finish =
        (pending.attachEach scheme second).finish) := by
  have hContains :=
    @contains_attachEach_congr scheme pending _ _ hSame
  have hRequired :
      (pending.attachEach scheme first).required =
        (pending.attachEach scheme second).required := by
    rw [attachEach_eq, attachEach_eq scheme second]
  have hKeys := OrderedMap.keys_eq_of_contains hContains
  refine ⟨?_, ?_, ?_, ?_, ?_, ?_, ?_⟩
  · rw [attachEach_eq]
  · rw [attachEach_eq]
  · exact mem_signers_attachEach first
  · rw [signers_eq_keys, signers_eq_keys]
    exact hKeys
  · unfold missing
    simp only [hRequired, hContains]
  · have hSize := congrArg List.length hKeys
    unfold OrderedMap.keys at hSize
    rw [List.length_map, List.length_map] at hSize
    unfold isComplete OrderedMap.size
    rw [hSize, hRequired]
  · intro hOnce
    have hEqual :
        pending.attachEach scheme first =
          pending.attachEach scheme second := by
      apply attachEach_congr hSame
      intro c hMem c' hMem'
      exact hOnce c (List.mem_append_right _ hMem) c'
        (List.mem_append_right _ hMem')
    exact ⟨hEqual, congrArg finish hEqual⟩

end AnyOrder

end PendingAggregate

------------------------------------------------------------
-- Two Cosigners
------------------------------------------------------------

namespace SignatureScheme

/- A key has one signature of each message by name. -/
theorem byName_signOnce
    (hash : Digest)
    (cosignatures : List Cosignature) :
    PendingAggregate.SignOnce byName hash cosignatures := by
  intro c _ c' _ hSigner hFirst hSecond
  unfold byName at hFirst hSecond
  simp only at hFirst hSecond
  split at hFirst
  · rename_i hC
    split at hSecond
    · rename_i hC'
      apply FixedBytes.ext
      rw [hC, hC', hSigner]
    · cases hSecond
  · cases hFirst

end SignatureScheme

namespace PendingAggregate

open SignatureScheme (byName)

/- The seeds of two accounts. -/
def firstSeed : Seed :=
  .zero 32

def secondSeed : Seed :=
  ⟨List.replicate 32 1, List.length_replicate⟩

/-
  Two cosigners and a forger who sends a bad signature: with
  repetitions and in another order, both have signed and the
  accumulators are equal.
-/
theorem attachEach_any_order_two :
    let pending : PendingAggregate := {
      transaction :=
        ⟨.unsigned .mijinTest ⟨0⟩ ⟨1⟩,
          .aggregate .complete ⟨[], []⟩⟩
      hash := .zero 32
      required := .ofList [firstSeed, secondSeed]
      signatures := .empty }
    let a := Cosignature.make byName firstSeed pending.hash
    let b := Cosignature.make byName secondSeed pending.hash
    let forged : Cosignature := ⟨secondSeed, .zero 64⟩
    (∀ c, c ∈ [a, forged, b] ↔ c ∈ [b, a, forged, b]) ∧
    SignOnce byName pending.hash
      (pending.cosignatures ++ [a, forged, b]) ∧
    (pending.attachEach byName [a, forged, b]).signers =
      [firstSeed, secondSeed] ∧
    pending.attachEach byName [a, forged, b] =
      pending.attachEach byName [b, a, forged, b] := by
  intro pending a b forged
  have hSame :
      ∀ c, c ∈ [a, forged, b] ↔ c ∈ [b, a, forged, b] := by
    intro c
    simp only [List.mem_cons, List.not_mem_nil, or_false]
    tauto
  have hOnce :=
    SignatureScheme.byName_signOnce pending.hash
      (pending.cosignatures ++ [a, forged, b])
  rcases @attachEach_any_order byName pending _ _ hSame with
    ⟨-, -, -, -, -, -, hEqual⟩
  refine ⟨hSame, hOnce, ?_, ?_⟩
  · decide +kernel
  · exact (hEqual hOnce).1

end PendingAggregate

end DriveMarket
