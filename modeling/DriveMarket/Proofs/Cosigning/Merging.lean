import DriveMarket.Proofs.Cosigning.Relay

/-
  Accumulators for one aggregate are merged.

  What one of them has collected the other accepts, as both
  check against the hash and the required signers of the same
  aggregate.  So merging never stops halfway.  Under each key
  the signature that comes first is kept: the one of the left
  accumulator, else the one of the right.  However many are
  merged in whatever grouping, what a key has in the end is
  what the first party has that knows the key.

  Key definitions include:
    * `PendingAggregate.CollectsFor`
    * `PendingAggregate.Merger`
    * `PendingAggregate.Agree`

  Correctness is proven by:
    * `PendingAggregate.attachAll_size`
    * `PendingAggregate.CollectsFor.merge`
    * `PendingAggregate.CollectsFor.get?_merge`
    * `PendingAggregate.WellFormed.isComplete_iff`
    * `PendingAggregate.Merger.get?_result`
    * `PendingAggregate.merge_of_reachable`
-/

namespace DriveMarket

namespace PendingAggregate

variable {scheme : SignatureScheme}
variable {generationHash : Digest}
variable {pending : PendingAggregate}

------------------------------------------------------------
-- Counting
------------------------------------------------------------

/- A cosignature is counted if it makes the collection larger. -/
theorem attach_size
    {cosignature : Cosignature}
    {isNew : Bool}
    {next : PendingAggregate}
    (hAttach :
      pending.attach scheme cosignature = (.ok isNew, next)) :
    next.signatures.size =
      pending.signatures.size + isNew.toNat := by
  unfold attach at hAttach
  split at hAttach
  · cases hAttach
  · split at hAttach
    · cases hAttach
      rfl
    · rename_i hNew
      cases hAttach
      exact OrderedMap.size_insert_of_new _ hNew

/- So the count is what the collection has grown by. -/
theorem attachAll_size
    {cosignatures : List Cosignature}
    {count : Nat}
    {next : PendingAggregate}
    (hAttach :
      pending.attachAll scheme cosignatures =
        (.ok count, next)) :
    next.signatures.size = pending.signatures.size + count := by
  induction cosignatures generalizing pending count with
  | nil =>
      cases hAttach
      rfl
  | cons cosignature rest ih =>
      unfold attachAll at hAttach
      cases hFirst : pending.attach scheme cosignature with
      | mk first middle =>
          rw [hFirst] at hAttach
          cases first with
          | error cause => cases hAttach
          | ok isNew =>
              dsimp only at hAttach
              cases hRest : attachAll scheme rest middle with
              | mk later last =>
                  rw [hRest] at hAttach
                  cases later with
                  | error cause => cases hAttach
                  | ok others =>
                      cases hAttach
                      rw [ih hRest, attach_size hFirst]
                      dsimp only
                      omega

theorem merge_size
    {other next : PendingAggregate}
    {count : Nat}
    (hMerge :
      pending.merge scheme other = (.ok count, next)) :
    next.signatures.size = pending.signatures.size + count := by
  unfold merge at hMerge
  split at hMerge
  · exact attachAll_size hMerge
  · cases hMerge

/- An accumulator is complete if all required have signed. -/
theorem WellFormed.isComplete_iff
    (hPending : pending.WellFormed scheme generationHash) :
    pending.isComplete ↔
      ∀ key,
        pending.required.contains key →
        key ∈ pending.signers := by
  unfold isComplete
  simp only [mem_signers_iff_contains]
  rw [beq_iff_eq, OrderedMap.size_eq_iff]
  intro key hSigned
  rw [← mem_signers_iff_contains] at hSigned
  rcases List.mem_map.mp hSigned with ⟨c, hMem, rfl⟩
  exact (hPending.collected c hMem).1

------------------------------------------------------------
-- Two Accumulators
------------------------------------------------------------

/- A reachable accumulator for a signed aggregate. -/
structure CollectsFor
    (scheme : SignatureScheme)
    (generationHash : Digest)
    (tx : Transaction)
    (pending : PendingAggregate) : Prop where
  reachable : Reachable scheme generationHash pending
  same : pending.transaction = tx

namespace CollectsFor

variable {tx : Transaction}
variable {p q : PendingAggregate}

section Merged

variable (hP : p.CollectsFor scheme generationHash tx)
variable (hQ : q.CollectsFor scheme generationHash tx)

include hP hQ

theorem fixed :
    q.hash = p.hash ∧ q.required = p.required :=
  hP.reachable.opened.fixed hQ.reachable.opened
    (hQ.same.trans hP.same.symm)

/- Two that have collected the same are the same. -/
theorem eq_of_get?
    (hSame :
      ∀ key, p.signatures.get? key = q.signatures.get? key) :
    p = q := by
  rcases fixed hP hQ with ⟨hHash, hRequired⟩
  have hTransaction := hP.same.trans hQ.same.symm
  have hSignatures := OrderedMap.ext_get? hSame
  calc
    p = ⟨p.transaction, p.hash, p.required, p.signatures⟩ :=
      rfl
    _ = ⟨q.transaction, q.hash, q.required, q.signatures⟩ := by
      rw [hTransaction, ← hHash, ← hRequired, hSignatures]
    _ = q := rfl

/- What one has collected, the other accepts. -/
theorem accepts :
    ∀ c ∈ q.cosignatures, p.Accepts scheme c := by
  intro c hMem
  have hAccepted := hQ.reachable.wellFormed.collected c hMem
  exact (hP.reachable.opened.accepts_iff hQ.reachable.opened
    (hQ.same.trans hP.same.symm) c).mp hAccepted

/- Merging attaches everything. -/
theorem merge_eq :
    ∃ count,
      p.merge scheme q =
        (.ok count, p.attachEach scheme q.cosignatures) := by
  unfold PendingAggregate.merge
  rw [if_pos (fixed hP hQ).1]
  exact attachAll_of_accepts (accepts hP hQ)

theorem merge :
    (p.merge scheme q).2.CollectsFor scheme generationHash
      tx := by
  refine ⟨hP.reachable.merge q, ?_⟩
  rcases merge_eq hP hQ with ⟨count, hMerge⟩
  rw [hMerge, attachEach_eq]
  exact hP.same

/- The left accumulator comes first, the right one after it. -/
theorem get?_merge
    (key : PublicKey) :
    (p.merge scheme q).2.signatures.get? key =
      (p.signatures.get? key).or (q.signatures.get? key) := by
  rcases merge_eq hP hQ with ⟨count, hMerge⟩
  rw [hMerge, attachEach_eq]
  apply OrderedMap.get?_collect_entries
  · exact q.entries_cosignatures
  · intro c hMem
    rw [decide_eq_true_eq]
    exact accepts hP hQ c hMem

/- So the signers are those of the left and then the others. -/
theorem signers_merge :
    (p.merge scheme q).2.signers.Perm
      (p.signers ++ q.signers.filter (· ∉ p.signers)) := by
  rw [List.perm_ext_iff_of_nodup]
  · intro key
    rw [List.mem_append, List.mem_filter, decide_eq_true_eq]
    simp only [mem_signers_iff_contains, OrderedMap.contains]
    rw [get?_merge hP hQ, Option.isSome_or, Bool.or_eq_true]
    tauto
  · exact signers_nodup _
  · refine List.nodup_append.mpr
      ⟨p.signers_nodup, q.signers_nodup.filter _, ?_⟩
    intro key hOld other hNew hEqual
    subst hEqual
    have hNot := (List.mem_filter.mp hNew).2
    exact absurd hOld (of_decide_eq_true hNot)

/- Those that the left one did not have are counted. -/
theorem merge_fst :
    (p.merge scheme q).1 =
      .ok (q.signers.filter (· ∉ p.signers)).length := by
  have hPerm := signers_merge hP hQ
  rcases merge_eq hP hQ with ⟨count, hMerge⟩
  rw [hMerge] at hPerm ⊢
  have hGrown := merge_size hMerge
  have hLength := hPerm.length_eq
  rw [List.length_append, length_signers, length_signers,
    hGrown] at hLength
  rw [← Nat.add_left_cancel hLength]

/- What is merged twice is there already. -/
theorem merge_again :
    (p.merge scheme q).2.merge scheme q =
      (.ok 0, (p.merge scheme q).2) := by
  have hMerged := merge hP hQ
  refine Prod.ext ?_ ?_
  · have hNone :
        q.signers.filter
            (· ∉ (p.merge scheme q).2.signers) =
          [] := by
      rw [List.filter_eq_nil_iff]
      intro key hMem
      rw [decide_eq_true_eq, not_not,
        (signers_merge hP hQ).mem_iff, List.mem_append,
        List.mem_filter, decide_eq_true_eq]
      tauto
    rw [merge_fst hMerged hQ, hNone]
    rfl
  · apply eq_of_get? (merge hMerged hQ) hMerged
    intro key
    rw [get?_merge hMerged hQ, get?_merge hP hQ,
      Option.or_assoc, Option.or_self]

end Merged

end CollectsFor

------------------------------------------------------------
-- Many Accumulators
------------------------------------------------------------

/- Parties that are merged, two groups at a time. -/
inductive Merger where
  | party (pending : PendingAggregate)
  | join (left right : Merger)

namespace Merger

/- The parties from left to right. -/
def parties : Merger → List PendingAggregate
  | party pending => [pending]
  | join left right => left.parties ++ right.parties

/- What the leftmost party has after all merges. -/
def result
    (scheme : SignatureScheme) : Merger → PendingAggregate
  | party pending => pending
  | join left right =>
      ((left.result scheme).merge scheme
        (right.result scheme)).2

section Parties

variable {tx : Transaction}
variable {merger : Merger}
variable
  (hParties :
    ∀ party ∈ merger.parties,
      party.CollectsFor scheme generationHash tx)

include hParties

/- The result is for the aggregate that the parties are for. -/
theorem collectsFor_result :
    (merger.result scheme).CollectsFor scheme generationHash
      tx := by
  induction merger with
  | party pending =>
      exact hParties pending List.mem_cons_self
  | join left right ihLeft ihRight =>
      rw [parties, List.forall_mem_append] at hParties
      exact (ihLeft hParties.1).merge (ihRight hParties.2)

/- Of each key the first party that knows it decides. -/
theorem get?_result
    (key : PublicKey) :
    (merger.result scheme).signatures.get? key =
      merger.parties.findSome? (·.signatures.get? key) := by
  induction merger with
  | party pending =>
      simp [result, parties]
  | join left right ihLeft ihRight =>
      rw [parties, List.forall_mem_append] at hParties
      rw [result, parties, List.findSome?_append,
        ← ihLeft hParties.1, ← ihRight hParties.2]
      exact (collectsFor_result hParties.1).get?_merge
        (collectsFor_result hParties.2) key

/- Who has signed in the end is who has signed with a party. -/
theorem mem_signers_result
    (key : PublicKey) :
    key ∈ (merger.result scheme).signers ↔
      ∃ party ∈ merger.parties, key ∈ party.signers := by
  simp only [mem_signers_iff_contains, OrderedMap.contains]
  rw [get?_result hParties, List.findSome?_isSome_iff]

end Parties

end Merger

/- No two parties have different signatures of one signer. -/
def Agree
    (parties : List PendingAggregate) : Prop :=
  ∀ a ∈ parties, ∀ b ∈ parties,
    ∀ c ∈ a.cosignatures, ∀ c' ∈ b.cosignatures,
      c.signer = c'.signer → c.signature = c'.signature

/- What one party has is then found among all of them. -/
theorem Agree.findSome?_eq_some_iff
    {parties : List PendingAggregate}
    {key : PublicKey}
    {signature : Signature}
    (hAgree : Agree parties) :
    parties.findSome? (·.signatures.get? key) =
        some signature ↔
      ∃ party ∈ parties,
        party.signatures.get? key = some signature := by
  constructor
  · exact List.exists_of_findSome?_eq_some
  · rintro ⟨a, hA, hGet⟩
    have hFound :
        (parties.findSome?
          (·.signatures.get? key)).isSome := by
      rw [List.findSome?_isSome_iff]
      exact ⟨a, hA, Option.isSome_of_eq_some hGet⟩
    rcases Option.isSome_iff_exists.mp hFound with
      ⟨other, hOther⟩
    rcases List.exists_of_findSome?_eq_some hOther with
      ⟨b, hB, hGet'⟩
    have hSame :=
      hAgree a hA b hB ⟨key, signature⟩
        (mem_cosignatures_iff.mpr hGet) ⟨key, other⟩
        (mem_cosignatures_iff.mpr hGet') rfl
    rw [hOther]
    exact congrArg some hSame.symm

namespace Merger

section SameParties

variable {tx : Transaction}
variable {first second : Merger}
variable
  (hParties :
    ∀ party ∈ first.parties,
      party.CollectsFor scheme generationHash tx)
variable
  (hSame :
    ∀ party,
      party ∈ first.parties ↔ party ∈ second.parties)

include hParties hSame

theorem collectsFor_of_same :
    ∀ party ∈ second.parties,
      party.CollectsFor scheme generationHash tx := by
  intro party hMem
  exact hParties party ((hSame party).mpr hMem)

/- The same parties have the same signers in the end. -/
theorem signers_congr :
    (first.result scheme).signers =
      (second.result scheme).signers := by
  have hOthers := collectsFor_of_same hParties hSame
  rw [signers_eq_keys, signers_eq_keys]
  apply OrderedMap.keys_eq_of_contains
  intro key
  rw [Bool.eq_iff_iff, ← mem_signers_iff_contains,
    ← mem_signers_iff_contains, mem_signers_result hParties,
    mem_signers_result hOthers]
  simp only [hSame]

/- If they agree, they have the same accumulator. -/
theorem result_congr
    (hAgree : Agree first.parties) :
    first.result scheme = second.result scheme := by
  have hOthers := collectsFor_of_same hParties hSame
  have hAgree' : Agree second.parties := by
    intro a hA b hB
    exact hAgree a ((hSame a).mpr hA) b ((hSame b).mpr hB)
  apply (collectsFor_result hParties).eq_of_get?
    (collectsFor_result hOthers)
  intro key
  apply Option.ext
  intro signature
  rw [get?_result hParties, get?_result hOthers,
    hAgree.findSome?_eq_some_iff,
    hAgree'.findSome?_eq_some_iff]
  simp only [hSame]

end SameParties

end Merger

/-
  An accumulator takes over what another one for the same
  aggregate has collected from signers that it lacks, and
  counts them.  Nothing else changes, and doing so once more
  changes nothing.  It is complete then if both together have
  heard everybody.  However many parties merge, neither order
  nor grouping decides whose signatures there are in the end,
  nor, if the parties agree, anything else.  What was collected
  for another hash is refused.
-/
theorem merge_of_reachable
    {tx : Transaction}
    {p q : PendingAggregate}
    (hP : p.CollectsFor scheme generationHash tx)
    (hQ : q.CollectsFor scheme generationHash tx) :
    (∃ merged,
      p.merge scheme q =
        (.ok (q.signers.filter (· ∉ p.signers)).length,
          merged) ∧
      merged.CollectsFor scheme generationHash tx ∧
      merged.hash = p.hash ∧
      merged.initiator = p.initiator ∧
      merged.required = p.required ∧
      (∀ c,
        c ∈ merged.cosignatures ↔
          c ∈ p.cosignatures ∨
            c ∈ q.cosignatures ∧ c.signer ∉ p.signers) ∧
      merged.merge scheme q = (.ok 0, merged) ∧
      (merged.isComplete ↔
        ∀ key,
          p.required.contains key →
          key ∈ p.signers ∨ key ∈ q.signers)) ∧
    (∀ first second : Merger,
      (∀ party ∈ first.parties,
        party.CollectsFor scheme generationHash tx) →
      (∀ party,
        party ∈ first.parties ↔ party ∈ second.parties) →
      (first.result scheme).CollectsFor scheme generationHash
        tx ∧
      (∀ key,
        key ∈ (first.result scheme).signers ↔
          ∃ party ∈ first.parties, key ∈ party.signers) ∧
      (first.result scheme).signers =
        (second.result scheme).signers ∧
      (Agree first.parties →
        first.result scheme = second.result scheme ∧
        (first.result scheme).encode =
          (second.result scheme).encode ∧
        (first.result scheme).finish =
          (second.result scheme).finish)) ∧
    ∀ other : PendingAggregate,
      other.hash ≠ p.hash →
      p.merge scheme other =
        (.error (.hashMismatch p.hash other.hash), p) := by
  have hMerged := hP.merge hQ
  have hFixed := hP.fixed hMerged
  refine ⟨⟨_, Prod.ext (hP.merge_fst hQ) rfl, hMerged,
    hFixed.1, ?_, hFixed.2, ?_, hP.merge_again hQ, ?_⟩, ?_, ?_⟩
  · rw [initiator, initiator, hMerged.same, hP.same]
  · intro c
    rw [mem_cosignatures_iff, mem_cosignatures_iff,
      mem_cosignatures_iff, hP.get?_merge hQ,
      mem_signers_iff_contains, OrderedMap.contains,
      Option.or_eq_some_iff]
    simp [and_comm]
  · rw [hMerged.reachable.wellFormed.isComplete_iff, hFixed.2]
    refine forall₂_congr fun key hRequired => ?_
    rw [(hP.signers_merge hQ).mem_iff, List.mem_append,
      List.mem_filter, decide_eq_true_eq]
    tauto
  · intro first second hParties hSame
    refine ⟨Merger.collectsFor_result hParties,
      Merger.mem_signers_result hParties,
      Merger.signers_congr hParties hSame, ?_⟩
    intro hAgree
    have hEqual := Merger.result_congr hParties hSame hAgree
    exact ⟨hEqual, congrArg encode hEqual,
      congrArg finish hEqual⟩
  · intro other hHash
    exact if_neg hHash

open SignatureScheme (byName)

/-
  Two cosigners sign with different parties.  Whoever merges
  learns of one signer and has both, once.
-/
theorem merge_of_reachable_split :
    let thirdSeed : Seed :=
      ⟨List.replicate 32 2, List.length_replicate⟩
    let closure (signer : PublicKey) : Embedded := {
      signer := signer
      network := .mijinTest
      body := .operation (.driveClosure ⟨.zero 32⟩) }
    let tx : Transaction :=
      ⟨.unsigned .mijinTest ⟨0⟩ ⟨1⟩,
        .aggregate .complete
          ⟨[closure secondSeed, closure thirdSeed], []⟩⟩
    ∃ signed pending p q merged,
      tx.sign byName firstSeed (.zero 32) = .ok signed ∧
      PendingAggregate.start byName (.zero 32)
        signed.transaction = .ok pending ∧
      p = (pending.attach byName
        (.make byName secondSeed pending.hash)).2 ∧
      q = (pending.attach byName
        (.make byName thirdSeed pending.hash)).2 ∧
      p.merge byName q = (.ok 1, merged) ∧
      merged.merge byName q = (.ok 0, merged) ∧
      merged.isComplete ∧
      (q.merge byName p).2.signers = merged.signers := by
  intro thirdSeed closure tx
  have hRun :
      ∃ pending, (do
        let signed ←
          (tx.sign byName firstSeed (.zero 32)).mapError
            .transaction
        let pending ←
          PendingAggregate.start byName (.zero 32)
            signed.transaction
        let p :=
          (pending.attach byName
            (.make byName secondSeed pending.hash)).2
        let q :=
          (pending.attach byName
            (.make byName thirdSeed pending.hash)).2
        if p.signers = [secondSeed] ∧
            q.signers = [thirdSeed] ∧
            p.required.keys = [secondSeed, thirdSeed] then
          return pending
        else
          throw .emptyAggregate) =
        Except.ok pending :=
    exists_eq_ok (by decide +kernel)
  simp only [bind_eq_ok_iff, mapError_eq_ok_iff] at hRun
  rcases hRun with
    ⟨_, signed, hSign, pending, hStart, hChecked⟩
  split at hChecked
  · rename_i hSides
    rcases hSides with ⟨hSecond, hThird, hRequired⟩
    have hPending := Reachable.start hStart
    have hP :
        CollectsFor byName (.zero 32) pending.transaction
          (pending.attach byName
            (.make byName secondSeed pending.hash)).2 :=
      ⟨hPending.attach _, by rw [attach_snd]⟩
    have hQ :
        CollectsFor byName (.zero 32) pending.transaction
          (pending.attach byName
            (.make byName thirdSeed pending.hash)).2 :=
      ⟨hPending.attach _, by rw [attach_snd]⟩
    rcases merge_of_reachable hP hQ with
      ⟨⟨merged, hMerge, -, -, -, -, -, hAgain, hComplete⟩,
        hMergers, -⟩
    rw [hSecond, hThird] at hMerge hComplete
    generalize hFirst :
      (pending.attach byName
        (.make byName secondSeed pending.hash)).2 = p
      at hP hRequired hMerge hComplete hMergers
    generalize hOther :
      (pending.attach byName
        (.make byName thirdSeed pending.hash)).2 = q
      at hQ hMerge hAgain hComplete
    refine ⟨signed, pending, p, q, merged, hSign, hStart,
      hFirst.symm, hOther.symm, hMerge, hAgain,
      hComplete.mpr ?_, ?_⟩
    · intro key hNeeded
      rw [← OrderedMap.mem_keys_iff, hRequired] at hNeeded
      simpa using hNeeded
    · rcases hMergers (.join (.party q) (.party p))
          (.join (.party p) (.party q))
          (List.forall_mem_cons.mpr
            ⟨hQ, List.forall_mem_singleton.mpr hP⟩)
          (by simp [Merger.parties, or_comm]) with
        ⟨-, -, hSigners, -⟩
      exact hSigners.trans (congrArg (·.2.signers) hMerge)
  · cases hChecked

end PendingAggregate

end DriveMarket
