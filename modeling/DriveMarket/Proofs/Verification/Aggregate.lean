import DriveMarket.Proofs.Verification.Pairing
import DriveMarket.Proofs.Verification.Session

/-
  What the aggregate check of a round's signatures accepts.

  The check of some opinions with the same results compares
  the product of the pairings of their keys with that of
  their signatures.  Factors may be exchanged without changing
  a product, so the check does not tell which signature
  belongs to which key; but as soon as all factors but one
  agree, the last one agrees as well.

  Key definitions include:
    * `Opinion.keyPoint?`
    * `Opinion.signaturePoint?`
    * `PairingLaws.Balanced`
    * `VerificationSession.agreeing`

  Correctness is proven by:
    * `PairingLaws.verifies_iff`
    * `PairingLaws.aggregateVerifies_iff`
    * `PairingLaws.Balanced.verifies_of_others`
    * `VerificationSession.verifySignatures_sound`
-/

namespace DriveMarket

------------------------------------------------------------
-- Optional Results over a List
------------------------------------------------------------

section Optional

variable {α β γ : Type}

theorem mapM_eq_some_iff
    {f : α → Option β}
    {xs : List α}
    {ys : List β} :
    xs.mapM f = some ys ↔
      (∀ x ∈ xs, (f x).isSome) ∧ xs.filterMap f = ys := by
  induction xs generalizing ys with
  | nil => simp [pure]
  | cons x xs ih =>
      rw [List.mapM_cons, List.forall_mem_cons]
      cases hX : f x with
      | none => simp
      | some y =>
          rw [List.filterMap_cons_some hX]
          simp [Option.bind_eq_some_iff, ih, and_assoc]

/- Results may be tested one by one or all together. -/
theorem mapM_filter
    (f : α → Option β)
    (p : β → Bool)
    (xs : List α) :
    (xs.mapM fun x => (f x).filter p) =
      (xs.mapM f).filter (·.all p) := by
  induction xs with
  | nil => rfl
  | cons x xs ih =>
      rw [List.mapM_cons, List.mapM_cons, ih]
      cases f x with
      | none => rfl
      | some y =>
          cases xs.mapM f with
          | none =>
              cases Option.filter p (some y) with
              | none => rfl
              | some z => rfl
          | some ys =>
              by_cases hHead : p y
              · by_cases hTail : ys.all p
                · simp [Option.filter, hHead, hTail]
                · simp [Option.filter, hHead, hTail]
              · simp [Option.filter, hHead]

/- Leaving out nothing before a step is part of the step. -/
theorem mapM_filterMap
    {f : α → Option β}
    {g : β → Option γ}
    {xs : List α}
    (hAll : ∀ x ∈ xs, (f x).isSome) :
    (xs.filterMap f).mapM g =
      xs.mapM fun x => (f x).bind g := by
  induction xs with
  | nil => rfl
  | cons x xs ih =>
      rw [List.forall_mem_cons] at hAll
      rcases Option.isSome_iff_exists.mp hAll.1 with ⟨y, hY⟩
      rw [List.filterMap_cons_some hY, List.mapM_cons,
        List.mapM_cons, ih hAll.2, hY]
      rfl

/- Items that all have a result leave some result. -/
theorem filterMap_ne_nil
    {f : α → Option β}
    {xs : List α}
    (hSome : xs ≠ [])
    (hAll : ∀ x ∈ xs, (f x).isSome) :
    xs.filterMap f ≠ [] := by
  rcases List.exists_mem_of_ne_nil xs hSome with ⟨x, hMem⟩
  rcases Option.isSome_iff_exists.mp (hAll x hMem) with
    ⟨y, hY⟩
  exact List.ne_nil_of_mem
    (List.mem_filterMap.mpr ⟨x, hMem, hY⟩)

/- An item without a result adds a one to a product. -/
theorem prod_filterMap
    {M : Type}
    [Monoid M]
    (f : α → Option β)
    (φ : β → M)
    (xs : List α) :
    ((xs.filterMap f).map φ).prod =
      (xs.map fun x => (f x).elim 1 φ).prod := by
  induction xs with
  | nil => rfl
  | cons x xs ih =>
      rw [List.map_cons, List.prod_cons, ← ih]
      cases hX : f x with
      | none =>
          rw [List.filterMap_cons_none hX, Option.elim_none,
            one_mul]
      | some y =>
          rw [List.filterMap_cons_some hX, List.map_cons,
            List.prod_cons, Option.elim_some]

end Optional

------------------------------------------------------------
-- Points of Opinions
------------------------------------------------------------

namespace Opinion

variable {groups : PairingGroups}

/- The point of the key of an opinion's verifier, if usable. -/
def keyPoint?
    (groups : PairingGroups)
    (keys : List BlsPublicKey)
    (opinion : Opinion) : Option groups.KeyPoint :=
  (keys[opinion.verifier.toNat]?.bind
    groups.decodeKey).filter groups.validKey

/- The point of an opinion's signature, if usable. -/
def signaturePoint?
    (groups : PairingGroups)
    (opinion : Opinion) : Option groups.SignaturePoint :=
  (groups.decodeSignature opinion.signature).filter
    groups.signatureInSubgroup

/- The sum of the keys of some opinions. -/
def keySum
    (groups : PairingGroups)
    (keys : List BlsPublicKey)
    (opinions : List Opinion) : groups.KeyPoint :=
  (opinions.filterMap (·.keyPoint? groups keys)).foldl
    groups.addKeys groups.zeroKey

/- The sum of the signatures of some opinions. -/
def signatureSum
    (groups : PairingGroups)
    (opinions : List Opinion) : groups.SignaturePoint :=
  (opinions.filterMap (·.signaturePoint? groups)).foldl
    groups.addSignatures groups.zeroSignature

theorem keyInSubgroup_of_keyPoint?
    {keys : List BlsPublicKey}
    {opinion : Opinion}
    {k : groups.KeyPoint}
    (hPoint : opinion.keyPoint? groups keys = some k) :
    groups.keyInSubgroup k := by
  have hValid := (Option.filter_eq_some_iff.mp hPoint).2
  exact (Bool.and_eq_true_iff.mp hValid).2

theorem inSubgroup_of_signaturePoint?
    {opinion : Opinion}
    {s : groups.SignaturePoint}
    (hPoint : opinion.signaturePoint? groups = some s) :
    groups.signatureInSubgroup s :=
  (Option.filter_eq_some_iff.mp hPoint).2

end Opinion

/- The points of signatures, which must all be usable. -/
theorem mapM_decodeSignature_iff
    {groups : PairingGroups}
    {opinions : List Opinion}
    {points : List groups.SignaturePoint} :
    ((opinions.map (·.signature)).mapM
        groups.decodeSignature).filter
          (·.all groups.signatureInSubgroup) = some points ↔
      (∀ opinion ∈ opinions,
        (opinion.signaturePoint? groups).isSome) ∧
      opinions.filterMap (·.signaturePoint? groups) =
        points := by
  rw [List.mapM_map, ← mapM_filter]
  exact mapM_eq_some_iff

/- The points of the verifiers' keys, likewise. -/
theorem mapM_decodeKey_iff
    {groups : PairingGroups}
    {keys : List BlsPublicKey}
    {opinions : List Opinion}
    {points : List groups.KeyPoint}
    (hKeys :
      ∀ opinion ∈ opinions,
        opinion.verifier.toNat < keys.length) :
    ((opinions.filterMap fun opinion =>
        keys[opinion.verifier.toNat]?).mapM
          groups.decodeKey).filter
            (·.all groups.validKey) = some points ↔
      (∀ opinion ∈ opinions,
        (opinion.keyPoint? groups keys).isSome) ∧
      opinions.filterMap (·.keyPoint? groups keys) =
        points := by
  have hSome :
      ∀ opinion ∈ opinions,
        keys[opinion.verifier.toNat]?.isSome := by
    intro opinion hMem
    rw [List.getElem?_eq_getElem (hKeys opinion hMem)]
    rfl
  rw [mapM_filterMap hSome, ← mapM_filter]
  exact mapM_eq_some_iff

------------------------------------------------------------
-- Operations on Signatures
------------------------------------------------------------

namespace PairingGroups

variable {groups : PairingGroups}

theorem verify_iff
    {message : Bytes}
    {signature : BlsSignature}
    {key : BlsPublicKey} :
    groups.verify message signature key ↔
      ∃ k s,
        (groups.decodeKey key).filter groups.validKey =
          some k ∧
        (groups.decodeSignature signature).filter
          groups.signatureInSubgroup = some s ∧
        groups.agree k (groups.hash message) s := by
  unfold verify
  cases groups.decodeSignature signature with
  | none => simp
  | some s =>
      cases groups.decodeKey key with
      | none => simp
      | some k =>
          simp only [Option.filter_eq_some_iff,
            Bool.and_eq_true, Option.some.injEq]
          constructor
          · rintro ⟨⟨hMem, hValid⟩, hAgree⟩
            exact ⟨k, s, ⟨rfl, hValid⟩, ⟨rfl, hMem⟩, hAgree⟩
          · rintro ⟨_, _, ⟨rfl, hValid⟩, ⟨rfl, hMem⟩, hAgree⟩
            exact ⟨⟨hMem, hValid⟩, hAgree⟩

/- Signatures have an aggregate when all of them are usable. -/
theorem aggregateSignatures_eq_ok_iff
    {signatures : List BlsSignature}
    {aggregate : BlsSignature}
    (hSome : signatures ≠ []) :
    groups.aggregateSignatures signatures = .ok aggregate ↔
      ∃ points,
        (signatures.mapM groups.decodeSignature).filter
          (·.all groups.signatureInSubgroup) = some points ∧
        groups.encodeSignature
          (points.foldl groups.addSignatures
            groups.zeroSignature) = aggregate := by
  have hEmpty : ¬ signatures.isEmpty := by
    simpa using hSome
  unfold aggregateSignatures
  rw [if_neg hEmpty]
  cases signatures.mapM groups.decodeSignature with
  | none => simp
  | some points =>
      by_cases hAll : points.all groups.signatureInSubgroup
      · simp [Option.filter, hAll]
      · simp [Option.filter, hAll]

theorem verifyAggregate_iff
    {message : Bytes}
    {signature : BlsSignature}
    {keys : List BlsPublicKey} :
    groups.verifyAggregate message signature keys ↔
      ∃ points s,
        (keys.mapM groups.decodeKey).filter
          (·.all groups.validKey) = some points ∧
        (groups.decodeSignature signature).filter
          groups.signatureInSubgroup = some s ∧
        points ≠ [] ∧
        groups.keyIsZero
          (points.foldl groups.addKeys groups.zeroKey) =
            false ∧
        groups.agree
          (points.foldl groups.addKeys groups.zeroKey)
          (groups.hash message) s := by
  unfold verifyAggregate
  cases groups.decodeSignature signature with
  | none => simp
  | some s =>
      cases keys.mapM groups.decodeKey with
      | none => simp
      | some points =>
          simp only [Option.filter_eq_some_iff,
            Bool.and_eq_true, Bool.not_eq_true',
            List.isEmpty_eq_false_iff, Option.some.injEq]
          constructor
          · rintro ⟨⟨⟨⟨hSome, hValid⟩, hMem⟩, hZero⟩, hAgree⟩
            exact ⟨points, s, ⟨rfl, hValid⟩, ⟨rfl, hMem⟩,
              hSome, hZero, hAgree⟩
          · rintro ⟨_, _, ⟨rfl, hValid⟩, ⟨rfl, hMem⟩,
              hSome, hZero, hAgree⟩
            exact ⟨⟨⟨⟨hSome, hValid⟩, hMem⟩, hZero⟩, hAgree⟩

end PairingGroups

/-
  The aggregate check is about the sum of the keys and the
  sum of the signatures, all of which must be usable.
-/
theorem VerificationSession.aggregateVerifies_sums
    {groups : PairingGroups}
    {keys : List BlsPublicKey}
    {message : Bytes}
    {opinions : List Opinion}
    (hSome : opinions ≠ [])
    (hKeys :
      ∀ opinion ∈ opinions,
        opinion.verifier.toNat < keys.length) :
    aggregateVerifies groups keys message opinions ↔
      (∀ opinion ∈ opinions,
        (opinion.keyPoint? groups keys).isSome ∧
          (opinion.signaturePoint? groups).isSome) ∧
      groups.keyIsZero
        (Opinion.keySum groups keys opinions) = false ∧
      ∃ s,
        (groups.decodeSignature
          (groups.encodeSignature
            (Opinion.signatureSum groups opinions))).filter
              groups.signatureInSubgroup = some s ∧
        groups.agree (Opinion.keySum groups keys opinions)
          (groups.hash message) s := by
  have hSignatures : opinions.map (·.signature) ≠ [] := by
    simpa using hSome
  unfold aggregateVerifies
  constructor
  · intro hVerifies
    split at hVerifies
    · rename_i aggregate hSum
      rw [PairingGroups.aggregateSignatures_eq_ok_iff
        hSignatures] at hSum
      rcases hSum with ⟨points, hPoints, rfl⟩
      rw [mapM_decodeSignature_iff] at hPoints
      rcases hPoints with ⟨hUsable, rfl⟩
      rw [PairingGroups.verifyAggregate_iff] at hVerifies
      rcases hVerifies with
        ⟨points, s, hPoints, hS, -, hZero, hAgree⟩
      rw [mapM_decodeKey_iff hKeys] at hPoints
      rcases hPoints with ⟨hUsableKeys, rfl⟩
      refine ⟨?_, hZero, s, hS, hAgree⟩
      intro opinion hMem
      exact ⟨hUsableKeys opinion hMem, hUsable opinion hMem⟩
    · cases hVerifies
  · rintro ⟨hUsable, hZero, s, hS, hAgree⟩
    have hUsableKeys := fun opinion hMem =>
      (hUsable opinion hMem).1
    have hUsableSignatures := fun opinion hMem =>
      (hUsable opinion hMem).2
    have hPoints :=
      (mapM_decodeKey_iff hKeys).mpr ⟨hUsableKeys, rfl⟩
    have hAggregate :=
      (PairingGroups.aggregateSignatures_eq_ok_iff
        hSignatures).mpr
        ⟨_, mapM_decodeSignature_iff.mpr
          ⟨hUsableSignatures, rfl⟩, rfl⟩
    simp only [hAggregate]
    rw [PairingGroups.verifyAggregate_iff]
    exact ⟨_, s, hPoints, hS,
      filterMap_ne_nil hSome hUsableKeys, hZero, hAgree⟩

------------------------------------------------------------
-- Balanced Opinions
------------------------------------------------------------

namespace PairingLaws

variable {groups : PairingGroups}
variable {Target : Type} [CommGroup Target]
variable (laws : PairingLaws groups Target)

/-
  What the aggregate check of opinions on one message tells:
  every key and signature is usable, the keys do not add up to
  zero, and the pairings of the keys with the message have the
  same product as those of the generator with the signatures.
-/
structure Balanced
    (keys : List BlsPublicKey)
    (message : Bytes)
    (opinions : List Opinion) : Prop where
  usable :
    ∀ opinion ∈ opinions,
      (opinion.keyPoint? groups keys).isSome ∧
        (opinion.signaturePoint? groups).isSome
  sum_ne_zero :
    groups.keyIsZero
      (Opinion.keySum groups keys opinions) = false
  product_eq :
    ((opinions.filterMap (·.keyPoint? groups keys)).map
        fun k => laws.pairing k (groups.hash message)).prod =
      ((opinions.filterMap (·.signaturePoint? groups)).map
        (laws.pairing laws.generator)).prod

/- An opinion verifies when its two pairings are equal. -/
theorem verifyOpinion_iff
    {key : BlsPublicKey}
    {opinion : Opinion} :
    verifyOpinion groups opinion key ↔
      ∃ k s,
        (groups.decodeKey key).filter groups.validKey =
          some k ∧
        opinion.signaturePoint? groups = some s ∧
        laws.pairing k
            (groups.hash (opinionMessage opinion.results)) =
          laws.pairing laws.generator s := by
  rw [verifyOpinion, PairingGroups.verify_iff]
  refine exists_congr fun k => exists_congr fun s => ?_
  refine and_congr_right fun hKey => ?_
  refine and_congr_right fun hSignature => ?_
  have hValid := (Option.filter_eq_some_iff.mp hKey).2
  exact laws.agree_iff _
    (Bool.and_eq_true_iff.mp hValid).2
    (Option.filter_eq_some_iff.mp hSignature).2

theorem verifies_iff
    {keys : List BlsPublicKey}
    {opinion : Opinion} :
    VerificationSession.verifies groups keys opinion ↔
      ∃ k s,
        opinion.keyPoint? groups keys = some k ∧
        opinion.signaturePoint? groups = some s ∧
        laws.pairing k
            (groups.hash (opinionMessage opinion.results)) =
          laws.pairing laws.generator s := by
  unfold VerificationSession.verifies Opinion.keyPoint?
  cases keys[opinion.verifier.toNat]? with
  | none => simp
  | some key => exact laws.verifyOpinion_iff

/- The sum of usable keys, under the pairing. -/
theorem pairing_keySum
    (keys : List BlsPublicKey)
    (message : Bytes)
    (opinions : List Opinion) :
    groups.keyInSubgroup
        (Opinion.keySum groups keys opinions) ∧
      laws.pairing (Opinion.keySum groups keys opinions)
          (groups.hash message) =
        ((opinions.filterMap (·.keyPoint? groups keys)).map
          fun k =>
            laws.pairing k (groups.hash message)).prod := by
  have hSum :=
    laws.pairing_sumKeys message
      (opinions.filterMap (·.keyPoint? groups keys))
      groups.zeroKey laws.zeroKey_mem
  rw [laws.pairing_zeroKey, one_mul] at hSum
  apply hSum
  intro k hMem
  rcases List.mem_filterMap.mp hMem with ⟨opinion, -, hK⟩
  exact Opinion.keyInSubgroup_of_keyPoint? hK

/- The sum of usable signatures, likewise. -/
theorem pairing_signatureSum
    (opinions : List Opinion) :
    groups.signatureInSubgroup
        (Opinion.signatureSum groups opinions) ∧
      laws.pairing laws.generator
          (Opinion.signatureSum groups opinions) =
        ((opinions.filterMap (·.signaturePoint? groups)).map
          (laws.pairing laws.generator)).prod := by
  have hSum :=
    laws.pairing_sumSignatures
      (opinions.filterMap (·.signaturePoint? groups))
      groups.zeroSignature laws.zeroSignature_mem
  rw [laws.pairing_zeroSignature, one_mul] at hSum
  apply hSum
  intro s hMem
  rcases List.mem_filterMap.mp hMem with ⟨opinion, -, hS⟩
  exact Opinion.inSubgroup_of_signaturePoint? hS

/-
  The aggregate check of some opinions passes exactly if they
  are balanced.
-/
theorem aggregateVerifies_iff
    {keys : List BlsPublicKey}
    {message : Bytes}
    {opinions : List Opinion}
    (hSome : opinions ≠ [])
    (hKeys :
      ∀ opinion ∈ opinions,
        opinion.verifier.toNat < keys.length) :
    VerificationSession.aggregateVerifies groups keys message
        opinions ↔
      laws.Balanced keys message opinions := by
  rcases laws.pairing_keySum keys message opinions with
    ⟨hKeyMem, hKeyPairing⟩
  rcases laws.pairing_signatureSum opinions with
    ⟨hSignatureMem, hSignaturePairing⟩
  rcases laws.decode_encodeSignature hSignatureMem with
    ⟨t, hDecode, hMem, hPairing⟩
  have hAgree :
      groups.agree (Opinion.keySum groups keys opinions)
          (groups.hash message) t ↔ _ :=
    laws.agree_iff message hKeyMem hMem
  rw [hKeyPairing, hPairing, hSignaturePairing] at hAgree
  rw [VerificationSession.aggregateVerifies_sums hSome hKeys,
    hDecode, Option.filter_some_pos hMem]
  constructor
  · rintro ⟨hUsable, hZero, s, hS, hPassed⟩
    cases hS
    exact ⟨hUsable, hZero, hAgree.mp hPassed⟩
  · rintro ⟨hUsable, hZero, hProduct⟩
    exact ⟨hUsable, hZero, t, rfl, hAgree.mpr hProduct⟩

------------------------------------------------------------
-- Factors
------------------------------------------------------------

/- What the key of an opinion contributes to the product. -/
def keyFactor
    (keys : List BlsPublicKey)
    (message : Bytes)
    (opinion : Opinion) : Target :=
  (opinion.keyPoint? groups keys).elim 1 fun k =>
    laws.pairing k (groups.hash message)

/- What the signature of an opinion contributes. -/
def signatureFactor
    (opinion : Opinion) : Target :=
  (opinion.signaturePoint? groups).elim 1
    (laws.pairing laws.generator)

/- The two factors of an opinion that verifies are equal. -/
theorem factors_eq_of_verifies
    {keys : List BlsPublicKey}
    {opinion : Opinion}
    (hVerifies :
      VerificationSession.verifies groups keys opinion) :
    laws.keyFactor keys (opinionMessage opinion.results)
        opinion =
      laws.signatureFactor opinion := by
  rcases laws.verifies_iff.mp hVerifies with
    ⟨k, s, hKey, hSignature, hPairing⟩
  rw [keyFactor, signatureFactor, hKey, hSignature]
  exact hPairing

/- If both are usable, equal factors make it verify. -/
theorem verifies_of_factors_eq
    {keys : List BlsPublicKey}
    {opinion : Opinion}
    (hKey : (opinion.keyPoint? groups keys).isSome)
    (hSignature : (opinion.signaturePoint? groups).isSome)
    (hFactors :
      laws.keyFactor keys (opinionMessage opinion.results)
          opinion =
        laws.signatureFactor opinion) :
    VerificationSession.verifies groups keys opinion := by
  rcases Option.isSome_iff_exists.mp hKey with ⟨k, hK⟩
  rcases Option.isSome_iff_exists.mp hSignature with ⟨s, hS⟩
  rw [keyFactor, signatureFactor, hK, hS] at hFactors
  exact laws.verifies_iff.mpr ⟨k, s, hK, hS, hFactors⟩

/- The products of balanced opinions, factor by factor. -/
theorem Balanced.prod_factors
    {laws : PairingLaws groups Target}
    {keys : List BlsPublicKey}
    {message : Bytes}
    {opinions : List Opinion}
    (hBalanced : laws.Balanced keys message opinions) :
    (opinions.map (laws.keyFactor keys message)).prod =
      (opinions.map laws.signatureFactor).prod := by
  have hProduct := hBalanced.product_eq
  rw [prod_filterMap, prod_filterMap] at hProduct
  exact hProduct

/-
  Of balanced opinions with the same results, not just one
  fails to verify: the factors of the others cancel.
-/
theorem Balanced.verifies_of_others
    {laws : PairingLaws groups Target}
    {keys : List BlsPublicKey}
    {opinions : List Opinion}
    {opinion : Opinion}
    (hBalanced :
      laws.Balanced keys (opinionMessage opinion.results)
        opinions)
    (hNodup : opinions.Nodup)
    (hSame :
      ∀ other ∈ opinions, other.results = opinion.results)
    (hMem : opinion ∈ opinions)
    (hOthers :
      ∀ other ∈ opinions, other ≠ opinion →
        VerificationSession.verifies groups keys other) :
    VerificationSession.verifies groups keys opinion := by
  have hRest :
      (opinions.erase opinion).map
          (laws.keyFactor keys
            (opinionMessage opinion.results)) =
        (opinions.erase opinion).map
          laws.signatureFactor := by
    apply List.map_congr_left
    intro other hOther
    rcases hNodup.mem_erase_iff.mp hOther with ⟨hNe, hIn⟩
    rw [← hSame other hIn]
    exact laws.factors_eq_of_verifies
      (hOthers other hIn hNe)
  have hProduct := hBalanced.prod_factors
  rw [← List.prod_map_erase _ hMem,
    ← List.prod_map_erase _ hMem, hRest] at hProduct
  have hFactors := mul_right_cancel hProduct
  have hUsable := hBalanced.usable opinion hMem
  exact laws.verifies_of_factors_eq hUsable.1 hUsable.2
    hFactors

end PairingLaws

namespace VerificationSession

------------------------------------------------------------
-- Rounds
------------------------------------------------------------

variable {groups : PairingGroups}
variable {session : VerificationSession}

/- The accepted opinions with the same results as one. -/
def agreeing
    (session : VerificationSession)
    (opinion : Opinion) : List Opinion :=
  session.opinions.values.filter fun other =>
    other.results = opinion.results

theorem mem_agreeing
    {opinion other : Opinion} :
    other ∈ session.agreeing opinion ↔
      other ∈ session.opinions.values ∧
        other.results = opinion.results := by
  simp [agreeing]

/- Those who signed one message agree on all results. -/
theorem signersOf_opinionMessage
    (session : VerificationSession)
    (results : List VerificationResult) :
    session.signersOf (opinionMessage results) =
      session.opinions.values.filter fun opinion =>
        opinion.results = results := by
  rw [signersOf]
  apply List.filter_congr
  intro opinion _
  rw [Bool.eq_iff_iff, beq_iff_eq, decide_eq_true_eq]
  exact ⟨opinionMessage_inj, congrArg opinionMessage⟩

/-
  The check of all signatures passes by the aggregates alone:
  the opinions are checked one by one to name a culprit only.
-/
theorem verifySignatures_eq_ok_iff
    {keys : List BlsPublicKey} :
    session.verifySignatures groups keys = .ok () ↔
      keys.length = session.provers.length ∧
        ∀ message ∈ session.messages,
          aggregateVerifies groups keys message
            (session.signersOf message) := by
  unfold verifySignatures checkKeyCount
  by_cases hCount : keys.length = session.provers.length
  · rw [if_pos hCount, ok_bind, ← List.all_eq_true]
    by_cases hAll :
        session.messages.all fun message =>
          aggregateVerifies groups keys message
            (session.signersOf message)
    · simp only [hAll, hCount, if_true, and_self]
    · simp only [hAll]
      split
      · contradiction
      · split
        · simp
        · simp
  · rw [if_neg hCount, error_bind]
    simp [hCount]

/- It passes when opinions with the same results balance. -/
theorem WellFormed.verifySignatures_iff_balanced
    {Target : Type}
    [CommGroup Target]
    (laws : PairingLaws groups Target)
    (keys : List BlsPublicKey)
    (hSession : session.WellFormed) :
    session.verifySignatures groups keys = .ok () ↔
      keys.length = session.provers.length ∧
        ∀ opinion ∈ session.opinions.values,
          laws.Balanced keys (opinionMessage opinion.results)
            (session.agreeing opinion) := by
  rw [verifySignatures_eq_ok_iff]
  refine and_congr_right fun hCount => ?_
  simp only [messages, List.mem_eraseDups,
    List.forall_mem_map]
  refine forall₂_congr fun opinion hMem => ?_
  rw [signersOf_opinionMessage]
  apply laws.aggregateVerifies_iff
  · exact List.ne_nil_of_mem
      (mem_agreeing.mpr ⟨hMem, rfl⟩)
  · intro other hOther
    rw [hCount]
    exact hSession.verifier_lt (mem_agreeing.mp hOther).1

/-
  What it means that the signatures of a round pass: the
  opinions with the same results are balanced, whichever they
  are.  An opinion then verifies on its own if all others with
  the same results do, so of those that agree never just one
  has a wrong signature.
-/
theorem verifySignatures_sound
    {Target : Type}
    [CommGroup Target]
    (laws : PairingLaws groups Target)
    (keys : List BlsPublicKey)
    (hReachable : Reachable groups session) :
    (session.verifySignatures groups keys = .ok () ↔
      keys.length = session.provers.length ∧
        ∀ opinion ∈ session.opinions.values,
          laws.Balanced keys (opinionMessage opinion.results)
            (session.agreeing opinion)) ∧
    (session.verifySignatures groups keys = .ok () →
      ∀ opinion ∈ session.opinions.values,
        (∀ other ∈ session.agreeing opinion,
          other ≠ opinion → verifies groups keys other) →
        verifies groups keys opinion) := by
  have hSession := hReachable.wellFormed
  have hBalanced :=
    hSession.verifySignatures_iff_balanced laws keys
  refine ⟨hBalanced, ?_⟩
  intro hPassed opinion hMem hOthers
  have hGroup := (hBalanced.mp hPassed).2 opinion hMem
  refine hGroup.verifies_of_others
    (hSession.nodup_values.filter _) ?_ ?_ hOthers
  · intro other hOther
    exact (mem_agreeing.mp hOther).2
  · exact mem_agreeing.mpr ⟨hMem, rfl⟩

------------------------------------------------------------
-- Two Verifiers
------------------------------------------------------------

/- The opinion that two provers passed, signed with a secret. -/
def signedPass
    (groups : PairingGroups)
    (secret : Nat)
    (verifier : UInt16) : Opinion :=
  signOpinion groups secret verifier [⟨0, true⟩, ⟨1, true⟩]

/- The round after both agreed, signing with two secrets. -/
def signedByTwo
    (groups : PairingGroups)
    (first second : Nat) : VerificationSession :=
  let one := (unheardTwo.add (signedPass groups first 0)).2
  (one.add (signedPass groups second 1)).2

theorem signedByTwo_reachable
    (groups : PairingGroups)
    (first second : Nat) :
    Reachable groups (signedByTwo groups first second) := by
  have hStart :
      start (.zero 32) (.zero 32) [.zero 32, .zero 32] =
        .ok unheardTwo := rfl
  exact .add _ (.add _ (.start hStart))

/- The keys of the two verifiers. -/
def keysOfTwo
    (groups : PairingGroups)
    (first second : Nat) : List BlsPublicKey :=
  [groups.publicKey first, groups.publicKey second]

/- Two honest verifiers pass, together and each alone. -/
theorem verifySignatures_sound_honest :
    let session := signedByTwo Residues.groups 1 2
    let keys := keysOfTwo Residues.groups 1 2
    Reachable Residues.groups session ∧
      session.verifySignatures Residues.groups keys =
        .ok () ∧
      ∀ opinion ∈ session.opinions.values,
        Residues.laws.Balanced keys
          (opinionMessage opinion.results)
          (session.agreeing opinion) ∧
        (∀ other ∈ session.agreeing opinion,
          other ≠ opinion →
          verifies Residues.groups keys other) ∧
        verifies Residues.groups keys opinion := by
  intro session keys
  have hReachable : Reachable Residues.groups session :=
    signedByTwo_reachable Residues.groups 1 2
  have hPassed :
      session.verifySignatures Residues.groups keys =
        .ok () := by
    decide +kernel
  have hOthers :
      ∀ opinion ∈ session.opinions.values,
        ∀ other ∈ session.agreeing opinion,
          other ≠ opinion →
          verifies Residues.groups keys other := by
    decide +kernel
  rcases verifySignatures_sound Residues.laws keys
      hReachable with
    ⟨hBalanced, hAlone⟩
  refine ⟨hReachable, hPassed, fun opinion hMem => ?_⟩
  exact ⟨(hBalanced.mp hPassed).2 opinion hMem,
    hOthers opinion hMem,
    hAlone hPassed opinion hMem (hOthers opinion hMem)⟩

/-
  Two verifiers who exchange their signatures pass as well,
  although neither opinion verifies.
-/
theorem verifySignatures_exchanged :
    let session := signedByTwo Residues.groups 2 1
    let keys := keysOfTwo Residues.groups 1 2
    Reachable Residues.groups session ∧
      keys.length = session.provers.length ∧
      session.verifySignatures Residues.groups keys =
        .ok () ∧
      session.opinions.values ≠ [] ∧
      ∀ opinion ∈ session.opinions.values,
        verifies Residues.groups keys opinion = false := by
  intro session keys
  refine ⟨signedByTwo_reachable Residues.groups 2 1, rfl,
    ?_, ?_, ?_⟩
  · decide +kernel
  · decide +kernel
  · decide +kernel

end VerificationSession

end DriveMarket
