import DriveMarket.Proofs.Ordered.Keys
import DriveMarket.Proofs.Results
import DriveMarket.Replicator

/-
  The indices of the drives that a replicator joins.

  The index of a drive that joins is recomputed from the
  drives served at that moment, whatever was added or removed
  before.  It is the least index above all of theirs, as long
  as there is one: where a drive already has the last index
  that 32 bits reach, the next to join shares that one.

  Key definitions include:
    * `Replicator.Action`
    * `Replicator.after`
    * `Replicator.joined`
    * `Replicator.Before`
    * `Replicator.JoinsInOrder`

  Correctness is proven by:
    * `Replicator.toNat_nextIndex_le_iff`
    * `Replicator.index_lt_nextIndex`
    * `Replicator.addDrive_eq_ok_iff`
    * `Replicator.Ordered.act`
    * `Replicator.joinsInOrder_after`
-/

namespace DriveMarket

namespace Replicator

------------------------------------------------------------
-- Actions
------------------------------------------------------------

/- What can be asked of a replicator. -/
inductive Action where
  | add (drive : PublicKey) (info : DriveInfo)
  | join (drive : PublicKey) (work : UInt64)
  | remove (drive : PublicKey)

/- The replicator after an action, which may be refused. -/
def act
    (replicator : Replicator) : Action → Replicator
  | .add drive info =>
      match replicator.addDrive drive info with
      | .ok after => after
      | .error _ => replicator
  | .join drive work =>
      match replicator.joinDrive drive work with
      | .ok (_, after) => after
      | .error _ => replicator
  | .remove drive => replicator.removeDrive drive

/- The replicator after some actions. -/
def after
    (replicator : Replicator)
    (actions : List Action) : Replicator :=
  actions.foldl act replicator

/-
  Of drives that have joined, those that are served after an
  action, with the one that joins by it behind them.
-/
def stillJoined
    (replicator : Replicator)
    (drives : List PublicKey) : Action → List PublicKey
  | .add _ _ => drives
  | .join drive work =>
      match replicator.joinDrive drive work with
      | .ok _ => drives ++ [drive]
      | .error _ => drives
  | .remove drive => drives.filter (· ≠ drive)

/-
  The drives that joined by some actions and are still served,
  in the order of joining, behind those that had joined.
-/
def joined :
    Replicator →
    List PublicKey →
    List Action →
    List PublicKey
  | _, drives, [] => drives
  | replicator, drives, action :: actions =>
      joined (replicator.act action)
        (replicator.stillJoined drives action) actions

/- The largest index there is. -/
def lastIndex : UInt32 :=
  UInt32.ofNat topIndex

/-
  Whether a served drive comes before another: it has a
  smaller index, or both have the last index.
-/
def Before
    (replicator : Replicator)
    (a b : PublicKey) : Prop :=
  ∃ first second,
    replicator.info? a = some first ∧
    replicator.info? b = some second ∧
    (first.index < second.index ∨
      first.index = lastIndex ∧ second.index = lastIndex)

variable {replicator next : Replicator}

------------------------------------------------------------
-- The Next Index
------------------------------------------------------------

/- The values of a map are what is found under its keys. -/
theorem mem_values_iff
    {info : DriveInfo} :
    info ∈ replicator.drives.values ↔
      ∃ drive, replicator.info? drive = some info := by
  simp only [info?, OrderedMap.get?_eq_some_iff]
  unfold OrderedMap.values
  rw [List.mem_map]
  constructor
  · rintro ⟨⟨drive, _⟩, hMem, rfl⟩
    exact ⟨drive, hMem⟩
  · rintro ⟨drive, hMem⟩
    exact ⟨(drive, info), hMem, rfl⟩

theorem foldl_max_le_iff
    {α : Type}
    (f : α → Nat)
    (items : List α)
    (n bound : Nat) :
    items.foldl (fun next item => max next (f item)) n ≤
        bound ↔
      n ≤ bound ∧ ∀ item ∈ items, f item ≤ bound := by
  induction items generalizing n with
  | nil => simp
  | cons item items ih =>
      rw [List.foldl_cons, ih, Nat.max_le,
        List.forall_mem_cons, and_assoc]

/- The next index is the least that no served drive forbids. -/
theorem toNat_nextIndex_le_iff
    (bound : Nat) :
    replicator.nextIndex.toNat ≤ bound ↔
      ∀ drive info,
        replicator.info? drive = some info →
        min (info.index.toNat + 1) topIndex ≤ bound := by
  have hTop :=
    (foldl_max_le_iff
      (fun info : DriveInfo =>
        min (info.index.toNat + 1) topIndex)
      replicator.drives.values 0 topIndex).mpr
      ⟨Nat.zero_le _, fun _ _ => Nat.min_le_right _ _⟩
  have hFits :
      ∀ n, n ≤ topIndex → (UInt32.ofNat n).toNat = n := by
    intro n hBound
    have hLess : n < 0x100000000 := Nat.lt_succ_of_le hBound
    exact UInt32.toNat_ofNat_of_lt' hLess
  rw [nextIndex, hFits _ hTop, foldl_max_le_iff]
  simp only [Nat.zero_le, true_and, mem_values_iff,
    forall_exists_index]
  exact forall_comm

/- The next index is above that of any drive, if it can be. -/
theorem index_lt_nextIndex
    {drive : PublicKey}
    {info : DriveInfo}
    (hInfo : replicator.info? drive = some info) :
    info.index < replicator.nextIndex ∨
      info.index = lastIndex ∧
        replicator.nextIndex = lastIndex := by
  have hLast : lastIndex.toNat = topIndex := rfl
  have hTop : topIndex = 0xffffffff := rfl
  have hNext := replicator.nextIndex.toNat_lt
  have hIndex := info.index.toNat_lt
  have hAbove :=
    (toNat_nextIndex_le_iff _).mp
      (Nat.le_refl replicator.nextIndex.toNat) drive info hInfo
  rw [UInt32.lt_iff_toNat_lt, ← UInt32.toNat_inj,
    ← UInt32.toNat_inj, hLast]
  omega

------------------------------------------------------------
-- Single Actions
------------------------------------------------------------

/- A drive is added exactly if it is not served yet. -/
theorem addDrive_eq_ok_iff
    {drive : PublicKey}
    {info : DriveInfo} :
    replicator.addDrive drive info = .ok next ↔
      replicator.info? drive = none ∧
        next =
          { replicator with
            drives := replicator.drives.insert drive info } := by
  unfold addDrive OrderedMap.contains info?
  cases replicator.drives.get? drive with
  | none => simp [eq_comm]
  | some old => simp

theorem addDrive_eq_error_iff
    {drive : PublicKey}
    {info : DriveInfo}
    {cause : ModelError} :
    replicator.addDrive drive info = .error cause ↔
      (replicator.info? drive).isSome ∧
        cause = .duplicateDrive drive := by
  unfold addDrive OrderedMap.contains info?
  cases replicator.drives.get? drive with
  | none => simp
  | some old => simp [eq_comm]

/- A drive joins as one that is added at the next index. -/
theorem joinDrive_eq_ok_iff
    {drive : PublicKey}
    {work : UInt64}
    {index : UInt32} :
    replicator.joinDrive drive work = .ok (index, next) ↔
      index = replicator.nextIndex ∧
        replicator.addDrive drive (.joined index work) =
          .ok next := by
  unfold joinDrive
  rw [bind_eq_ok_iff]
  constructor
  · rintro ⟨_, hAdd, ⟨⟩⟩
    exact ⟨rfl, hAdd⟩
  · rintro ⟨rfl, hAdd⟩
    exact ⟨next, hAdd, rfl⟩

theorem joinDrive_eq_error_iff
    {drive : PublicKey}
    {work : UInt64}
    {cause : ModelError} :
    replicator.joinDrive drive work = .error cause ↔
      (replicator.info? drive).isSome ∧
        cause = .duplicateDrive drive := by
  unfold joinDrive
  rw [bind_eq_error_iff, ← addDrive_eq_error_iff]
  constructor
  · rintro (hAdd | ⟨_, -, ⟨⟩⟩)
    exact hAdd
  · exact .inl

/- A drive that is served can neither join nor be added. -/
theorem act_of_served
    {drive : PublicKey}
    (hServed : (replicator.info? drive).isSome) :
    (∀ work, replicator.act (.join drive work) = replicator) ∧
      ∀ info, replicator.act (.add drive info) = replicator := by
  constructor
  · intro work
    have hJoin : replicator.joinDrive drive work = .error _ :=
      joinDrive_eq_error_iff.mpr ⟨hServed, rfl⟩
    dsimp only [act]
    rw [hJoin]
  · intro info
    have hAdd : replicator.addDrive drive info = .error _ :=
      addDrive_eq_error_iff.mpr ⟨hServed, rfl⟩
    dsimp only [act]
    rw [hAdd]

/- Adding a drive tells about it and no other. -/
theorem info?_of_addDrive
    {drive : PublicKey}
    {info : DriveInfo}
    (hAdd : replicator.addDrive drive info = .ok next) :
    next.info? drive = some info ∧
      ∀ other, other ≠ drive →
        next.info? other = replicator.info? other := by
  rcases addDrive_eq_ok_iff.mp hAdd with ⟨-, rfl⟩
  constructor
  · exact OrderedMap.get?_insert_self _ drive info
  · intro other hNe
    exact OrderedMap.get?_insert_of_ne _ info hNe

theorem info?_removeDrive_of_ne
    {drive other : PublicKey}
    (hNe : other ≠ drive) :
    (replicator.removeDrive drive).info? other =
      replicator.info? other := by
  unfold info? removeDrive
  rw [OrderedMap.get?_erase,
    if_pos (OrderedKey.lt_or_lt_iff_ne.mpr hNe)]

------------------------------------------------------------
-- Any Actions
------------------------------------------------------------

/- Drives that are all served, and come one before the other. -/
structure Ordered
    (replicator : Replicator)
    (drives : List PublicKey) : Prop where
  served :
    ∀ drive ∈ drives, (replicator.info? drive).isSome
  before : drives.Pairwise replicator.Before

namespace Ordered

variable {drives : List PublicKey}

/- What is told about the drives decides their order. -/
theorem congr
    (hOrdered : Ordered replicator drives)
    (hSame :
      ∀ drive ∈ drives,
        next.info? drive = replicator.info? drive) :
    Ordered next drives := by
  constructor
  · intro drive hMem
    rw [hSame drive hMem]
    exact hOrdered.served drive hMem
  · refine hOrdered.before.imp_of_mem ?_
    rintro a b hA hB ⟨first, second, hFirst, hSecond, hLess⟩
    rw [← hSame a hA] at hFirst
    rw [← hSame b hB] at hSecond
    exact ⟨first, second, hFirst, hSecond, hLess⟩

/- Adding another drive does not change the order. -/
theorem addDrive
    {drive : PublicKey}
    {info : DriveInfo}
    (hOrdered : Ordered replicator drives)
    (hAdd : replicator.addDrive drive info = .ok next) :
    Ordered next drives := by
  refine hOrdered.congr fun other hMem => ?_
  refine (info?_of_addDrive hAdd).2 other ?_
  rintro rfl
  have hServed := hOrdered.served other hMem
  rw [(addDrive_eq_ok_iff.mp hAdd).1] at hServed
  cases hServed

/- A drive that joins comes behind all that have joined. -/
theorem joinDrive
    {drive : PublicKey}
    {work : UInt64}
    {index : UInt32}
    (hOrdered : Ordered replicator drives)
    (hJoin :
      replicator.joinDrive drive work = .ok (index, next)) :
    Ordered next (drives ++ [drive]) := by
  rcases joinDrive_eq_ok_iff.mp hJoin with ⟨rfl, hAdd⟩
  have hNew := (info?_of_addDrive hAdd).1
  have hOld := hOrdered.addDrive hAdd
  constructor
  · intro other hMem
    rw [List.mem_append, List.mem_singleton] at hMem
    rcases hMem with hMem | rfl
    · exact hOld.served other hMem
    · rw [hNew]
      rfl
  · refine List.pairwise_append.mpr
      ⟨hOld.before, List.pairwise_singleton _ _, ?_⟩
    intro other hMem last hLast
    rw [List.mem_singleton] at hLast
    subst hLast
    rcases Option.isSome_iff_exists.mp
      (hOrdered.served other hMem) with ⟨info, hInfo⟩
    have hNe : other ≠ last := by
      rintro rfl
      rw [(addDrive_eq_ok_iff.mp hAdd).1] at hInfo
      cases hInfo
    have hKept := (info?_of_addDrive hAdd).2 other hNe
    rw [hInfo] at hKept
    exact ⟨info, _, hKept, hNew, index_lt_nextIndex hInfo⟩

/- Removing a drive leaves the others in order. -/
theorem removeDrive
    (hOrdered : Ordered replicator drives)
    (drive : PublicKey) :
    Ordered (replicator.removeDrive drive)
      (drives.filter (· ≠ drive)) := by
  have hOthers :
      Ordered replicator (drives.filter (· ≠ drive)) :=
    ⟨fun other hMem =>
        hOrdered.served other (List.mem_of_mem_filter hMem),
      hOrdered.before.filter _⟩
  refine hOthers.congr fun other hMem => ?_
  exact info?_removeDrive_of_ne (by
    simpa using (List.mem_filter.mp hMem).2)

/- Whatever is asked, drives that have joined stay in order. -/
theorem act
    (hOrdered : Ordered replicator drives)
    (action : Action) :
    Ordered (replicator.act action)
      (replicator.stillJoined drives action) := by
  cases action with
  | add drive info =>
      dsimp only [Replicator.act, stillJoined]
      cases hAdd : replicator.addDrive drive info with
      | error cause => exact hOrdered
      | ok next => exact hOrdered.addDrive hAdd
  | join drive work =>
      dsimp only [Replicator.act, stillJoined]
      cases hJoin : replicator.joinDrive drive work with
      | error cause => exact hOrdered
      | ok found => exact hOrdered.joinDrive hJoin
  | remove drive => exact hOrdered.removeDrive drive

theorem after
    (hOrdered : Ordered replicator drives)
    (actions : List Action) :
    Ordered (replicator.after actions)
      (replicator.joined drives actions) := by
  induction actions generalizing replicator drives with
  | nil => exact hOrdered
  | cons action actions ih => exact ih (hOrdered.act action)

end Ordered

/-
  What is known of joining after some actions on a replicator
  that served nothing.
-/
structure JoinsInOrder
    (start : Replicator)
    (actions : List Action) : Prop where
  -- A drive that joins is kept under the index that is told.
  stored :
    ∀ drive work index next,
      (start.after actions).joinDrive drive work =
        .ok (index, next) →
      next.info? drive = some (.joined index work) ∧
        ∀ other, other ≠ drive →
          next.info? other =
            (start.after actions).info? other
  -- The index is above all others, unless the last is in use.
  above :
    ∀ drive work index next,
      (start.after actions).joinDrive drive work =
        .ok (index, next) →
      ∀ other info,
        (start.after actions).info? other = some info →
        info.index < index ∨
          info.index = lastIndex ∧ index = lastIndex
  -- It is no larger than it has to be.
  least :
    ∀ drive work index next,
      (start.after actions).joinDrive drive work =
        .ok (index, next) →
      ∀ bound : UInt32,
        (∀ other info,
          (start.after actions).info? other = some info →
          info.index < bound) →
        index ≤ bound
  -- Only a drive that is served is refused, without effect.
  refusedJoin :
    ∀ drive work cause,
      (start.after actions).joinDrive drive work =
          .error cause ↔
        ((start.after actions).info? drive).isSome ∧
          cause = .duplicateDrive drive
  refusedAdd :
    ∀ drive info cause,
      (start.after actions).addDrive drive info =
          .error cause ↔
        ((start.after actions).info? drive).isSome ∧
          cause = .duplicateDrive drive
  unchanged :
    ∀ drive,
      ((start.after actions).info? drive).isSome →
      (∀ work,
        start.after (actions ++ [.join drive work]) =
          start.after actions) ∧
      (∀ info,
        start.after (actions ++ [.add drive info]) =
          start.after actions)
  -- Drives that have joined are in the order of joining.
  inOrder :
    (start.joined [] actions).Pairwise
      (start.after actions).Before

/- Whatever is added and removed, drives join in order. -/
theorem joinsInOrder_after
    (key : PublicKey)
    (version : Int32)
    (capacity : Amount)
    (blsKey : Option BlsPublicKey)
    (actions : List Action) :
    JoinsInOrder (idle key version capacity blsKey)
      actions := by
  have hOrdered :
      Ordered (idle key version capacity blsKey) [] :=
    ⟨List.forall_mem_nil _, List.Pairwise.nil⟩
  constructor
  case stored =>
    intro drive work index next hJoin
    exact info?_of_addDrive (joinDrive_eq_ok_iff.mp hJoin).2
  case above =>
    intro drive work index next hJoin other info hInfo
    rcases joinDrive_eq_ok_iff.mp hJoin with ⟨rfl, -⟩
    exact index_lt_nextIndex hInfo
  case least =>
    intro drive work index next hJoin bound hBound
    rcases joinDrive_eq_ok_iff.mp hJoin with ⟨rfl, -⟩
    rw [UInt32.le_iff_toNat_le, toNat_nextIndex_le_iff]
    intro other info hInfo
    have hLess := hBound other info hInfo
    rw [UInt32.lt_iff_toNat_lt] at hLess
    omega
  case refusedJoin =>
    exact fun _ _ _ => joinDrive_eq_error_iff
  case refusedAdd =>
    exact fun _ _ _ => addDrive_eq_error_iff
  case unchanged =>
    intro drive hServed
    rcases act_of_served hServed with ⟨hJoin, hAdd⟩
    simp only [Replicator.after, List.foldl_concat]
      at hJoin hAdd ⊢
    exact ⟨hJoin, hAdd⟩
  case inOrder =>
    exact (hOrdered.after actions).before

/-
  Two drives joined, and the first of them was removed.  The
  next to join comes behind the one that is left.
-/
theorem joinsInOrder_after_removal :
    let first : PublicKey := .zero 32
    let second : PublicKey := ⟨List.replicate 32 1, rfl⟩
    let third : PublicKey := ⟨List.replicate 32 2, rfl⟩
    let start := idle (.zero 32) 2 ⟨500⟩ none
    let served :=
      start.after
        [.join first 10, .join second 10, .remove first]
    ∃ next,
      served.joinDrive third 0 = .ok (2, next) ∧
      next.info? third = some (.joined 2 0) ∧
      served.info? second = some (.joined 1 10) ∧
      ∀ other info,
        served.info? other = some info → info.index < 2 := by
  intro first second third start served
  have hOrder :=
    joinsInOrder_after (.zero 32) 2 ⟨500⟩ none
      [.join first 10, .join second 10, .remove first]
  have hJoin :
      ∃ next, served.joinDrive third 0 = .ok (2, next) :=
    ⟨_, rfl⟩
  rcases hJoin with ⟨next, hJoin⟩
  refine ⟨next, hJoin, (hOrder.stored third 0 2 next hJoin).1,
    rfl, ?_⟩
  intro other info hInfo
  rcases hOrder.above third 0 2 next hJoin other info hInfo
    with hLess | ⟨-, hLast⟩
  · exact hLess
  · exact absurd hLast (by decide)

/-
  The index of a drive that joins is not always above all
  others: none is above the last one.
-/
theorem joined_not_above :
    ¬ ∀ actions drive work index next,
      let served :=
        (idle (.zero 32) 0 ⟨0⟩ none).after actions
      served.joinDrive drive work = .ok (index, next) →
        ∀ other info,
          served.info? other = some info →
          info.index < index := by
  intro hAbove
  have hLess :=
    hAbove [.add (.zero 32) (.joined lastIndex 0)]
      ⟨List.replicate 32 1, rfl⟩ 0 lastIndex _ rfl
      (.zero 32) (.joined lastIndex 0) rfl
  exact absurd hLess (by decide)

end Replicator

end DriveMarket
