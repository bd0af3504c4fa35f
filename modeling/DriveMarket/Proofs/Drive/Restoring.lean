import DriveMarket.Json.Drives
import DriveMarket.Proofs.Drive.Modifications
import DriveMarket.Proofs.Json.Restoring

/-
  Drives that are restored from their records.

  A drive takes lists of modifications exactly as they are,
  or refuses them for the first active one that repeats an
  earlier one or is completed already.  Adding and completing
  never lead to lists that it would refuse, so a drive is read
  back from its own record.

  Key definitions include:
    * `Drive.Consistent`
    * `Drive.Offends`
    * `Drive.FirstOffence`
    * `Drive.Reachable`

  Correctness is proven by:
    * `Drive.addAll_eq_ok_iff`
    * `Drive.addAll_eq_error_iff`
    * `Drive.Reachable.consistent`
    * `Drive.form_restores`
    * `Drive.restored_exactly`
-/

namespace DriveMarket

namespace Drive

variable {drive after : Drive}
variable {modification : Modification}
variable {active more : List Modification}
variable {completed : List CompletedModification}
variable {cause : ModelError}

------------------------------------------------------------
-- Consistent Lists
------------------------------------------------------------

/- Active ids that all differ, none of which is completed. -/
structure Consistent
    (active : List Modification)
    (completed : List CompletedModification) : Prop where
  nodup : (active.map (·.id)).Nodup
  apart :
    ∀ modification ∈ active,
      modification.id ∉ completed.map (·.id)

/-
  Why a modification cannot be active behind others: it is
  completed, which is looked at first, or it repeats an id.
-/
inductive Offends
    (earlier : List Modification)
    (completed : List CompletedModification)
    (modification : Modification) : ModelError → Prop
  | completed
      (hCompleted :
        modification.id ∈ completed.map (·.id)) :
      Offends earlier completed modification
        (.alreadyCompleted modification.id .active)
  | repeated
      (hNot : modification.id ∉ completed.map (·.id))
      (hRepeated : modification.id ∈ earlier.map (·.id)) :
      Offends earlier completed modification
        (.duplicateModification modification.id)

/- The first active modification that offends, and why. -/
def FirstOffence
    (active : List Modification)
    (completed : List CompletedModification)
    (cause : ModelError) : Prop :=
  ∃ earlier modification later,
    active = earlier ++ modification :: later ∧
    Consistent earlier completed ∧
    Offends earlier completed modification cause

theorem consistent_nil
    (completed : List CompletedModification) :
    Consistent [] completed :=
  ⟨List.nodup_nil, List.forall_mem_nil _⟩

theorem Consistent.of_append
    (hBoth : Consistent (active ++ more) completed) :
    Consistent active completed := by
  rcases hBoth with ⟨hNodup, hApart⟩
  rw [List.map_append] at hNodup
  rw [List.forall_mem_append] at hApart
  exact ⟨hNodup.of_append_left, hApart.1⟩

/- One more active modification needs an id of its own. -/
theorem consistent_append_singleton_iff :
    Consistent (active ++ [modification]) completed ↔
      Consistent active completed ∧
        modification.id ∉ active.map (·.id) ∧
        modification.id ∉ completed.map (·.id) := by
  constructor
  · intro hBoth
    refine ⟨hBoth.of_append, ?_, ?_⟩
    · have hNodup := hBoth.nodup
      rw [List.map_append, List.map_singleton,
        ← List.concat_eq_append, List.nodup_concat] at hNodup
      exact hNodup.1
    · exact hBoth.apart modification (by simp)
  · rintro ⟨⟨hNodup, hApart⟩, hNew, hNot⟩
    constructor
    · rw [List.map_append, List.map_singleton,
        ← List.concat_eq_append, List.nodup_concat]
      exact ⟨hNew, hNodup⟩
    · rw [List.forall_mem_append]
      exact ⟨hApart, by simpa using hNot⟩

------------------------------------------------------------
-- Adding One after the Other
------------------------------------------------------------

theorem add_eq_error_iff :
    drive.add modification = .error cause ↔
      Offends drive.active drive.completed modification
        cause := by
  have hActive :
      drive.active.any (·.id == modification.id) ↔
        modification.id ∈ drive.active.map (·.id) := by
    simp
  unfold add
  constructor
  · intro hError
    by_cases hCompleted : drive.isCompleted modification.id
    · rw [if_pos hCompleted] at hError
      cases hError
      exact .completed (isCompleted_iff.mp hCompleted)
    rw [if_neg hCompleted] at hError
    by_cases hRepeated :
        drive.active.any (·.id == modification.id)
    · rw [if_pos hRepeated] at hError
      cases hError
      rw [isCompleted_iff] at hCompleted
      exact .repeated hCompleted (hActive.mp hRepeated)
    · rw [if_neg hRepeated] at hError
      cases hError
  · intro hOffends
    cases hOffends with
    | completed hCompleted =>
        rw [if_pos (isCompleted_iff.mpr hCompleted)]
    | repeated hNot hRepeated =>
        rw [← isCompleted_iff] at hNot
        rw [if_neg hNot, if_pos (hActive.mpr hRepeated)]

theorem add_eq_ok_iff
    (hConsistent : Consistent drive.active drive.completed) :
    drive.add modification = .ok after ↔
      Consistent (drive.active ++ [modification])
          drive.completed ∧
        after =
          { drive with
            active := drive.active ++ [modification] } := by
  rw [consistent_append_singleton_iff]
  constructor
  · intro hAdd
    rcases add_eq_ok hAdd with ⟨hNew, hAfter⟩
    have hIds :
        drive.ids =
          drive.active.map (·.id) ++
            drive.completed.map (·.id) := by
      unfold ids records
      rw [List.map_append, List.map_map]
      rfl
    rw [hIds, List.mem_append, not_or] at hNew
    exact ⟨⟨hConsistent, hNew⟩, hAfter⟩
  · rintro ⟨⟨-, hNew, hNot⟩, rfl⟩
    cases hAdd : drive.add modification with
    | error cause =>
        cases add_eq_error_iff.mp hAdd with
        | completed hCompleted => exact absurd hCompleted hNot
        | repeated _ hRepeated => exact absurd hRepeated hNew
    | ok next => rw [(add_eq_ok hAdd).2]

/- Modifications are all added if the lists stay consistent. -/
theorem addAll_eq_ok_iff
    (hConsistent : Consistent drive.active drive.completed) :
    drive.addAll more = .ok after ↔
      Consistent (drive.active ++ more) drive.completed ∧
        after =
          { drive with active := drive.active ++ more } := by
  unfold addAll
  induction more generalizing drive with
  | nil =>
      rw [List.append_nil]
      constructor
      · rintro ⟨⟩
        exact ⟨hConsistent, rfl⟩
      · rintro ⟨-, rfl⟩
        rfl
  | cons modification more ih =>
      rw [List.foldlM_cons, bind_eq_ok_iff]
      constructor
      · rintro ⟨next, hAdd, hRest⟩
        rcases (add_eq_ok_iff hConsistent).mp hAdd with
          ⟨hNext, rfl⟩
        have hAll := (ih hNext).mp hRest
        rwa [List.append_assoc] at hAll
      · rintro ⟨hAll, rfl⟩
        rw [List.append_cons] at hAll
        have hNext := hAll.of_append
        refine ⟨{ drive with
          active := drive.active ++ [modification] }, ?_, ?_⟩
        · exact (add_eq_ok_iff hConsistent).mpr ⟨hNext, rfl⟩
        · refine (ih ?_).mpr ⟨?_, ?_⟩
          · exact hNext
          · exact hAll
          · rw [List.append_cons]

/- The first that cannot be added decides why not. -/
theorem addAll_eq_error_iff
    (hConsistent : Consistent drive.active drive.completed) :
    drive.addAll more = .error cause ↔
      ∃ earlier modification later,
        more = earlier ++ modification :: later ∧
        Consistent (drive.active ++ earlier)
          drive.completed ∧
        Offends (drive.active ++ earlier) drive.completed
          modification cause := by
  unfold addAll
  induction more generalizing drive with
  | nil =>
      constructor
      · rintro ⟨⟩
      · rintro ⟨earlier, modification, later, hMore, -⟩
        cases earlier with
        | nil => cases hMore
        | cons => cases hMore
  | cons first more ih =>
      rw [List.foldlM_cons, bind_eq_error_iff]
      constructor
      · rintro (hAdd | ⟨next, hAdd, hRest⟩)
        · refine ⟨[], first, more, rfl, ?_, ?_⟩
          · rwa [List.append_nil]
          · rw [List.append_nil]
            exact add_eq_error_iff.mp hAdd
        · rcases (add_eq_ok_iff hConsistent).mp hAdd with
            ⟨hNext, rfl⟩
          rcases (ih hNext).mp hRest with
            ⟨earlier, modification, later, rfl, hFirst⟩
          refine ⟨first :: earlier, modification, later, rfl,
            ?_⟩
          rwa [List.append_assoc] at hFirst
      · rintro ⟨earlier, modification, later, hMore, hBefore,
          hOffends⟩
        cases earlier with
        | nil =>
            cases hMore
            rw [List.append_nil] at hOffends
            exact .inl (add_eq_error_iff.mpr hOffends)
        | cons _ earlier =>
            cases hMore
            rw [List.append_cons] at hBefore hOffends
            have hNext := hBefore.of_append
            refine .inr ⟨{ drive with
              active := drive.active ++ [first] }, ?_, ?_⟩
            · exact (add_eq_ok_iff hConsistent).mpr
                ⟨hNext, rfl⟩
            · refine (ih ?_).mpr ?_
              · exact hNext
              · exact ⟨earlier, modification, later, rfl,
                  hBefore, hOffends⟩

------------------------------------------------------------
-- Records of Drives
------------------------------------------------------------

theorem withModifications_eq_ok_iff :
    drive.withModifications active completed = .ok after ↔
      Consistent active completed ∧
        after =
          { drive with
            active := active
            completed := completed } :=
  addAll_eq_ok_iff (consistent_nil completed)

theorem withModifications_eq_error_iff :
    drive.withModifications active completed =
        .error cause ↔
      FirstOffence active completed cause :=
  addAll_eq_error_iff (consistent_nil completed)

/- A drive is read if its lists are consistent. -/
theorem read_form_eq_ok_iff
    {value : JsonValue} :
    form.read value = .ok drive ↔
      fields.form.read value = .ok drive ∧
        Consistent drive.active drive.completed := by
  unfold form JsonForm.checked
  rw [bind_eq_ok_iff]
  constructor
  · rintro ⟨record, hRecord, hRule⟩
    rw [mapError_eq_ok_iff, withModifications_eq_ok_iff]
      at hRule
    rcases hRule with ⟨hConsistent, rfl⟩
    exact ⟨hRecord, hConsistent⟩
  · rintro ⟨hRecord, hConsistent⟩
    refine ⟨drive, hRecord, ?_⟩
    rw [mapError_eq_ok_iff, withModifications_eq_ok_iff]
    exact ⟨hConsistent, rfl⟩

/- A record with all its fields is refused for its lists. -/
theorem read_form_eq_error_iff
    {value : JsonValue}
    {record : Drive}
    {fault : JsonFault}
    (hRecord : fields.form.read value = .ok record) :
    form.read value = .error fault ↔
      ∃ cause,
        fault = .refused cause ∧
          FirstOffence record.active record.completed
            cause := by
  unfold form JsonForm.checked
  dsimp only
  rw [hRecord, ok_bind, mapError_eq_error_iff]
  simp only [withModifications_eq_error_iff]
  constructor
  · rintro ⟨cause, hOffence, rfl⟩
    exact ⟨cause, rfl, hOffence⟩
  · rintro ⟨cause, rfl, hOffence⟩
    exact ⟨cause, hOffence, rfl⟩

end Drive

open RecordFields (Restores)

theorem Modification.form_restores
    (modification : Modification) :
    Modification.form.Restores modification (.ok ()) :=
  Restores.map Modification.mk
      (.field "id" (Digest.form_restores modification.id))
    |>.seq (.field "owner"
      (Digest.form_restores modification.owner))
    |>.seq (.field "download_data_cdi"
      (Digest.form_restores modification.downloadData))
    |>.seq (.field "upload_size"
      (StorageSize.form_restores modification.uploadSize))
    |>.form (by decide)

theorem ModificationOutcome.form_restores
    (outcome : ModificationOutcome) :
    ModificationOutcome.form.Restores outcome (.ok ()) :=
  JsonForm.restores_named outcome.ofName?_name

theorem CompletedModification.form_restores
    (completed : CompletedModification) :
    CompletedModification.form.Restores completed (.ok ()) :=
  Restores.map CompletedModification.mk
      (.field "modification"
        (Modification.form_restores completed.modification))
    |>.seq (.field "state"
      (ModificationOutcome.form_restores completed.outcome))
    |>.form (by decide)

namespace Drive

variable {drive after : Drive}

theorem fields_restore
    (drive : Drive) :
    fields.form.Restores drive (.ok ()) :=
  Restores.map Drive.mk
      (.field "drive_key" (Digest.form_restores drive.key))
    |>.seq (.field "owner" (Digest.form_restores drive.owner))
    |>.seq (.field "root_hash"
      (Digest.form_restores drive.rootHash))
    |>.seq (.field "drive_size"
      (StorageSize.form_restores drive.size))
    |>.seq (.field "used_size"
      (StorageSize.form_restores drive.usedSize))
    |>.seq (.field "meta_files_size"
      (StorageSize.form_restores drive.metaFilesSize))
    |>.seq (.field "replicator_count"
      (JsonForm.restores_uint16 drive.replicatorCount))
    |>.seq (.field "active_data_modifications"
      (JsonForm.restores_list Modification.form_restores
        drive.active))
    |>.seq (.field "completed_data_modifications"
      (JsonForm.restores_list
        CompletedModification.form_restores drive.completed))
    |>.form (by decide)

/- A drive with consistent lists is read from its own record. -/
theorem form_restores
    (hConsistent : Consistent drive.active drive.completed) :
    form.read (form.write drive) = .ok drive :=
  read_form_eq_ok_iff.mpr ⟨fields_restore drive, hConsistent⟩

------------------------------------------------------------
-- Drives That Have Changed
------------------------------------------------------------

/-
  The drives that adding and completing lead to from one that
  was just prepared, or whose lists or record were accepted.
-/
inductive Reachable : Drive → Prop
  | prepared
      (key owner : PublicKey)
      (size : StorageSize)
      (replicatorCount : UInt16) :
      Reachable (prepared key owner size replicatorCount)
  | accepted
      {drive after : Drive}
      {active : List Modification}
      {completed : List CompletedModification}
      (hAccepted :
        drive.withModifications active completed =
          .ok after) :
      Reachable after
  | read
      {drive : Drive}
      {value : JsonValue}
      (hRead : form.read value = .ok drive) :
      Reachable drive
  | add
      {drive after : Drive}
      {modification : Modification}
      (hDrive : Reachable drive)
      (hAdd : drive.add modification = .ok after) :
      Reachable after
  | complete
      {drive after : Drive}
      {id : Digest}
      {outcome : ModificationOutcome}
      (hDrive : Reachable drive)
      (hComplete : drive.complete id outcome = .ok after) :
      Reachable after

/- Completing moves an id that no other record has. -/
theorem Consistent.complete
    {id : Digest}
    {outcome : ModificationOutcome}
    (hConsistent : Consistent drive.active drive.completed)
    (hComplete : drive.complete id outcome = .ok after) :
    Consistent after.active after.completed := by
  rcases complete_eq_ok hComplete with
    ⟨left, modification, right, -, hActive, rfl⟩
  rcases hConsistent with ⟨hNodup, hApart⟩
  rw [hActive] at hApart
  rw [hActive, List.map_append, List.map_cons,
    List.nodup_middle, ← List.map_append,
    List.nodup_cons] at hNodup
  refine ⟨hNodup.2, fun other hMem => ?_⟩
  rw [List.map_append, List.mem_append, not_or]
  constructor
  · apply hApart other
    rcases List.mem_append.mp hMem with hLeft | hRight
    · exact List.mem_append_left _ hLeft
    · exact List.mem_append_right _
        (List.mem_cons_of_mem _ hRight)
  · rw [List.map_singleton, List.mem_singleton]
    intro hSame
    apply hNodup.1
    rw [show modification.id = other.id from hSame.symm]
    exact List.mem_map_of_mem hMem

/- No drive has lists that it would refuse. -/
theorem Reachable.consistent
    (hReachable : Reachable drive) :
    Consistent drive.active drive.completed := by
  induction hReachable with
  | prepared => exact consistent_nil []
  | accepted hAccepted =>
      rcases withModifications_eq_ok_iff.mp hAccepted with
        ⟨hConsistent, rfl⟩
      exact hConsistent
  | read hRead => exact (read_form_eq_ok_iff.mp hRead).2
  | add _ hAdd ih =>
      rcases (add_eq_ok_iff ih).mp hAdd with
        ⟨hConsistent, rfl⟩
      exact hConsistent
  | complete _ hComplete ih => exact ih.complete hComplete

/-
  Lists of modifications, those of a record too, are taken
  exactly as they are if they are consistent, and are else
  refused for the first offence.  So a drive is restored from
  its own record, whatever has been added and completed.
-/
theorem restored_exactly
    (drive : Drive)
    (active : List Modification)
    (completed : List CompletedModification)
    (value : JsonValue) :
    (∀ after,
      drive.withModifications active completed = .ok after ↔
        Consistent active completed ∧
          after =
            { drive with
              active := active
              completed := completed }) ∧
    (∀ cause,
      drive.withModifications active completed =
          .error cause ↔
        FirstOffence active completed cause) ∧
    (form.read value = .ok drive ↔
      fields.form.read value = .ok drive ∧
        Consistent drive.active drive.completed) ∧
    (fields.form.read value = .ok drive →
      ∀ fault,
        form.read value = .error fault ↔
          ∃ cause,
            fault = .refused cause ∧
              FirstOffence drive.active drive.completed
                cause) ∧
    (Reachable drive →
      form.read (form.write drive) = .ok drive) := by
  refine ⟨?_, ?_, read_form_eq_ok_iff, ?_, ?_⟩
  · intro after
    exact withModifications_eq_ok_iff
  · intro cause
    exact withModifications_eq_error_iff
  · intro hRecord fault
    exact read_form_eq_error_iff hRecord
  · intro hReachable
    exact form_restores hReachable.consistent

/-
  A drive whose first modification was completed is restored.
  Its lists are refused for that one once it is active again,
  before they are for another that is active twice.
-/
theorem restored_exactly_completed :
    let first : Modification :=
      ⟨.zero 32, .zero 32, .zero 32, ⟨1⟩⟩
    let second : Modification :=
      ⟨⟨List.replicate 32 1, rfl⟩, .zero 32, .zero 32, ⟨2⟩⟩
    let drive : Drive :=
      { prepared (.zero 32) (.zero 32) ⟨100⟩ 3 with
        active := [second]
        completed := [⟨first, .succeeded⟩] }
    Reachable drive ∧
    form.read (form.write drive) = .ok drive ∧
    drive.withModifications [second, first, second]
        drive.completed =
      .error (.alreadyCompleted first.id .active) := by
  intro first second drive
  let start := prepared (.zero 32) (.zero 32) ⟨100⟩ 3
  have hAdd :
      start.add first = .ok { start with active := [first] } :=
    rfl
  have hAddNext :
      { start with active := [first] }.add second =
        .ok { start with active := [first, second] } :=
    rfl
  have hComplete :
      { start with active := [first, second] }.complete
        first.id .succeeded = .ok drive :=
    rfl
  have hReachable : Reachable drive :=
    .complete (.add (.add (.prepared _ _ _ _) hAdd) hAddNext)
      hComplete
  rcases restored_exactly drive [second, first, second]
    drive.completed (form.write drive) with
    ⟨-, hRefused, -, -, hRestored⟩
  refine ⟨hReachable, hRestored hReachable, ?_⟩
  rw [hRefused]
  refine ⟨[second], first, [second], rfl, ?_, .completed ?_⟩
  · exact hReachable.consistent
  · exact List.mem_singleton_self _

end Drive

end DriveMarket
