import DriveMarket.Bytes.Hex
import DriveMarket.Refusal

/-
  Why an operation on a record of the market is refused.

  Key definitions include:
    * `ModificationStage`
    * `OpinionShape`
    * `ModelError`
    * `ModelError.message`
-/

namespace DriveMarket

/- Where a modification stands. -/
inductive ModificationStage where
  | active
  | completed
deriving DecidableEq

/- The name of a stage. -/
def ModificationStage.name : ModificationStage → String
  | .active => "Active"
  | .completed => "Completed"

/- The part of a verification round that has a wrong size. -/
inductive OpinionShape where
  | opinionCount
  | resultsLength
  | proverCount
deriving DecidableEq

/- The name of a part. -/
def OpinionShape.name : OpinionShape → String
  | .opinionCount => "opinion count"
  | .resultsLength => "results length"
  | .proverCount => "prover count"

/- The causes of a refusal. -/
inductive ModelError where
  | alreadyCompleted (id : Digest) (wanted : ModificationStage)
  | duplicateModification (id : Digest)
  | modificationNotFound (id : Digest)
  | duplicateDrive (drive : PublicKey)
  | shapeMismatch (part : OpinionShape) (expected actual : Nat)
  | emptyProverList
deriving DecidableEq

namespace ModelError

/- The wording of each cause. -/
def message : ModelError → String
  | .alreadyCompleted id wanted =>
      s!"Invalid state transition for modification {id.hex}: " ++
        s!"{ModificationStage.completed.name} -> {wanted.name}"
  | .duplicateModification id =>
      s!"Duplicate modification: {id.hex}"
  | .modificationNotFound id =>
      s!"Modification not found: {id.hex}"
  | .duplicateDrive drive =>
      s!"Duplicate drive: {drive.hex}"
  | .shapeMismatch part expected actual =>
      s!"Consensus shape mismatch: {part.name} " ++
        s!"(expected {expected}, got {actual})"
  | .emptyProverList => "Empty prover list"

/- The code of each cause. -/
def code : ModelError → String
  | .alreadyCompleted .. => "InvalidStateTransition"
  | .duplicateModification _ => "DuplicateModification"
  | .modificationNotFound _ => "ModificationNotFound"
  | .duplicateDrive _ => "DuplicateDrive"
  | .shapeMismatch .. => "ConsensusShapeMismatch"
  | .emptyProverList => "EmptyProverList"

instance : Refusal ModelError :=
  ⟨code, message⟩

end ModelError

end DriveMarket
