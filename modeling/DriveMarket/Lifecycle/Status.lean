/-
  The statuses of a drive.

  A drive is prepared until enough replicators have joined,
  then active; a verification round interrupts that.  After a
  request for closure only pending modifications can still
  resolve, and a closed drive stays closed.

  Key definitions include:
    * `DriveStatus`
    * `DriveStatus.acceptsModifications`
    * `DriveStatus.resolvesModifications`
    * `VerificationFlags`
-/

namespace DriveMarket

/- Where a drive stands. -/
inductive DriveStatus where
  | preparing
  | active
  | verificationPending
  | closing
  | closed
deriving DecidableEq, Inhabited

namespace DriveStatus

/- Every status, in order of declaration. -/
def all : List DriveStatus :=
  [.preparing, .active, .verificationPending, .closing,
    .closed]

/- The name of a status. -/
def name : DriveStatus → String
  | .preparing => "Preparing"
  | .active => "Active"
  | .verificationPending => "VerificationPending"
  | .closing => "Closing"
  | .closed => "Closed"

/- The status of a name, if there is one. -/
def ofName?
    (text : String) : Option DriveStatus :=
  all.find? (·.name == text)

/- Whether new modifications may be submitted. -/
def acceptsModifications : DriveStatus → Bool
  | .active => true
  | .verificationPending => true
  | _ => false

/- Whether pending modifications may end. -/
def resolvesModifications : DriveStatus → Bool
  | .active => true
  | .verificationPending => true
  | .closing => true
  | _ => false

theorem ofName?_name
    (status : DriveStatus) :
    ofName? status.name = some status := by
  cases status <;> decide

end DriveStatus

/-
  Whether a verification round is running, and whether a new
  one could start.
-/
structure VerificationFlags where
  active : Bool
  available : Bool
deriving DecidableEq

namespace VerificationFlags

/- No round is running and one could start. -/
def idle : VerificationFlags :=
  { active := false
    available := true }

/- A round is running. -/
def running : VerificationFlags :=
  { active := true
    available := false }

/- No round is running and none can start. -/
def unavailable : VerificationFlags :=
  { active := false
    available := false }

end VerificationFlags

end DriveMarket
