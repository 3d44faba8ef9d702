import CoreLab.Datetime
import CoreLab.Lib.Table

/-!
# CoreLab.Models

The rows of the database that booking, dispatch, cancellation and compliance
read or write, with the columns these use.  Foreign keys are plain row ids;
each table keeps its primary keys distinct by construction (`Lib.Table`).

What the reservation table takes is `Reservation.checks`, its CHECK constraints
and the ranges of its numbers: the store refuses a flush of any other row.
-/

namespace CoreLab

open Relational

/-! ## columns -/

/-- The value of an unsigned column; a number outside its range is a `DataError`. -/
def unsignedColumn (bits : Nat) (n : Int) : Option Nat :=
  if 0 ≤ n ∧ n < 2 ^ bits then some n.toNat else none

/-- The value of a nullable unsigned column. -/
def unsignedOrNull (bits : Nat) : Option Int → Option (Option Nat)
  | none => some none
  | some n => (unsignedColumn bits n).map some

/-- A number that an `INTEGER UNSIGNED` column takes. -/
def fitsUnsigned (n : Nat) : Bool := decide (n < 2 ^ 32)

/-! ## enumerations -/

/-- `ck_res_status`. -/
inductive ReservationStatus where
  | scheduled | active | completed | cancelled | failed
deriving DecidableEq, Repr

/-- `ck_res_script_status`; a row whose script has not fired has none of these. -/
inductive ScriptStatus where
  | running | completed | failed | killed
deriving DecidableEq, Repr

/-- `ck_link_source`. -/
inductive LinkSource where
  | sshChallenge | passwordPam | adminPreparedThenSsh | adminDeclared
deriving DecidableEq, Repr

/-- `ck_link_revoke_reason`. -/
inductive RevokeReason where
  | self | adminForce | userDisabled | paDisabled | upgradedToVerified
deriving DecidableEq, Repr

/-- The column text. -/
def LinkSource.text : LinkSource → String
  | sshChallenge => "ssh_challenge"
  | passwordPam => "password_pam"
  | adminPreparedThenSsh => "admin_prepared_then_ssh"
  | adminDeclared => "admin_declared"

namespace ReservationStatus

/-- `ACTIVE_STATUSES`: the statuses that occupy the window. -/
def occupies : ReservationStatus → Bool
  | scheduled | active => true
  | completed | cancelled | failed => false

/-- `TERMINAL_STATUSES`. -/
def terminal : ReservationStatus → Bool
  | completed | cancelled | failed => true
  | scheduled | active => false

/-- `_ALLOWED_TRANSITIONS`. -/
def allows : ReservationStatus → ReservationStatus → Bool
  | scheduled, active | scheduled, cancelled => true
  | active, completed | active, failed | active, cancelled => true
  | _, _ => false

/-- The column text. -/
def text : ReservationStatus → String
  | scheduled => "scheduled"
  | active => "active"
  | completed => "completed"
  | cancelled => "cancelled"
  | failed => "failed"

end ReservationStatus

namespace ScriptStatus

/-- `_ALLOWED_SCRIPT_TRANSITIONS`, from the status of the row (`none`: not yet fired). -/
def allowed : Option ScriptStatus → ScriptStatus → Bool
  | none, running => true
  | some running, completed | some running, failed | some running, killed => true
  | _, _ => false

/-- The column text. -/
def text : ScriptStatus → String
  | running => "running"
  | completed => "completed"
  | failed => "failed"
  | killed => "killed"

end ScriptStatus

/-! ## rows -/

structure Server where
  id : Nat
  labId : Nat
  maxReservationHours : Option Nat
  approvedAt : Option Time
  isActive : Bool
deriving DecidableEq, Repr

structure Gpu where
  id : Nat
  serverId : Nat
  gpuIndex : Nat
  memoryTotalMb : Option Nat
deriving DecidableEq, Repr

structure PhysicalAccount where
  id : Nat
  serverId : Nat
  linuxUsername : String
  isActive : Bool
deriving DecidableEq, Repr

structure AccountLink where
  id : Nat
  userId : Nat
  physicalAccountId : Nat
  source : LinkSource
  isActive : Bool
  revokedByUserId : Option Nat
  revokedAt : Option Time
  revokeReason : Option RevokeReason
deriving DecidableEq, Repr

/-- One booking: a window on a GPU (`gpuId = none`: a task without one), an
optional script, and the two status columns. -/
structure Reservation where
  id : Nat
  userId : Nat
  serverId : Nat
  gpuId : Option Nat
  accountLinkId : Nat
  groupId : Option String
  startAt : Time
  endAt : Time
  status : ReservationStatus
  /-- `none`: the whole card. -/
  gpuMemoryMb : Option Nat
  gpuComputeSharePct : Option Nat
  script : Option String
  scriptScheduledStartAt : Option Time
  scriptMaxRuntimeSeconds : Option Nat
  scriptStartedAt : Option Time := none
  scriptFinishedAt : Option Time := none
  scriptExitCode : Option Int := none
  scriptOutputSizeBytes : Option Nat := none
  scriptLogPath : Option String := none
  scriptLogTailText : Option String := none
  scriptLogTailTruncated : Bool := false
  scriptStatus : Option ScriptStatus := none
  /-- The dispatch marker: set by a tick that queued an execute request,
  cleared when the agent's start is known. -/
  scriptDispatchStartedAt : Option Time := none
  cancelledAt : Option Time := none
  cancelledByUserId : Option Nat := none
  cancellationReason : Option String := none
deriving DecidableEq, Repr

instance : Keyed Server := ⟨Server.id⟩
instance : Keyed Gpu := ⟨Gpu.id⟩
instance : Keyed PhysicalAccount := ⟨PhysicalAccount.id⟩
instance : Keyed AccountLink := ⟨AccountLink.id⟩
instance : Keyed Reservation := ⟨Reservation.id⟩

namespace Reservation

/-- `ck_res_time_order`, `ck_res_script_time` and `ck_res_compute_pct`, and the range of
the two `INTEGER UNSIGNED` columns that a request sets. -/
def checks (r : Reservation) : Bool :=
  decide (r.startAt < r.endAt) &&
  (r.scriptScheduledStartAt.all fun t => decide (r.startAt ≤ t ∧ t < r.endAt)) &&
  (r.gpuComputeSharePct.all fun pct => decide (1 ≤ pct ∧ pct ≤ 100)) &&
  (r.gpuMemoryMb.all fitsUnsigned && r.scriptMaxRuntimeSeconds.all fitsUnsigned)

/-- The row occupies its window: `status IN ACTIVE_STATUSES`. -/
def occupies (r : Reservation) : Bool := r.status.occupies

end Reservation

theorem checks_eq_true_iff {r : Reservation} : r.checks = true ↔ r.startAt < r.endAt ∧
    (∀ t, r.scriptScheduledStartAt = some t → r.startAt ≤ t ∧ t < r.endAt) ∧
      (∀ pct, r.gpuComputeSharePct = some pct → 1 ≤ pct ∧ pct ≤ 100) ∧
        (∀ mb, r.gpuMemoryMb = some mb → fitsUnsigned mb = true) ∧
          ∀ s, r.scriptMaxRuntimeSeconds = some s → fitsUnsigned s = true := by
  simp [Reservation.checks, Option.all_eq_true, and_assoc]

theorem window_of_checks {r : Reservation} (h : r.checks = true) : r.startAt < r.endAt :=
  (checks_eq_true_iff.mp h).1

/-- A trigger lies in the window of its row. -/
theorem trigger_of_checks {r : Reservation} (h : r.checks = true) {t : Time}
    (ht : r.scriptScheduledStartAt = some t) : r.startAt ≤ t ∧ t < r.endAt :=
  (checks_eq_true_iff.mp h).2.1 t ht

theorem share_of_checks {r : Reservation} (h : r.checks = true) {pct : Nat}
    (hp : r.gpuComputeSharePct = some pct) : 1 ≤ pct ∧ pct ≤ 100 :=
  (checks_eq_true_iff.mp h).2.2.1 pct hp

/-! ## audit trail -/

/-- The actions that the modelled functions write. -/
inductive AuditAction where
  | reservationCreate
  | reservationCancel
  | reservationCancelGroup
  | reservationCancelAttemptFailed
  | reservationModify
  | reservationTransition
  | scriptLifecycle
  | scriptLifecycleStarted
  | scriptDispatched
  | scriptDispatchAttemptFailed
  | scriptDispatchRetry
  | accountLinkEstablished
  | accountLinkAdminDeclared
  | accountLinkUpgraded
  | accountLinkRevoked
  | physicalAccountCreate
  | physicalAccountDelete
  | physicalAccountDiscovered
  | complianceViolation
  | serverApprove
deriving DecidableEq, Repr

inductive TargetType where
  | reservation | reservationGroup | accountLink | physicalAccount | server | gpu
deriving DecidableEq, Repr

/-- One audit row: who did what to which row. -/
structure AuditEntry where
  action : AuditAction
  actorUserId : Option Nat
  targetType : TargetType
  targetId : Option Nat
  targetServerId : Option Nat
deriving DecidableEq, Repr

/-! ## the database -/

structure Db where
  servers : Table Server
  gpus : Table Gpu
  physicalAccounts : Table PhysicalAccount
  accountLinks : Table AccountLink
  reservations : Table Reservation
  auditLog : List AuditEntry

namespace Db

/-- The database with no rows. -/
def empty : Db := ⟨.empty, .empty, .empty, .empty, .empty, []⟩

/-- `audit_service.write`. -/
def audit (db : Db) (e : AuditEntry) : Db := { db with auditLog := db.auditLog ++ [e] }

/-- Several audit rows, in order. -/
def auditAll (db : Db) (es : List AuditEntry) : Db := { db with auditLog := db.auditLog ++ es }

/-- Flush one changed reservation row. -/
def putReservation (db : Db) (r : Reservation) : Db :=
  { db with reservations := db.reservations.put r }

@[simp] theorem reservations_audit (db : Db) (e) : (db.audit e).reservations = db.reservations := rfl
@[simp] theorem auditLog_audit (db : Db) (e) : (db.audit e).auditLog = db.auditLog ++ [e] := rfl

@[simp] theorem reservations_putReservation (db : Db) (r) :
    (db.putReservation r).reservations = db.reservations.put r := rfl

/-- A stored row is found by its id. -/
theorem get?_id {db : Db} {r : Reservation} (h : r ∈ db.reservations) :
    db.reservations.get? r.id = some r := Table.get?_key h

end Db

/-- An audit row about one reservation. -/
def reservationAudit (action : AuditAction) (actor : Option Nat) (r : Reservation) : AuditEntry :=
  { action := action, actorUserId := actor, targetType := .reservation
    targetId := some r.id, targetServerId := some r.serverId }

/-! ## a small lab -/

/-- One approved server with one 24 GiB card, one account and the link of its
owner: the database that concrete runs start from. -/
def smallLab (reservations : Table Reservation) : Db :=
  { servers := .single { id := 1, labId := 1, maxReservationHours := some 24, approvedAt := some 0,
                         isActive := true }
    gpus := .single { id := 11, serverId := 1, gpuIndex := 0, memoryTotalMb := some 24576 }
    physicalAccounts := .single { id := 21, serverId := 1, linuxUsername := "alice", isActive := true }
    accountLinks := .single { id := 31, userId := 41, physicalAccountId := 21,
                              source := .sshChallenge, isActive := true, revokedByUserId := none,
                              revokedAt := none, revokeReason := none }
    reservations := reservations
    auditLog := [] }

/-- The lab with a further server, which sets no limit on the hours. -/
def Db.addServer (db : Db) : Db :=
  { db with
    servers := db.servers.append ⟨fun id =>
      { id := id, labId := 1, maxReservationHours := none, approvedAt := some 0, isActive := true },
      fun _ => rfl⟩ }

/-- A day on that card with a script that is due at once. -/
def dueScript : Reservation :=
  { id := 7, userId := 41, serverId := 1, gpuId := some 11, accountLinkId := 31, groupId := none
    startAt := 0, endAt := 24 * hourMicros, status := .active, gpuMemoryMb := none
    gpuComputeSharePct := none, script := some "./train.sh", scriptScheduledStartAt := some 0
    scriptMaxRuntimeSeconds := none }

end CoreLab
