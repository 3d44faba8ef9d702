import CoreLab.GroupCancel
import CoreLab.Lib.Isolation
import CoreLab.Scheduler
import CoreLab.ScriptLifecycle

/-!
# CoreLab.Sessions

The operations that touch reservation rows, as the sessions they run in: which
rows they load, under which locks, and what they flush.  Requests of the API run
in one session that commits on success and on an HTTP error; a tick runs in a
serializable session, and so does whatever is served on a connection that served
a tick before.

The guards and the changed columns are those of the operations on a whole
database (`CoreLab.Transitions`, `CoreLab.Modify`, `CoreLab.Scheduler`).
-/

namespace CoreLab

namespace Sessions

open Relational Loops Isolation

/-! ## programs -/

/-- An audit row; one about a group counts the rows it took. -/
structure AuditRow where
  entry : AuditEntry
  counted : List Nat := []
deriving DecidableEq, Repr

/-- How `cancel_active_with_running_script` gets on with the agent. -/
inductive KillOutcome where
  /-- `AgentUnreachableDuringCancelError`. -/
  | unreachable
  /-- `LifecycleEventTimeoutError`. -/
  | timedOut
  /-- Any other exception. -/
  | broken
  | confirmed
deriving DecidableEq, Repr

/-- What a session learns from outside of the reservation table, at the time it asks. -/
structure Outside where
  /-- The other tables and the audit log. -/
  db : Db
  grants : Table ServerAdminGrant
  kill : KillOutcome
  /-- The row that a `LIMIT 1` returns. -/
  pick : Nat

abbrev Prog := Isolation.Program Reservation AuditRow Outside

variable {α : Type}

def ask : Prog Outside := .ask .pure

/-- `session.get(Reservation, id)`. -/
def get (id : Nat) : Prog (Option Reservation) := .get id .pure

def select (test : Reservation → Bool) (forUpdate populateExisting : Bool) :
    Prog (List Reservation) := .select test forUpdate populateExisting .pure

/-- Assign columns of a loaded row, and flush. -/
def update (id : Nat) (f : Reservation → Reservation) (hf : ∀ r, (f r).id = r.id) : Prog Unit :=
  .update id f hf (.pure ())

def insert (b : Table.Insertion Reservation) : Prog Nat := .insert b .pure

/-- `audit_service.write`. -/
def audit (entry : AuditEntry) (counted : List Nat := []) : Prog Unit :=
  .emit ⟨entry, counted⟩ (.pure ())

/-- A raised error in a request of the API: a typed one becomes an HTTP error, with
which the session commits. -/
def orRaise : Except Failure α → Prog α
  | .ok a => .pure a
  | .error (.reservation _) => .stop true
  | .error _ => .stop false

/-- A raised error elsewhere: the session is rolled back. -/
def orRollBack : Except Failure α → Prog α
  | .ok a => .pure a
  | .error _ => .stop false

/-- `_lock_reservation`. -/
def lockReservation (id : Nat) : Prog (List Reservation) := select (fun r => r.id = id) true true

/-! ## cancelling -/

/-- The guards of `cancel_reservation`. -/
def checkCancel (row : Reservation) (actorUserId : Nat) (actorCanAdmin : Bool) :
    Except Failure Unit := do
  raiseIf row.status.terminal (.reservation (.base
    s!"reservation {row.id} is already terminal ({row.status.text})"))
  raiseIf (!actorCanAdmin && row.userId != actorUserId) (.reservation (.cancelNotPermitted
    (s!"user {actorUserId} cannot cancel reservation {row.id} " ++
      "(neither owner nor admin)")))
  assertTransitionAllowed row.status .cancelled

/-- They are those of the cancel on a whole database. -/
theorem cancelReservation_eq (db : Db) (id actorUserId : Nat) (actorCanAdmin : Bool)
    (reason : Option String) (now : Time) {row : Reservation}
    (hrow : db.reservations.get? id = some row) :
    CoreLab.cancelReservation db id actorUserId actorCanAdmin reason now = (do
      checkCancel row actorUserId actorCanAdmin
      let row := cancelledRow row actorUserId reason now
      .ok (db.write row [reservationAudit .reservationCancel (some actorUserId) row])) := by
  obtain rfl : row.id = id := Table.key_of_get? hrow
  simp only [CoreLab.cancelReservation, checkCancel, hrow, bind_assoc]

/-- `cancel_reservation`. -/
def cancelReservation (id actorUserId : Nat) (actorCanAdmin : Bool) (reason : Option String)
    (now : Time) : Prog Unit := do
  match ← lockReservation id with
  | [] => .stop true
  | row :: _ =>
    orRaise (checkCancel row actorUserId actorCanAdmin)
    update row.id (fun r => cancelledRow r actorUserId reason now) fun _ => rfl
    audit (reservationAudit .reservationCancel (some actorUserId) row)

/-- The `DELETE` handler: a row whose script runs is only cancelled after the agent
confirmed that the script was stopped, some seconds later. -/
def deleteReservation (current : AuthenticatedUser) (id : Nat) (reason : Option String)
    (now : Time) : Prog Unit := do
  match ← get id with
  | none => .stop true
  | some row =>
    let outside ← ask
    let actorCanAdmin := userCanAdminServer outside.grants current row.serverId
    if row.status = .active ∧ row.scriptStatus = some .running then
      let answer ← ask
      match answer.kill with
      | .confirmed => cancelReservation id current.id actorCanAdmin reason now
      | .broken => .stop false
      | .unreachable | .timedOut =>
        audit { action := .reservationCancelAttemptFailed, actorUserId := some current.id
                targetType := .reservation, targetId := some id
                targetServerId := some row.serverId }
        .stop true
    else cancelReservation id current.id actorCanAdmin reason now

/-- The guards of `cancel_group`, on the rows it locked. -/
def checkCancelGroup (groupId : String) (rows : List Reservation) (first : Reservation)
    (actorUserId : Nat) (actorCanAdmin : Bool) : Except Failure Unit := do
  raiseIf (!actorCanAdmin && first.userId != actorUserId) (.reservation (.cancelNotPermitted
    s!"user {actorUserId} cannot cancel group {groupId} (not owner / admin)"))
  let running := rows.filter fun r => r.status = .active && r.scriptStatus = some .running
  raiseIf (running ≠ []) (.reservation (.groupCancelRunningScript
    "group cancel refused because running scripts must be stopped individually first"
    (running.map (·.id))))

/-- They are those of the cancel on a whole database. -/
theorem cancelGroup_eq (db : Db) (groupId : String) (actorUserId : Nat) (actorCanAdmin : Bool)
    (reason : Option String) (now : Time) {first : Reservation} {rest : List Reservation}
    (hrows : db.reservations.rows.filter (inGroup groupId) = first :: rest) :
    CoreLab.cancelGroup db groupId actorUserId actorCanAdmin reason now = (do
      checkCancelGroup groupId (first :: rest) first actorUserId actorCanAdmin
      let cancelled := (first :: rest).foldl
        (fun d r => d.putReservation (cancelledRow r actorUserId reason now)) db
      .ok (cancelled.audit
        { action := .reservationCancelGroup, actorUserId := some actorUserId
          targetType := .reservationGroup, targetId := none
          targetServerId := some first.serverId })) := by
  have hfilter : db.reservations.rows.filter
      (fun r => r.groupId = some groupId && r.occupies) = first :: rest := hrows
  simp only [CoreLab.cancelGroup, checkCancelGroup, hfilter, bind_assoc]

/-- `cancel_group`. -/
def cancelGroup (groupId : String) (actorUserId : Nat) (actorCanAdmin : Bool)
    (reason : Option String) (now : Time) : Prog Unit := do
  match ← select (inGroup groupId) true true with
  | [] => .stop true
  | first :: rest =>
    orRaise (checkCancelGroup groupId (first :: rest) first actorUserId actorCanAdmin)
    (first :: rest).forM fun row =>
      update row.id (fun r => cancelledRow r actorUserId reason now) fun _ => rfl
    audit { action := .reservationCancelGroup, actorUserId := some actorUserId
            targetType := .reservationGroup, targetId := none
            targetServerId := some first.serverId } ((first :: rest).map (·.id))

/-- The `DELETE` handler of a group. -/
def deleteReservationGroup (current : AuthenticatedUser) (groupId : String)
    (reason : Option String) (now : Time) : Prog Unit := do
  let outside ← ask
  let sample ← select (fun r => r.groupId = some groupId && r.id = outside.pick) false false
  let actorCanAdmin := sample.head?.any fun r => userCanAdminServer outside.grants current r.serverId
  cancelGroup groupId current.id actorCanAdmin reason now

/-! ## booking -/

/-- The scheduled and active rows of a GPU that overlap a window. -/
def inWindow (gpuId : Nat) (startAt endAt : Time) (r : Reservation) : Bool :=
  r.gpuId = some gpuId && r.occupies && decide (r.startAt < endAt) && decide (startAt < r.endAt)

/-- `_window_active_reservations`: a locking read that keeps objects loaded before. -/
def windowActiveReservations (gpuId : Nat) (startAt endAt : Time) : Prog (List Reservation) :=
  select (inWindow gpuId startAt endAt) true false

/-- The conflict check of one item. -/
def checkItemConflict (item : ItemDraft) : Prog Unit :=
  match item.gpuId with
  | none => .pure ()
  | some gpuId => do
    let outside ← ask
    match outside.db.gpus.get? gpuId with
    | none => .stop true
    | some gpu =>
      let found ← windowActiveReservations gpuId item.startAt.stored item.endAt.stored
      match classifyConflict item found gpu with
      | none => .pure ()
      | some _ => .stop true

/-- The rows of a batch, one after another. -/
def insertAll : List (Table.Insertion Reservation) → Prog (List Reservation)
  | [] => .pure []
  | b :: bs => do
    let id ← insert b
    let rows ← insertAll bs
    .pure (b.1 id :: rows)

/-- `create_reservation_batch`. -/
def createReservations (req : BatchRequest) (groupId : String) (now : Time) : Prog Unit := do
  orRaise do
    raiseIf req.items.isEmpty (.reservation (.invalidTime "at least one item is required"))
    raiseIf (req.script.any scriptTooLarge) (.reservation (.scriptTooLarge
      s!"script body exceeds {scriptMaxBytes} bytes (4 KB)"))
    req.items.zipIdx.forM (checkItemMode req.script)
  req.items.forM fun item => do
    let outside ← ask
    orRaise (validateItem outside.db req now item)
  req.items.forM checkItemConflict
  -- a CHECK constraint does not look at the key
  if (insertions req groupId).all fun b => (b.1 0).checks then
    let created ← insertAll (insertions req groupId)
    created.forM fun row => audit (reservationAudit .reservationCreate (some req.userId) row)
  else .stop false

/-! ## editing -/

/-- The edited row is left on the session, which flushes it if it commits. -/
def refuseEdit (row : Reservation) (a : Attrs) : Failure → Prog Unit
  | .reservation _ =>
    if (a.flushed row).checks then do
      update row.id (fun r => a.flushed r) fun _ => rfl
      .stop true
    else .stop false
  | _ => .stop false

/-- The checks of a new window. -/
def checkWindow (row : Reservation) (req : ModifyRequest) (a : Attrs) (now : Time) :
    Prog (Except Failure Unit) :=
  if req.startAt.isNone && req.endAt.isNone then .pure (.ok ())
  else do
    let item : ItemDraft :=
      { serverId := row.serverId, gpuId := row.gpuId, startAt := a.startAt, endAt := a.endAt
        accountLinkId := row.accountLinkId, gpuMemoryMb := row.gpuMemoryMb
        gpuComputeSharePct := row.gpuComputeSharePct }
    let outside ← ask
    match validateItemTime outside.db item now, row.gpuId with
    | .error e, _ => .pure (.error e)
    | .ok _, none => .pure (.ok ())
    | .ok _, some gpuId =>
      match outside.db.gpus.get? gpuId with
      | none => .pure (raise (.invalidTime s!"gpu {gpuId} not found"))
      | some gpu =>
        let found ← windowActiveReservations gpuId a.startAt.stored a.endAt.stored
        match classifyConflict item (found.filter fun r => r.id ≠ row.id) gpu with
        | none => .pure (.ok ())
        | some c => .pure (raise (.overlap s!"modify would conflict on gpu {gpuId}"
            c.conflictingReservationIds))

/-- `modify_reservation`. -/
def modifyReservation (req : ModifyRequest) (actorUserId : Nat) (now : Time) : Prog Unit := do
  match ← lockReservation req.reservationId with
  | [] => .stop true
  | row :: _ =>
    orRaise (checkEditable row req actorUserId)
    let window := assignWindow req (.load row)
    match ← checkWindow row req window now with
    | .error e => refuseEdit row window e
    | .ok () =>
      match checkScriptSize req with
      | .error e => refuseEdit row window e
      | .ok () =>
        let scripted := assignScript req window
        match checkTrigger req scripted with
        | .error e => refuseEdit row scripted e
        | .ok trigger =>
          let edited := assignTiming req trigger scripted
          if (edited.flushed row).checks then
            update row.id (fun r => edited.flushed r) fun _ => rfl
            audit (reservationAudit .reservationModify (some actorUserId) (edited.flushed row))
          else .stop false

/-! ## the tick -/

/-- `_write_transition_audit`. -/
def auditTransition (row : Reservation) : Prog Unit :=
  audit (reservationAudit .reservationTransition none row)

/-- `transition_to_active` and `transition_to_completed`. -/
def transitionTo (row : Reservation) (target : ReservationStatus) : Prog Unit := do
  orRollBack (assertTransitionAllowed row.status target)
  update row.id (fun r => { r with status := target }) fun _ => rfl
  auditTransition row

/-- `transition_to_failed`: the reason is kept where none is set yet. -/
def transitionToFailed (row : Reservation) (reason : String) : Prog Unit := do
  orRollBack (assertTransitionAllowed row.status .failed)
  update row.id (fun r => { r with
    status := .failed
    cancellationReason := if truthy row.cancellationReason then r.cancellationReason else some reason })
    fun _ => rfl
  auditTransition row

/-- Act on a row whose server is known. -/
def onKnownServer (row : Reservation) (act : Prog Unit) : Prog Unit := do
  let outside ← ask
  match serverLabId outside.db row.serverId with
  | none => .pure ()
  | some _ => act

/-- `_promote_due_scheduled`. -/
def promoteDueScheduled (now : Time) : Prog Unit := do
  let rows ← select (dueToStart now) false false
  rows.forM fun row => onKnownServer row (transitionTo row .active)

/-- Close one row by the outcome of its script. -/
def closeRow (row : Reservation) : Prog Unit :=
  match row.scriptStatus with
  | some .failed => transitionToFailed row "script_failed"
  | some .killed => transitionToFailed row "script_killed"
  | _ => transitionTo row .completed

/-- `_close_due_active`. -/
def closeDueActive (now : Time) : Prog Unit := do
  let rows ← select (dueToEnd now) false false
  rows.forM fun row => onKnownServer row (closeRow row)

/-- The guards of `mark_script_dispatched`. -/
def checkDispatch (row : Reservation) : Except Failure Unit := do
  raiseIf (row.status ≠ .active) (.reservation (.illegalTransition
    s!"mark_script_dispatched requires status='active', got '{row.status.text}'"
    row.status.text "script.dispatched"))
  let current := row.scriptStatus.elim "None" ScriptStatus.text
  raiseIf row.scriptStatus.isSome (.reservation (.illegalTransition
    s!"mark_script_dispatched requires script_status=NULL, got '{current}'" current "running"))

/-- They are those of the dispatch on a whole database. -/
theorem markScriptDispatched_eq (db : Db) (row : Reservation) (now : Time) :
    CoreLab.markScriptDispatched db row now = (do
      checkDispatch row
      let row := { row with scriptStatus := some .running, scriptDispatchStartedAt := some now }
      .ok (db.write row [reservationAudit .scriptDispatched none row])) := by
  simp only [CoreLab.markScriptDispatched, checkDispatch, bind_assoc]

/-- `mark_script_dispatched`. -/
def markScriptDispatched (row : Reservation) (now : Time) : Prog Unit := do
  orRollBack (checkDispatch row)
  update row.id (fun r => { r with
    scriptStatus := some .running, scriptDispatchStartedAt := some now }) fun _ => rfl
  audit (reservationAudit .scriptDispatched none row)

/-- `_dispatch_due_scripts`; the join leaves out rows without an account. -/
def dispatchDueScripts (now : Time) : Prog Unit := do
  let outside ← ask
  let rows ← select (fun r => dueToDispatch now r &&
    (linuxUsernameOf outside.db r.accountLinkId).isSome) false false
  rows.forM fun row => onKnownServer row (markScriptDispatched row now)

/-- One row of `_retry_stuck_dispatches`: heal, give up, or send again. -/
def retryStuckDispatch (row : Reservation) (now : Time) : Prog Unit := do
  let outside ← ask
  if lifecycleStartedSeen outside.db row.id then
    update row.id (fun r => { r with scriptDispatchStartedAt := none }) fun _ => rfl
  else if watchdogMaxDispatchAttempts ≤ countDispatchFailures outside.db row.id then
    transitionToFailed row giveUpReason
  else match linuxUsernameOf outside.db row.accountLinkId with
    | none => .pure ()
    | some linuxUsername =>
      let _ ← orRollBack (buildExecutePayload row linuxUsername)
      update row.id (fun r => { r with scriptDispatchStartedAt := some now }) fun _ => rfl
      audit (reservationAudit .scriptDispatchRetry none row)

/-- `_retry_stuck_dispatches`. -/
def retryStuckDispatches (now : Time) : Prog Unit := do
  let rows ← select (stuck now) false false
  rows.forM fun row => onKnownServer row (retryStuckDispatch row now)

/-- `_tick_body`. -/
def tick (now : Time) : Prog Unit := do
  promoteDueScheduled now
  closeDueActive now
  dispatchDueScripts now
  retryStuckDispatches now

/-! ## script events -/

/-- `session.get(Reservation, id)` with the id of a frame; no row has a negative id. -/
def getReservation (id : Int) : Prog (Option Reservation) :=
  if 0 ≤ id then get id.toNat else .pure none

/-- The columns `update_script_status` assigns. -/
def withScriptStatus (new : ScriptStatus) (exitCode : Option Int) (startedAt finishedAt : Option Time)
    (r : Reservation) : Reservation :=
  if new = .running then
    { r with scriptStatus := some new, scriptStartedAt := startedAt.or r.scriptStartedAt }
  else
    { r with
      scriptStatus := some new
      scriptFinishedAt := finishedAt.or r.scriptFinishedAt
      scriptExitCode := exitCode.or r.scriptExitCode }

@[simp] theorem withScriptStatus_id (new : ScriptStatus) (exitCode : Option Int)
    (startedAt finishedAt : Option Time) (r : Reservation) :
    (withScriptStatus new exitCode startedAt finishedAt r).id = r.id := by
  unfold withScriptStatus
  split <;> rfl

@[simp] theorem withScriptStatus_status (new : ScriptStatus) (exitCode : Option Int)
    (startedAt finishedAt : Option Time) (r : Reservation) :
    (withScriptStatus new exitCode startedAt finishedAt r).status = r.status := by
  unfold withScriptStatus
  split <;> rfl

@[simp] theorem withLogPath_id (r : Reservation) (logPath : Option String) :
    (withLogPath r logPath).id = r.id := by
  unfold withLogPath
  split <;> rfl

@[simp] theorem withLogPath_status (r : Reservation) (logPath : Option String) :
    (withLogPath r logPath).status = r.status := by
  unfold withLogPath
  split <;> rfl

/-- The guard of `update_script_status`. -/
def checkScriptStatus (row : Reservation) (new : ScriptStatus) : Except Failure Unit :=
  let current := row.scriptStatus.elim "None" ScriptStatus.text
  raiseIf (!ScriptStatus.allowed row.scriptStatus new) (.reservation (.illegalTransition
    s!"reservation.script_status {current} -> {new.text} not allowed"
    (row.scriptStatus.elim "null" ScriptStatus.text) new.text))

/-- Guard and columns are those of the update on a whole database. -/
theorem updateScriptStatus_eq (db : Db) (row : Reservation) (new : ScriptStatus)
    (exitCode : Option Int) (startedAt finishedAt : Option Time) :
    CoreLab.updateScriptStatus db row new exitCode startedAt finishedAt = (do
      checkScriptStatus row new
      let row := withScriptStatus new exitCode startedAt finishedAt row
      .ok (db.write row [reservationAudit .scriptLifecycle none row], row)) := rfl

/-- `update_script_status`, for the object that the session loaded. -/
def updateScriptStatus (row : Reservation) (new : ScriptStatus) (exitCode : Option Int)
    (startedAt finishedAt : Option Time) : Prog Unit := do
  orRollBack (checkScriptStatus row new)
  update row.id (withScriptStatus new exitCode startedAt finishedAt) (withScriptStatus_id _ _ _ _)
  audit (reservationAudit .scriptLifecycle none row)

/-- `on_script_started`. -/
def onScriptStarted (p : ScriptStartedEvent) : Prog Unit := do
  match ← getReservation p.reservationId with
  | none => .pure ()
  | some row =>
    match row.scriptStatus with
    | some .running =>
      orRollBack (raiseIf (!logPathFits p.logPath) .integrity)
      update row.id (fun r => withLogPath { r with
        scriptDispatchStartedAt := none
        scriptStartedAt :=
          if row.scriptStartedAt.isNone then some p.startedAt.stored else r.scriptStartedAt }
        p.logPath) fun _ => withLogPath_id _ _
      audit (reservationAudit .scriptLifecycleStarted none row)
    | none =>
      updateScriptStatus row .running none (some p.startedAt.stored) none
      orRollBack (raiseIf (!logPathFits p.logPath) .integrity)
      update row.id (fun r => withLogPath r p.logPath) fun _ => withLogPath_id _ _
      audit (reservationAudit .scriptLifecycleStarted none row)
    | some _ => .pure ()

/-- `append_script_log_tail`: the tail is computed from the loaded object. -/
def appendScriptLogTail (row : Reservation) (text : String) : Prog Unit :=
  if text = "" then .pure ()
  else
    let combined := (row.scriptLogTailText.getD "").toList ++ text.toList
    if scriptLogTailMaxChars < combined.length then
      update row.id (fun r => { r with
        scriptLogTailText :=
          some (String.ofList (combined.drop (combined.length - scriptLogTailMaxChars)))
        scriptLogTailTruncated := true }) fun _ => rfl
    else update row.id (fun r => { r with scriptLogTailText := some (String.ofList combined) })
      fun _ => rfl

/-- `on_script_output_chunk`. -/
def onScriptOutputChunk (p : ScriptOutputChunkEvent) : Prog Unit := do
  match ← getReservation p.reservationId with
  | none => .pure ()
  | some row => appendScriptLogTail row p.text

/-- `on_script_finished`. -/
def onScriptFinished (p : ScriptFinishedEvent) : Prog Unit := do
  match ← getReservation p.reservationId with
  | none => .pure ()
  | some row =>
    if row.scriptStatus = some .running then
      updateScriptStatus row p.newStatus p.exitCode none (some p.finishedAt.stored)
      orRollBack (raiseIf (!p.fits) .integrity)
      update row.id (fun r => withLogPath (if p.outputSizeBytes = 0 then r
        else { r with scriptOutputSizeBytes := some p.outputSizeBytes.toNat }) p.logPath)
        fun r => by rw [withLogPath_id]; split <;> rfl
    else .pure ()

/-! ## the service -/

/-- A request, with what its session needs to know. -/
inductive Request where
  | create (req : BatchRequest) (groupId : String) (now : Time)
  | modify (req : ModifyRequest) (actorUserId : Nat) (now : Time)
  | delete (current : AuthenticatedUser) (id : Nat) (reason : Option String) (now : Time)
  | deleteGroup (current : AuthenticatedUser) (groupId : String) (reason : Option String) (now : Time)
  | tick (now : Time)
  | scriptStarted (p : ScriptStartedEvent)
  | scriptOutputChunk (p : ScriptOutputChunkEvent)
  | scriptFinished (p : ScriptFinishedEvent)

namespace Request

def program : Request → Prog Unit
  | create req groupId now => createReservations req groupId now
  | modify req actorUserId now => modifyReservation req actorUserId now
  | delete current id reason now => deleteReservation current id reason now
  | deleteGroup current groupId reason now => deleteReservationGroup current groupId reason now
  | tick now => Sessions.tick now
  | scriptStarted p => onScriptStarted p
  | scriptOutputChunk p => onScriptOutputChunk p
  | scriptFinished p => onScriptFinished p

def isTick : Request → Bool
  | tick _ => true
  | _ => false

end Request

/-- A request and the connection that serves it, which is still serializable where
it served a tick before. -/
structure Call where
  request : Request
  sticky : Bool

def service : Service Call Reservation AuditRow Outside where
  serializable c := c.request.isTick || c.sticky
  program c := c.request.program

end Sessions

end CoreLab
