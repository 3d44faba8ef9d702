import CoreLab.Transitions

/-!
# CoreLab.ScriptLifecycle

The handlers of the agent's script events, and the registry of cancels that
wait for a kill.  Each handler loads the row that its frame names by primary
key; a frame that names no row, or comes too late for it, changes nothing.
-/

namespace CoreLab

open Relational Loops

/-! ## frames -/

/-- `agent.script.started`. -/
structure ScriptStartedEvent where
  reservationId : Int
  startedAt : Datetime
  logPath : Option String
deriving DecidableEq, Repr

/-- `agent.script.output_chunk`. -/
structure ScriptOutputChunkEvent where
  reservationId : Int
  text : String
deriving DecidableEq, Repr

/-- `agent.script.finished`. -/
structure ScriptFinishedEvent where
  reservationId : Int
  exitCode : Option Int
  finishedAt : Datetime
  outputSizeBytes : Int
  logPath : Option String
  killedByCorelab : Bool
deriving DecidableEq, Repr

/-! ## the pending-kill registry -/

/-- One entry of `_PENDING_KILLS`: a cancel that waits, and whether its event is set. -/
structure Waiter where
  reservationId : Nat
  signalled : Bool
deriving DecidableEq, Repr

/-- `_PENDING_KILLS`. -/
abbrev PendingKills := List Waiter

namespace PendingKills

/-- `_discard_pending_kill`. -/
def discard (kills : PendingKills) (id : Nat) : PendingKills :=
  kills.filter fun w => w.reservationId ≠ id

/-- `_register_pending_kill`: a fresh event under the id. -/
def register (kills : PendingKills) (id : Nat) : PendingKills :=
  { reservationId := id, signalled := false } :: discard kills id

/-- `_signal_lifecycle_kill`. -/
def signal (kills : PendingKills) (id : Int) : PendingKills :=
  kills.map fun w => if (w.reservationId : Int) = id then { w with signalled := true } else w

/-- The waiter of a reservation is signalled. -/
def isSignalled (kills : PendingKills) (id : Nat) : Bool :=
  kills.any fun w => w.reservationId = id && w.signalled

/-- A fresh waiter waits. -/
theorem isSignalled_register (kills : PendingKills) (id : Nat) :
    (kills.register id).isSignalled id = false := by
  simp only [register, discard, isSignalled, List.any_cons, Bool.and_false, Bool.false_or,
    List.any_eq_false, List.mem_filter]
  grind

/-- A signal wakes the waiters of its reservation only. -/
theorem isSignalled_signal {kills : PendingKills} {id : Int} {k : Nat}
    (h : (kills.signal id).isSignalled k = true) : kills.isSignalled k = true ∨ id = (k : Int) := by
  simp only [isSignalled, signal, List.any_map, List.any_eq_true, Function.comp_apply] at h ⊢
  obtain ⟨w, hw, hsignalled⟩ := h
  split at hsignalled
  · next hid =>
      simp only [Bool.and_true, decide_eq_true_eq] at hsignalled
      exact Or.inr (hsignalled ▸ hid.symm)
  · exact Or.inl ⟨w, hw, hsignalled⟩

end PendingKills

/-! ## handlers -/

/-- `session.get(Reservation, id)`; no row has a negative id. -/
def findReservation (db : Db) (id : Int) : Option Reservation :=
  if 0 ≤ id then db.reservations.get? id.toNat else none

/-- A path that the column takes: `VARCHAR(255)`. -/
def logPathFits (logPath : Option String) : Bool := logPath.all fun p => decide (p.length ≤ 255)

/-- The log path of a frame, where it carries one. -/
def withLogPath (r : Reservation) (logPath : Option String) : Reservation :=
  if truthy logPath then { r with scriptLogPath := logPath } else r

/-- `on_script_started`: a running row loses its dispatch marker, a row that
never fired becomes running, and both put the start on record. -/
def onScriptStarted (db : Db) (p : ScriptStartedEvent) : Except Failure Db :=
  match findReservation db p.reservationId with
  | none => .ok db
  | some row =>
    match row.scriptStatus with
    | some .running => do
      let row := withLogPath { row with
        scriptDispatchStartedAt := none
        scriptStartedAt := row.scriptStartedAt.or (some p.startedAt.stored) } p.logPath
      raiseIf (!logPathFits p.logPath) .integrity
      .ok (db.write row [reservationAudit .scriptLifecycleStarted none row])
    | none => do
      let (db, row) ← updateScriptStatus db row .running none (some p.startedAt.stored) none
      let row := withLogPath row p.logPath
      raiseIf (!logPathFits p.logPath) .integrity
      .ok (db.write row [reservationAudit .scriptLifecycleStarted none row])
    | some _ => .ok db

/-- `on_script_output_chunk`. -/
def onScriptOutputChunk (db : Db) (p : ScriptOutputChunkEvent) : Db :=
  match findReservation db p.reservationId with
  | none => db
  | some row => appendScriptLogTail db row p.text

/-- The terminal script status a finished frame reports. -/
def ScriptFinishedEvent.newStatus (p : ScriptFinishedEvent) : ScriptStatus :=
  if p.killedByCorelab then .killed else if p.exitCode = some 0 then .completed else .failed

/-- The columns take what the frame reports: an `INTEGER` for the exit code, an
`INTEGER UNSIGNED` for the size of the log, and the path. -/
def ScriptFinishedEvent.fits (p : ScriptFinishedEvent) : Bool :=
  p.exitCode.all (fun code => decide (-2 ^ 31 ≤ code ∧ code < 2 ^ 31)) &&
    (unsignedColumn 32 p.outputSizeBytes).isSome && logPathFits p.logPath

/-- A running row takes the reported status, with the size and path of its log. -/
def finishRunning (db : Db) (row : Reservation) (p : ScriptFinishedEvent) : Except Failure Db := do
  let (db, row) ← updateScriptStatus db row p.newStatus p.exitCode none (some p.finishedAt.stored)
  -- one of the two flushes fails
  raiseIf (!p.fits) .integrity
  let row := if p.outputSizeBytes = 0 then row
    else { row with scriptOutputSizeBytes := some p.outputSizeBytes.toNat }
  .ok (db.write (withLogPath row p.logPath) [])

/-- `on_script_finished`: a kill wakes the cancel that waits for it, also when
the row was not running any more. -/
def onScriptFinished (db : Db) (kills : PendingKills) (p : ScriptFinishedEvent) :
    Except Failure (Db × PendingKills) :=
  let kills' := if p.killedByCorelab then kills.signal p.reservationId else kills
  match findReservation db p.reservationId with
  | none => .ok (db, kills)
  | some row =>
    if row.scriptStatus = some .running then do
      let db ← finishRunning db row p
      .ok (db, kills')
    else .ok (db, kills')

/-! ## what a handler can do -/

theorem findReservation_eq_some {db : Db} {id : Int} {r : Reservation}
    (h : findReservation db id = some r) : (r.id : Int) = id ∧ db.reservations.get? r.id = some r := by
  unfold findReservation at h
  split at h
  · next hid =>
      have hkey : r.id = id.toNat := Table.key_of_get? h
      exact ⟨by omega, hkey ▸ h⟩
  · cases h

theorem updateScriptStatus_ok {db db' : Db} {r row : Reservation} {new : ScriptStatus}
    {exitCode : Option Int} {startedAt finishedAt : Option Time}
    (h : updateScriptStatus db r new exitCode startedAt finishedAt = .ok (db', row)) :
    ScriptStatus.allowed r.scriptStatus new = true ∧ row.scriptStatus = some new ∧
      row.id = r.id ∧ db' = db.write row [reservationAudit .scriptLifecycle none row] ∧
      row = { r with
        scriptStatus := some new, scriptStartedAt := row.scriptStartedAt
        scriptFinishedAt := row.scriptFinishedAt, scriptExitCode := row.scriptExitCode } := by
  simp only [updateScriptStatus, check_bind_eq_ok_iff, raiseIf_eq_ok_iff, Except.ok.injEq,
    Prod.mk.injEq] at h
  obtain ⟨hallowed, hdb, hrow⟩ := h
  refine ⟨by simpa using hallowed, ?_, ?_, hrow ▸ hdb.symm, ?_⟩
  all_goals rw [← hrow]; split <;> simp_all

/-- Two versions of a row that differ in their script's progress only. -/
structure SameBooking (r r' : Reservation) : Prop where
  id : r'.id = r.id
  userId : r'.userId = r.userId
  serverId : r'.serverId = r.serverId
  gpuId : r'.gpuId = r.gpuId
  accountLinkId : r'.accountLinkId = r.accountLinkId
  startAt : r'.startAt = r.startAt
  endAt : r'.endAt = r.endAt
  status : r'.status = r.status
  script : r'.script = r.script
  scriptScheduledStartAt : r'.scriptScheduledStartAt = r.scriptScheduledStartAt
  gpuMemoryMb : r'.gpuMemoryMb = r.gpuMemoryMb
  gpuComputeSharePct : r'.gpuComputeSharePct = r.gpuComputeSharePct

/-- The audit rows of a reservation do not show its script's progress. -/
theorem SameBooking.audit {r r' : Reservation} (h : SameBooking r r') (action : AuditAction)
    (actor : Option Nat) : reservationAudit action actor r' = reservationAudit action actor r := by
  rw [reservationAudit, reservationAudit, h.id, h.serverId]

theorem sameBooking_withLogPath {r r' : Reservation} (h : SameBooking r r') (path : Option String) :
    SameBooking r (withLogPath r' path) := by
  unfold withLogPath
  split
  · exact ⟨h.id, h.userId, h.serverId, h.gpuId, h.accountLinkId, h.startAt, h.endAt, h.status,
      h.script, h.scriptScheduledStartAt, h.gpuMemoryMb, h.gpuComputeSharePct⟩
  · exact h

@[simp] theorem scriptStatus_withLogPath (r : Reservation) (path : Option String) :
    (withLogPath r path).scriptStatus = r.scriptStatus := by
  unfold withLogPath; split <;> rfl

@[simp] theorem scriptDispatchStartedAt_withLogPath (r : Reservation) (path : Option String) :
    (withLogPath r path).scriptDispatchStartedAt = r.scriptDispatchStartedAt := by
  unfold withLogPath; split <;> rfl

/-- What a started frame does: nothing, to no row or to one whose script ended;
or it leaves its row running, with the start on record. -/
inductive StartedCase (db : Db) (p : ScriptStartedEvent) (db' : Db) : Prop where
  | unknown (h : findReservation db p.reservationId = none) (eq : db' = db)
  | stale (row : Reservation) (h : findReservation db p.reservationId = some row)
      (ended : row.scriptStatus ≠ none ∧ row.scriptStatus ≠ some .running) (eq : db' = db)
  | recorded (row row' : Reservation) (entries : List AuditEntry)
      (h : findReservation db p.reservationId = some row)
      (live : row.scriptStatus = none ∨ row.scriptStatus = some .running)
      (booking : SameBooking row row') (running : row'.scriptStatus = some .running)
      (marker : row'.scriptDispatchStartedAt =
        if row.scriptStatus = none then row.scriptDispatchStartedAt else none)
      (actions : ∀ e ∈ entries, e.action ≠ .scriptDispatchAttemptFailed)
      (record : reservationAudit .scriptLifecycleStarted none row ∈ entries)
      (others : ∀ e ∈ entries, e.targetId = some row.id)
      (eq : db' = db.write row' entries)

theorem onScriptStarted_ok {db db' : Db} {p : ScriptStartedEvent}
    (h : onScriptStarted db p = .ok db') : StartedCase db p db' := by
  unfold onScriptStarted at h
  cases hrow : findReservation db p.reservationId with
  | none =>
      rw [hrow] at h
      exact .unknown hrow (Except.ok.inj h).symm
  | some row =>
      simp only [hrow] at h
      split at h
      · next hstatus =>
          -- dispatched before: the marker is cleared, the start recorded
          have hbooking : SameBooking row (withLogPath { row with
              scriptDispatchStartedAt := none
              scriptStartedAt := row.scriptStartedAt.or (some p.startedAt.stored) } p.logPath) := by
            apply sameBooking_withLogPath
            constructor <;> rfl
          rw [hbooking.audit, check_bind_eq_ok_iff] at h
          exact .recorded row _ [reservationAudit .scriptLifecycleStarted none row] hrow (Or.inr hstatus)
            hbooking (by simp [hstatus]) (by simp [hstatus]) (by simp [reservationAudit]) (by simp)
            (by simp [reservationAudit]) (Except.ok.inj h.2).symm
      · next hstatus =>
          -- not dispatched: the row starts to run here, with an audit row of its own
          simp only [bind_eq_ok_iff, Prod.exists] at h
          obtain ⟨db1, row1, hup, -, -, hdb⟩ := h
          obtain ⟨-, hrunning, hid, hdb1, heq⟩ := updateScriptStatus_ok hup
          have hbooking1 : SameBooking row row1 := by
            rw [heq]
            constructor <;> rfl
          have hbooking := sameBooking_withLogPath hbooking1 p.logPath
          have hmarker : row1.scriptDispatchStartedAt = row.scriptDispatchStartedAt := by rw [heq]
          have hdb' : db' = db.write (withLogPath row1 p.logPath)
              ([reservationAudit .scriptLifecycle none row] ++
                [reservationAudit .scriptLifecycleStarted none row]) := by
            rw [← Except.ok.inj hdb, hdb1, hbooking.audit, hbooking1.audit,
              Db.write_write _ (hid.trans hbooking.id.symm)]
          exact .recorded row _ _ hrow (Or.inl hstatus) hbooking (by simp [hrunning])
            (by simp [hstatus, hmarker]) (by simp [reservationAudit]) (by simp)
            (by simp [reservationAudit]) hdb'
      · next status hne hstatus =>
          refine .stale row hrow ⟨?_, ?_⟩ (Except.ok.inj h).symm
          · rw [hstatus]; exact Option.some_ne_none status
          · rw [hstatus]; exact fun he => hne (Option.some.inj he)

theorem newStatus_ne_running (p : ScriptFinishedEvent) : p.newStatus ≠ .running := by
  unfold ScriptFinishedEvent.newStatus
  split
  · decide
  · split <;> decide

theorem finishRunning_ok {db db' : Db} {row : Reservation} {p : ScriptFinishedEvent}
    (h : finishRunning db row p = .ok db') :
    ∃ row' entries, SameBooking row row' ∧ row'.scriptStatus = some p.newStatus ∧
      row'.scriptDispatchStartedAt = row.scriptDispatchStartedAt ∧
      (∀ e ∈ entries, e.action = .scriptLifecycle) ∧ db' = db.write row' entries := by
  simp only [finishRunning, bind_eq_ok_iff, Prod.exists] at h
  obtain ⟨db1, row1, hup, -, -, h⟩ := h
  obtain ⟨-, hstatus, hid, hdb1, heq⟩ := updateScriptStatus_ok hup
  -- the size and the log path are set on the row the status was set on
  generalize hsized : (if p.outputSizeBytes = 0 then row1
    else { row1 with scriptOutputSizeBytes := some p.outputSizeBytes.toNat }) = sized at h
  have hbooking : SameBooking row sized := by
    rw [← hsized, heq]
    split <;> constructor <;> rfl
  have hfields : sized.scriptStatus = some p.newStatus ∧
      sized.scriptDispatchStartedAt = row.scriptDispatchStartedAt := by
    rw [← hsized, heq]
    split <;> exact ⟨rfl, rfl⟩
  have hpath := sameBooking_withLogPath hbooking p.logPath
  refine ⟨_, [reservationAudit .scriptLifecycle none row1] ++ [], hpath, by simp [hfields.1],
    by simp [hfields.2], ?_, ?_⟩
  · intro e he
    obtain rfl := List.mem_singleton.mp he
    rfl
  · rw [← Except.ok.inj h, hdb1, Db.write_write _ (hid.trans hpath.id.symm)]

/-- The registry after a finished frame. -/
def killsAfter (kills : PendingKills) (p : ScriptFinishedEvent) : PendingKills :=
  if p.killedByCorelab then kills.signal p.reservationId else kills

/-- A finished frame wakes the waiters of its reservation only, and only for a kill. -/
theorem isSignalled_killsAfter {kills : PendingKills} {p : ScriptFinishedEvent} {k : Nat}
    (h : (killsAfter kills p).isSignalled k = true) :
    kills.isSignalled k = true ∨ p.killedByCorelab = true ∧ p.reservationId = (k : Int) := by
  unfold killsAfter at h
  split at h
  · next hkilled => exact (PendingKills.isSignalled_signal h).imp_right fun hid => ⟨hkilled, hid⟩
  · exact Or.inl h

/-- What a finished frame does: nothing, to no row; only the wake-up, to a row
that was not running; or it leaves its row with the reported status. -/
inductive FinishedCase (db : Db) (kills : PendingKills) (p : ScriptFinishedEvent) (db' : Db)
    (kills' : PendingKills) : Prop where
  | unknown (h : findReservation db p.reservationId = none) (eq : db' = db) (keep : kills' = kills)
  | stale (row : Reservation) (h : findReservation db p.reservationId = some row)
      (idle : row.scriptStatus ≠ some .running) (eq : db' = db) (wake : kills' = killsAfter kills p)
  | ended (row row' : Reservation) (entries : List AuditEntry)
      (h : findReservation db p.reservationId = some row)
      (running : row.scriptStatus = some .running)
      (booking : SameBooking row row') (status : row'.scriptStatus = some p.newStatus)
      (marker : row'.scriptDispatchStartedAt = row.scriptDispatchStartedAt)
      (actions : ∀ e ∈ entries, e.action = .scriptLifecycle)
      (eq : db' = db.write row' entries) (wake : kills' = killsAfter kills p)

/-- The registry is left alone, or the waiter of the frame is woken. -/
theorem FinishedCase.kills_eq {db db' : Db} {kills kills' : PendingKills} {p : ScriptFinishedEvent}
    (h : FinishedCase db kills p db' kills') : kills' = kills ∨ kills' = killsAfter kills p := by
  cases h with
  | unknown _ _ keep => exact Or.inl keep
  | stale _ _ _ _ wake => exact Or.inr wake
  | ended _ _ _ _ _ _ _ _ _ _ wake => exact Or.inr wake

/-- Where the frame names a row, its waiter is woken. -/
theorem FinishedCase.kills_eq_of_row {db db' : Db} {kills kills' : PendingKills}
    {p : ScriptFinishedEvent} (h : FinishedCase db kills p db' kills') {r : Reservation}
    (hr : findReservation db p.reservationId = some r) : kills' = killsAfter kills p := by
  cases h with
  | unknown hnone _ _ =>
      rw [hnone] at hr
      cases hr
  | stale _ _ _ _ wake => exact wake
  | ended _ _ _ _ _ _ _ _ _ _ wake => exact wake

theorem onScriptFinished_ok {db db' : Db} {kills kills' : PendingKills} {p : ScriptFinishedEvent}
    (h : onScriptFinished db kills p = .ok (db', kills')) : FinishedCase db kills p db' kills' := by
  unfold onScriptFinished at h
  cases hrow : findReservation db p.reservationId with
  | none =>
      simp only [hrow] at h
      obtain ⟨hdb, hkills⟩ := Prod.mk.inj (Except.ok.inj h)
      exact .unknown hrow hdb.symm hkills.symm
  | some row =>
      simp only [hrow] at h
      split at h
      · next hrunning =>
          simp only [bind_eq_ok_iff] at h
          obtain ⟨db1, hfinish, h⟩ := h
          obtain ⟨hdb, hkills⟩ := Prod.mk.inj (Except.ok.inj h)
          subst hdb
          obtain ⟨row', entries, hbooking, hstatus, hmarker, hactions, heq⟩ := finishRunning_ok hfinish
          exact .ended row row' entries hrow hrunning hbooking hstatus hmarker hactions heq hkills.symm
      · next hidle =>
          obtain ⟨hdb, hkills⟩ := Prod.mk.inj (Except.ok.inj h)
          exact .stale row hrow hidle hdb.symm hkills.symm

/-- What an output chunk does: nothing, or it rewrites the log tail of its row. -/
theorem onScriptOutputChunk_cases (db : Db) (p : ScriptOutputChunkEvent) :
    onScriptOutputChunk db p = db ∨
      ∃ row row', findReservation db p.reservationId = some row ∧ p.text ≠ "" ∧
        SameBooking row row' ∧ row'.scriptStatus = row.scriptStatus ∧
        row'.scriptDispatchStartedAt = row.scriptDispatchStartedAt ∧
        onScriptOutputChunk db p = db.write row' [] := by
  unfold onScriptOutputChunk
  cases hrow : findReservation db p.reservationId with
  | none => exact Or.inl rfl
  | some row =>
      by_cases htext : p.text = ""
      · exact Or.inl (by simp [appendScriptLogTail, htext])
      · simp only [appendScriptLogTail, if_neg htext]
        refine Or.inr ⟨row, _, rfl, htext, ?_, ?_, ?_, rfl⟩
        · split <;> constructor <;> rfl
        · split <;> rfl
        · split <;> rfl

end CoreLab
