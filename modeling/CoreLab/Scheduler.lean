import CoreLab.Transitions

/-!
# CoreLab.Scheduler

One pass of the reservation scheduler: promote due rows, close rows that ended,
mark and queue due scripts, and reap dispatches that stay unacknowledged.  The
four stages share one session; the execute requests they queue are sent after
the transaction commits.

* `Effect` — what a stage does to one row;
* `tickBody_ok` — a tick that commits rewrites every row by `tickRow`, queues
  exactly what its rows are due, and adds neither a start nor a dispatch
  failure to the audit trail.
-/

namespace CoreLab

open Relational Loops

/-- `WATCHDOG_STUCK_SECONDS`. -/
def watchdogStuckSeconds : Nat := 60

/-- `WATCHDOG_MAX_DISPATCH_ATTEMPTS`. -/
def watchdogMaxDispatchAttempts : Nat := 3

/-! ## the execute request -/

/-- `ExecuteScriptRequest`, with the fields the scheduler fills. -/
structure ExecuteScriptRequest where
  reservationId : Nat
  linuxUsername : String
  script : String
  maxRuntimeSeconds : Option Nat
  stdoutLogPathHint : String
deriving DecidableEq, Repr

/-- One queued `backend.script.execute`. -/
structure Dispatch where
  reservationId : Nat
  serverId : Nat
  payload : ExecuteScriptRequest
deriving DecidableEq, Repr

/-- `_build_execute_payload`; it asserts that the row has a script. -/
def buildExecutePayload (r : Reservation) (linuxUsername : String) :
    Except Failure ExecuteScriptRequest :=
  match r.script with
  | none => .error .assertion
  | some script => .ok
    { reservationId := r.id
      linuxUsername := linuxUsername
      script := script
      maxRuntimeSeconds := r.scriptMaxRuntimeSeconds
      stdoutLogPathHint := s!"/home/{linuxUsername}/.corelab/jobs/{r.id}.log" }

/-! ## what the stages read -/

/-- `_server_lab_id`. -/
def serverLabId (db : Db) (serverId : Nat) : Option Nat := (db.servers.get? serverId).map (·.labId)

/-- The account behind a link: `account_link JOIN physical_account`. -/
def linuxUsernameOf (db : Db) (accountLinkId : Nat) : Option String :=
  (db.accountLinks.get? accountLinkId).bind fun link =>
    (db.physicalAccounts.get? link.physicalAccountId).map (·.linuxUsername)

/-- The audit rows with an action about a reservation. -/
def countAudit (log : List AuditEntry) (action : AuditAction) (reservationId : Nat) : Nat :=
  log.countP fun e =>
    e.action = action && e.targetType = .reservation && e.targetId = some reservationId

/-- `_count_dispatch_failures`. -/
def countDispatchFailures (db : Db) (reservationId : Nat) : Nat :=
  countAudit db.auditLog .scriptDispatchAttemptFailed reservationId

/-- `_lifecycle_started_seen`. -/
def lifecycleStartedSeen (db : Db) (reservationId : Nat) : Bool :=
  decide (0 < countAudit db.auditLog .scriptLifecycleStarted reservationId)

/-! ## the four stages -/

/-- The session of a tick: the database it writes, and the queues on `session.info`. -/
structure TickSession where
  db : Db
  pending : List Dispatch

/-- The row is selected for promotion. -/
def dueToStart (now : Time) (r : Reservation) : Bool :=
  r.status = .scheduled && decide (r.startAt ≤ now)

/-- The row is selected for closing. -/
def dueToEnd (now : Time) (r : Reservation) : Bool :=
  r.status = .active && decide (r.endAt ≤ now)

/-- The row is selected for dispatch, but for the join with its account. -/
def dueToDispatch (now : Time) (r : Reservation) : Bool :=
  r.status = .active && r.script.isSome && r.scriptScheduledStartAt.any (fun t => decide (t ≤ now)) &&
    r.scriptStatus.isNone

/-- The row is selected by the watchdog. -/
def stuck (now : Time) (r : Reservation) : Bool :=
  r.status = .active && r.scriptStatus = some .running &&
    r.scriptDispatchStartedAt.any fun t => decide (t < now - watchdogStuckSeconds * secondMicros)

/-- `_promote_due_scheduled`. -/
def promoteDueScheduled (s : TickSession) (now : Time) : Except Failure TickSession :=
  (s.db.reservations.rows.filter (dueToStart now)).foldlM (fun s r =>
    match serverLabId s.db r.serverId with
    | none => .ok s
    | some _ => do
      let db ← transitionToActive s.db r
      .ok { s with db := db }) s

/-- Close one row by the outcome of its script. -/
def closeRow (db : Db) (r : Reservation) : Except Failure Db :=
  match r.scriptStatus with
  | some .failed => transitionToFailed db r "script_failed"
  | some .killed => transitionToFailed db r "script_killed"
  | _ => transitionToCompleted db r

/-- `_close_due_active`. -/
def closeDueActive (s : TickSession) (now : Time) : Except Failure TickSession :=
  (s.db.reservations.rows.filter (dueToEnd now)).foldlM (fun s r =>
    match serverLabId s.db r.serverId with
    | none => .ok s
    | some _ => do
      let db ← closeRow s.db r
      .ok { s with db := db }) s

/-- `_dispatch_due_scripts`. -/
def dispatchDueScripts (s : TickSession) (now : Time) : Except Failure TickSession :=
  let rows := s.db.reservations.rows.filterMap fun r =>
    if dueToDispatch now r then (linuxUsernameOf s.db r.accountLinkId).map fun u => (r, u) else none
  rows.foldlM (fun s (r, linuxUsername) =>
    match serverLabId s.db r.serverId with
    | none => .ok s
    | some _ => do
      let db ← markScriptDispatched s.db r now
      let payload ← buildExecutePayload r linuxUsername
      .ok { db := db, pending := s.pending ++ [⟨r.id, r.serverId, payload⟩] }) s

/-- The reason a given-up dispatch is failed with. -/
def giveUpReason : String :=
  s!"dispatch_{watchdogMaxDispatchAttempts}x_failed_after_{watchdogStuckSeconds}s"

/-- One row of `_retry_stuck_dispatches`: heal, give up, or send again. -/
def retryStuckDispatch (s : TickSession) (now : Time) (r : Reservation) :
    Except Failure TickSession :=
  if lifecycleStartedSeen s.db r.id then
    .ok { s with db := s.db.write { r with scriptDispatchStartedAt := none } [] }
  else if watchdogMaxDispatchAttempts ≤ countDispatchFailures s.db r.id then do
    let db ← transitionToFailed s.db r giveUpReason
    .ok { s with db := db }
  else
    match linuxUsernameOf s.db r.accountLinkId with
    | none => .ok s
    | some linuxUsername => do
      let payload ← buildExecutePayload r linuxUsername
      let row := { r with scriptDispatchStartedAt := some now }
      .ok { db := s.db.write row [reservationAudit .scriptDispatchRetry none r]
            pending := s.pending ++ [⟨r.id, r.serverId, payload⟩] }

/-- `_retry_stuck_dispatches`. -/
def retryStuckDispatches (s : TickSession) (now : Time) : Except Failure TickSession :=
  (s.db.reservations.rows.filter (stuck now)).foldlM (fun s r =>
    match serverLabId s.db r.serverId with
    | none => .ok s
    | some _ => retryStuckDispatch s now r) s

/-- `_tick_body`: one transactional pass; an error rolls all of it back. -/
def tickBody (db : Db) (now : Time) : Except Failure TickSession := do
  let s ← promoteDueScheduled { db := db, pending := [] } now
  let s ← closeDueActive s now
  let s ← dispatchDueScripts s now
  retryStuckDispatches s now

/-! ## the effect of a stage on one row -/

/-- What a stage does to a row it acts on. -/
structure Effect where
  row : Reservation
  entries : List AuditEntry := []
  pending : List Dispatch := []

/-- Write an effect into the session. -/
def TickSession.apply (s : TickSession) (e : Option Effect) : TickSession :=
  e.elim s fun e => { db := s.db.write e.row e.entries, pending := s.pending ++ e.pending }

/-- The execute request queued for a row. -/
def dispatchOf (r : Reservation) (linuxUsername script : String) : Dispatch :=
  { reservationId := r.id
    serverId := r.serverId
    payload :=
      { reservationId := r.id
        linuxUsername := linuxUsername
        script := script
        maxRuntimeSeconds := r.scriptMaxRuntimeSeconds
        stdoutLogPathHint := s!"/home/{linuxUsername}/.corelab/jobs/{r.id}.log" } }

/-- The row's server is known. -/
def hasServer (db : Db) (r : Reservation) : Bool := (serverLabId db r.serverId).isSome

def promoteEffect (db : Db) (now : Time) (r : Reservation) : Option Effect :=
  if dueToStart now r && hasServer db r then
    some { row := { r with status := .active }
           entries := [reservationAudit .reservationTransition none r] }
  else none

/-- The row as `transition_to_failed` leaves it. -/
def failedRow (r : Reservation) (reason : String) : Reservation :=
  { r with
    status := .failed
    cancellationReason :=
      if truthy r.cancellationReason then r.cancellationReason else some reason }

/-- The row as closing leaves it. -/
def closedRow (r : Reservation) : Reservation :=
  match r.scriptStatus with
  | some .failed => failedRow r "script_failed"
  | some .killed => failedRow r "script_killed"
  | _ => { r with status := .completed }

theorem not_occupies_closedRow (r : Reservation) : (closedRow r).occupies = false := by
  unfold closedRow
  split <;> rfl

def closeEffect (db : Db) (now : Time) (r : Reservation) : Option Effect :=
  if dueToEnd now r && hasServer db r then
    some { row := closedRow r
           entries := [reservationAudit .reservationTransition none r] }
  else none

def dispatchEffect (db : Db) (now : Time) (r : Reservation) : Option Effect :=
  if dueToDispatch now r && hasServer db r then
    (linuxUsernameOf db r.accountLinkId).map fun linuxUsername =>
      { row := { r with scriptStatus := some .running, scriptDispatchStartedAt := some now }
        entries := [reservationAudit .scriptDispatched none r]
        pending := [dispatchOf r linuxUsername (r.script.getD "")] }
  else none

def watchdogEffect (db : Db) (now : Time) (r : Reservation) : Option Effect :=
  if stuck now r && hasServer db r then
    if lifecycleStartedSeen db r.id then
      some { row := { r with scriptDispatchStartedAt := none } }
    else if watchdogMaxDispatchAttempts ≤ countDispatchFailures db r.id then
      some { row := failedRow r giveUpReason
             entries := [reservationAudit .reservationTransition none r] }
    else
      (linuxUsernameOf db r.accountLinkId).map fun linuxUsername =>
        { row := { r with scriptDispatchStartedAt := some now }
          entries := [reservationAudit .scriptDispatchRetry none r]
          pending := [dispatchOf r linuxUsername (r.script.getD "")] }
  else none

/-! ## stages, row by row -/

/-- What a tick reads besides the reservation rows is the same in both databases. -/
structure SameContext (db d : Db) : Prop where
  servers : d.servers = db.servers
  gpus : d.gpus = db.gpus
  accountLinks : d.accountLinks = db.accountLinks
  physicalAccounts : d.physicalAccounts = db.physicalAccounts
  failures : ∀ id, countDispatchFailures d id = countDispatchFailures db id
  started : ∀ id, lifecycleStartedSeen d id = lifecycleStartedSeen db id

theorem SameContext.refl (db : Db) : SameContext db db :=
  ⟨rfl, rfl, rfl, rfl, fun _ => rfl, fun _ => rfl⟩

theorem SameContext.trans {a b c : Db} (h : SameContext a b) (k : SameContext b c) :
    SameContext a c :=
  ⟨k.servers.trans h.servers, k.gpus.trans h.gpus, k.accountLinks.trans h.accountLinks,
    k.physicalAccounts.trans h.physicalAccounts, fun id => (k.failures id).trans (h.failures id),
    fun id => (k.started id).trans (h.started id)⟩

/-- Audit rows that record neither a start nor a dispatch failure. -/
def Quiet (entries : List AuditEntry) : Prop :=
  ∀ e ∈ entries, e.action ≠ .scriptDispatchAttemptFailed ∧ e.action ≠ .scriptLifecycleStarted

theorem countAudit_append (log entries : List AuditEntry) (action : AuditAction) (id : Nat) :
    countAudit (log ++ entries) action id = countAudit log action id + countAudit entries action id :=
  List.countP_append

theorem countAudit_eq_zero {entries : List AuditEntry} {action : AuditAction} (id : Nat)
    (h : ∀ e ∈ entries, e.action ≠ action) : countAudit entries action id = 0 := by
  rw [countAudit, List.countP_eq_zero]
  intro e he
  simp [h e he]

/-- The audit trail only grows, so a start stays on record. -/
theorem lifecycleStartedSeen_mono {db db' : Db} {entries : List AuditEntry}
    (h : db'.auditLog = db.auditLog ++ entries) {id : Nat} (hs : lifecycleStartedSeen db id = true) :
    lifecycleStartedSeen db' id = true := by
  unfold lifecycleStartedSeen at hs ⊢
  rw [h, countAudit_append]
  rw [decide_eq_true_eq] at hs ⊢
  omega

/-- The start of a row on record is seen. -/
theorem lifecycleStartedSeen_of_record {db' : Db} {log entries : List AuditEntry} {r : Reservation}
    (h : db'.auditLog = log ++ entries)
    (hrecord : reservationAudit .scriptLifecycleStarted none r ∈ entries) :
    lifecycleStartedSeen db' r.id = true := by
  rw [lifecycleStartedSeen, h, countAudit_append, decide_eq_true_eq]
  have hpos : 0 < countAudit entries .scriptLifecycleStarted r.id := by
    rw [countAudit, List.countP_pos_iff]
    exact ⟨_, hrecord, by simp [reservationAudit]⟩
  omega

theorem sameContext_write (db : Db) (r : Reservation) {entries : List AuditEntry}
    (h : Quiet entries) : SameContext db (db.write r entries) := by
  refine ⟨rfl, rfl, rfl, rfl, fun id => ?_, fun id => ?_⟩
  · rw [countDispatchFailures, countDispatchFailures, Db.auditLog_write, countAudit_append,
      countAudit_eq_zero id fun e he => (h e he).1, Nat.add_zero]
  · rw [lifecycleStartedSeen, lifecycleStartedSeen, Db.auditLog_write, countAudit_append,
      countAudit_eq_zero id fun e he => (h e he).2, Nat.add_zero]

/-- The row after a stage. -/
def rowAfter (eff : Reservation → Option Effect) (r : Reservation) : Reservation :=
  (eff r).elim r (·.row)

/-- What a stage queues for a row. -/
def queuedFor (eff : Reservation → Option Effect) (r : Reservation) : List Dispatch :=
  (eff r).elim [] (·.pending)

/-- The effect rewrites the row under its own key and writes quiet audit rows. -/
def Local (eff : Reservation → Option Effect) : Prop :=
  ∀ r e, eff r = some e → e.row.id = r.id ∧ Quiet e.entries

/-- What a stage leaves: every row rewritten by its effect, the queue extended. -/
structure StageResult (s t : TickSession) (eff : Reservation → Option Effect) : Prop where
  rows : t.db.reservations.rows = s.db.reservations.rows.map (rowAfter eff)
  pending : t.pending = s.pending ++ s.db.reservations.rows.flatMap (queuedFor eff)
  context : SameContext s.db t.db

theorem sameContext_apply {s : TickSession} {eff : Reservation → Option Effect}
    (hlocal : Local eff) (r : Reservation) : SameContext s.db (s.apply (eff r)).db := by
  cases he : eff r with
  | none => exact .refl _
  | some e => exact sameContext_write _ _ (hlocal r e he).2

theorem foldl_apply_pending (eff : Reservation → Option Effect) (l : List Reservation)
    (s : TickSession) :
    (l.foldl (fun s r => s.apply (eff r)) s).pending = s.pending ++ l.flatMap (queuedFor eff) := by
  induction l generalizing s with
  | nil => simp
  | cons r l ih =>
      rw [List.foldl_cons, ih, List.flatMap_cons, ← List.append_assoc]
      congr 1
      unfold queuedFor TickSession.apply
      cases eff r <;> simp

theorem foldl_apply_reservations (eff : Reservation → Option Effect) (l : List Reservation)
    (s : TickSession) :
    (l.foldl (fun s r => s.apply (eff r)) s).db.reservations =
      l.foldl (fun t r => ((eff r).map (·.row)).elim t t.put) s.db.reservations := by
  induction l generalizing s with
  | nil => rfl
  | cons r l ih =>
      rw [List.foldl_cons, List.foldl_cons, ih]
      congr 1
      unfold TickSession.apply
      cases eff r <;> rfl

/-- **A stage, row by row**: a loop over the rows whose body does to each row
what its effect says. -/
theorem stageResult_of_loop {s t : TickSession} {eff : Reservation → Option Effect}
    {body : TickSession → Reservation → Except Failure TickSession} (hlocal : Local eff)
    (hbody : ∀ r ∈ s.db.reservations.rows, ∀ u v, SameContext s.db u.db → body u r = .ok v →
      v = u.apply (eff r))
    (h : s.db.reservations.rows.foldlM body s = .ok t) : StageResult s t eff := by
  have hloop : t = s.db.reservations.rows.foldl (fun u r => u.apply (eff r)) s ∧
      SameContext s.db t.db := by
    refine foldlM_ok (fun u => SameContext s.db u.db) ?_ (.refl _) h
    intro r hr u v hu hv
    have hv' := hbody r hr u v hu hv
    exact ⟨hv', hv' ▸ hu.trans (sameContext_apply hlocal r)⟩
  obtain ⟨rfl, hcontext⟩ := hloop
  refine ⟨?_, foldl_apply_pending eff _ s, hcontext⟩
  have hkey : ∀ r r', (eff r).map (·.row) = some r' → r'.id = r.id := by
    intro r r' hr'
    obtain ⟨e, he, rfl⟩ := Option.map_eq_some_iff.mp hr'
    exact (hlocal r e he).1
  rw [foldl_apply_reservations, Table.foldl_putOption _ (fun r => (eff r).map (·.row)) hkey,
    Table.rows_mapRows]
  apply List.map_congr_left
  intro r _
  unfold rowAfter
  cases eff r <;> rfl

/-! ## the four stages -/

theorem quiet_singleton {action : AuditAction} {actor : Option Nat} {r : Reservation}
    (h : action ≠ .scriptDispatchAttemptFailed ∧ action ≠ .scriptLifecycleStarted) :
    Quiet [reservationAudit action actor r] := by
  intro e he
  obtain rfl := List.mem_singleton.mp he
  exact h

theorem local_promoteEffect (db : Db) (now : Time) : Local (promoteEffect db now) := by
  intro r e he
  unfold promoteEffect at he
  split at he
  · cases he
    exact ⟨rfl, quiet_singleton (by decide)⟩
  · cases he

theorem local_closeEffect (db : Db) (now : Time) : Local (closeEffect db now) := by
  intro r e he
  unfold closeEffect at he
  split at he
  · cases he
    refine ⟨?_, quiet_singleton (by decide)⟩
    dsimp only [closedRow]
    split <;> rfl
  · cases he

theorem local_dispatchEffect (db : Db) (now : Time) : Local (dispatchEffect db now) := by
  intro r e he
  unfold dispatchEffect at he
  split at he
  · obtain ⟨u, -, rfl⟩ := Option.map_eq_some_iff.mp he
    exact ⟨rfl, quiet_singleton (by decide)⟩
  · cases he

theorem local_watchdogEffect (db : Db) (now : Time) : Local (watchdogEffect db now) := by
  intro r e he
  unfold watchdogEffect at he
  split at he
  · split at he
    · cases he
      exact ⟨rfl, fun e he => nomatch he⟩
    · split at he
      · cases he
        exact ⟨rfl, quiet_singleton (by decide)⟩
      · obtain ⟨u, -, rfl⟩ := Option.map_eq_some_iff.mp he
        exact ⟨rfl, quiet_singleton (by decide)⟩
  · cases he

theorem SameContext.serverLabId {db d : Db} (h : SameContext db d) (id : Nat) :
    serverLabId d id = serverLabId db id := by
  rw [CoreLab.serverLabId, CoreLab.serverLabId, h.servers]

theorem SameContext.linuxUsernameOf {db d : Db} (h : SameContext db d) (id : Nat) :
    linuxUsernameOf d id = linuxUsernameOf db id := by
  rw [CoreLab.linuxUsernameOf, CoreLab.linuxUsernameOf, h.accountLinks, h.physicalAccounts]

theorem promoteDueScheduled_ok {s t : TickSession} {now : Time}
    (h : promoteDueScheduled s now = .ok t) : StageResult s t (promoteEffect s.db now) := by
  rw [promoteDueScheduled, List.foldlM_filter] at h
  refine stageResult_of_loop (local_promoteEffect _ _) ?_ h
  intro r _ u v hu hv
  unfold promoteEffect hasServer
  rw [← hu.serverLabId]
  split at hv
  · next hdue =>
      cases hlab : serverLabId u.db r.serverId with
      | none =>
          rw [hlab] at hv
          simpa [TickSession.apply] using (Except.ok.inj hv).symm
      | some labId =>
          simp only [hlab, bind_eq_ok_iff] at hv
          obtain ⟨db, hdb, hv⟩ := hv
          rw [transitionToActive_ok hdb] at hv
          simpa [TickSession.apply, hdue] using (Except.ok.inj hv).symm
  · next hdue =>
      simpa [TickSession.apply, hdue] using (Except.ok.inj hv).symm

theorem closeRow_ok {db db' : Db} {r : Reservation} (h : closeRow db r = .ok db') :
    db' = db.write (closedRow r) [reservationAudit .reservationTransition none r] := by
  unfold closeRow at h
  unfold closedRow
  split at h
  · exact transitionToFailed_ok h
  · exact transitionToFailed_ok h
  · exact transitionToCompleted_ok h

theorem closeDueActive_ok {s t : TickSession} {now : Time} (h : closeDueActive s now = .ok t) :
    StageResult s t (closeEffect s.db now) := by
  rw [closeDueActive, List.foldlM_filter] at h
  refine stageResult_of_loop (local_closeEffect _ _) ?_ h
  intro r _ u v hu hv
  unfold closeEffect hasServer
  rw [← hu.serverLabId]
  split at hv
  · next hdue =>
      cases hlab : serverLabId u.db r.serverId with
      | none =>
          rw [hlab] at hv
          simpa [TickSession.apply] using (Except.ok.inj hv).symm
      | some labId =>
          simp only [hlab, bind_eq_ok_iff] at hv
          obtain ⟨db, hdb, hv⟩ := hv
          rw [closeRow_ok hdb] at hv
          simpa [TickSession.apply, hdue] using (Except.ok.inj hv).symm
  · next hdue =>
      simpa [TickSession.apply, hdue] using (Except.ok.inj hv).symm

theorem buildExecutePayload_ok {r : Reservation} {u : String} {p : ExecuteScriptRequest}
    (h : buildExecutePayload r u = .ok p) :
    (⟨r.id, r.serverId, p⟩ : Dispatch) = dispatchOf r u (r.script.getD "") := by
  unfold buildExecutePayload at h
  cases hs : r.script with
  | none => rw [hs] at h; cases h
  | some script =>
      rw [hs] at h
      cases h
      rfl

theorem dispatchDueScripts_ok {s t : TickSession} {now : Time}
    (h : dispatchDueScripts s now = .ok t) : StageResult s t (dispatchEffect s.db now) := by
  rw [dispatchDueScripts, List.foldlM_filterMap] at h
  refine stageResult_of_loop (local_dispatchEffect _ _) ?_ h
  intro r _ u v hu hv
  unfold dispatchEffect hasServer
  rw [← hu.serverLabId]
  cases hdue : dueToDispatch now r with
  | false =>
      simp only [hdue, Bool.false_eq_true, if_false] at hv
      simpa [TickSession.apply] using (Except.ok.inj hv).symm
  | true =>
      cases huser : linuxUsernameOf s.db r.accountLinkId with
      | none =>
          simp only [hdue, huser, if_true, Option.map_none] at hv
          simpa [TickSession.apply] using (Except.ok.inj hv).symm
      | some linuxUsername =>
          simp only [hdue, huser, if_true, Option.map_some] at hv
          cases hlab : serverLabId u.db r.serverId with
          | none =>
              rw [hlab] at hv
              simpa [TickSession.apply] using (Except.ok.inj hv).symm
          | some labId =>
              simp only [hlab, bind_eq_ok_iff] at hv
              obtain ⟨db, hdb, payload, hpayload, hv⟩ := hv
              obtain ⟨-, -, rfl⟩ := markScriptDispatched_ok hdb
              rw [buildExecutePayload_ok hpayload] at hv
              simpa [TickSession.apply] using (Except.ok.inj hv).symm

theorem retryStuckDispatches_ok {s t : TickSession} {now : Time}
    (h : retryStuckDispatches s now = .ok t) : StageResult s t (watchdogEffect s.db now) := by
  rw [retryStuckDispatches, List.foldlM_filter] at h
  refine stageResult_of_loop (local_watchdogEffect _ _) ?_ h
  intro r _ u v hu hv
  unfold watchdogEffect hasServer
  rw [← hu.serverLabId, ← hu.linuxUsernameOf, ← hu.started, ← hu.failures]
  split at hv
  · next hstuck =>
      cases hlab : serverLabId u.db r.serverId with
      | none =>
          rw [hlab] at hv
          simpa [TickSession.apply] using (Except.ok.inj hv).symm
      | some labId =>
          simp only [hlab, retryStuckDispatch] at hv
          split at hv
          · next hseen =>
              simpa [TickSession.apply, hstuck, hseen] using (Except.ok.inj hv).symm
          · next hseen =>
              split at hv
              · next hmany =>
                  simp only [bind_eq_ok_iff] at hv
                  obtain ⟨db, hdb, hv⟩ := hv
                  rw [transitionToFailed_ok hdb] at hv
                  simpa [TickSession.apply, hstuck, hseen, hmany, failedRow] using
                    (Except.ok.inj hv).symm
              · next hfew =>
                  cases huser : linuxUsernameOf u.db r.accountLinkId with
                  | none =>
                      rw [huser] at hv
                      simpa [TickSession.apply, hseen, hfew] using (Except.ok.inj hv).symm
                  | some linuxUsername =>
                      simp only [huser, bind_eq_ok_iff] at hv
                      obtain ⟨payload, hpayload, hv⟩ := hv
                      rw [buildExecutePayload_ok hpayload] at hv
                      simpa [TickSession.apply, hstuck, hseen, hfew] using (Except.ok.inj hv).symm
  · next hstuck =>
      simpa [TickSession.apply, hstuck] using (Except.ok.inj hv).symm

/-! ## a whole tick -/

/-- The row when the tick looks for due scripts. -/
def rowAtDispatch (db : Db) (now : Time) (r : Reservation) : Reservation :=
  rowAfter (closeEffect db now) (rowAfter (promoteEffect db now) r)

/-- The row when the watchdog looks for stuck dispatches. -/
def rowAtWatchdog (db : Db) (now : Time) (r : Reservation) : Reservation :=
  rowAfter (dispatchEffect db now) (rowAtDispatch db now r)

/-- The row after a tick. -/
def tickRow (db : Db) (now : Time) (r : Reservation) : Reservation :=
  rowAfter (watchdogEffect db now) (rowAtWatchdog db now r)

/-- What a tick queues for a row. -/
def tickQueue (db : Db) (now : Time) (r : Reservation) : List Dispatch :=
  queuedFor (dispatchEffect db now) (rowAtDispatch db now r) ++
    queuedFor (watchdogEffect db now) (rowAtWatchdog db now r)

section Context

variable {db d : Db} (h : SameContext db d) (now : Time)
include h

theorem SameContext.hasServer (r : Reservation) : hasServer d r = hasServer db r := by
  rw [CoreLab.hasServer, CoreLab.hasServer, h.serverLabId]

theorem SameContext.closeEffect : closeEffect d now = closeEffect db now := by
  funext r
  rw [CoreLab.closeEffect, CoreLab.closeEffect, h.hasServer]

theorem SameContext.dispatchEffect : dispatchEffect d now = dispatchEffect db now := by
  funext r
  rw [CoreLab.dispatchEffect, CoreLab.dispatchEffect, h.hasServer, h.linuxUsernameOf]

theorem SameContext.watchdogEffect : watchdogEffect d now = watchdogEffect db now := by
  funext r
  rw [CoreLab.watchdogEffect, CoreLab.watchdogEffect, h.hasServer, h.linuxUsernameOf, h.started,
    h.failures]

end Context

/-- What a committed tick leaves. -/
structure TickResult (db : Db) (now : Time) (s : TickSession) : Prop where
  rows : s.db.reservations.rows = db.reservations.rows.map (tickRow db now)
  pending : s.pending =
    db.reservations.rows.flatMap (fun r => queuedFor (dispatchEffect db now) (rowAtDispatch db now r)) ++
    db.reservations.rows.flatMap (fun r => queuedFor (watchdogEffect db now) (rowAtWatchdog db now r))
  context : SameContext db s.db

/-- The rows and the context when the watchdog looks for stuck dispatches. -/
theorem rows_atWatchdog {db : Db} {now : Time} {s1 s2 s3 : TickSession}
    (h1 : promoteDueScheduled { db := db, pending := [] } now = .ok s1)
    (h2 : closeDueActive s1 now = .ok s2) (h3 : dispatchDueScripts s2 now = .ok s3) :
    StageResult { db := db, pending := [] } s1 (promoteEffect db now) ∧
      StageResult s1 s2 (closeEffect db now) ∧ StageResult s2 s3 (dispatchEffect db now) ∧
      s2.db.reservations.rows = db.reservations.rows.map (rowAtDispatch db now) ∧
      s3.db.reservations.rows = db.reservations.rows.map (rowAtWatchdog db now) := by
  have r1 := promoteDueScheduled_ok h1
  have r2 := closeDueActive_ok h2
  have r3 := dispatchDueScripts_ok h3
  dsimp only at r1
  rw [r1.context.closeEffect] at r2
  rw [(r1.context.trans r2.context).dispatchEffect] at r3
  have rows2 : s2.db.reservations.rows = db.reservations.rows.map (rowAtDispatch db now) := by
    rw [r2.rows, r1.rows, List.map_map]; rfl
  refine ⟨r1, r2, r3, rows2, ?_⟩
  rw [r3.rows, rows2, List.map_map]
  rfl

/-- **One tick**: a tick that commits rewrites every row by `tickRow`, queues
the due and the retried scripts, and changes nothing else a tick reads. -/
theorem tickBody_ok {db : Db} {now : Time} {s : TickSession} (h : tickBody db now = .ok s) :
    TickResult db now s := by
  simp only [tickBody, bind_eq_ok_iff] at h
  obtain ⟨s1, h1, s2, h2, s3, h3, h4⟩ := h
  obtain ⟨r1, r2, r3, rows2, rows3⟩ := rows_atWatchdog h1 h2 h3
  have r4 := retryStuckDispatches_ok h4
  have c3 := (r1.context.trans r2.context).trans r3.context
  rw [c3.watchdogEffect] at r4
  have quiet1 : ∀ rows : List Reservation,
      rows.flatMap (queuedFor (promoteEffect db now)) = [] := by
    intro rows
    rw [List.flatMap_eq_nil_iff]
    intro r _
    unfold queuedFor promoteEffect
    split <;> rfl
  have quiet2 : ∀ rows : List Reservation, rows.flatMap (queuedFor (closeEffect db now)) = [] := by
    intro rows
    rw [List.flatMap_eq_nil_iff]
    intro r _
    unfold queuedFor closeEffect
    split <;> rfl
  refine ⟨?_, ?_, c3.trans r4.context⟩
  · rw [r4.rows, rows3, List.map_map]; rfl
  · rw [r4.pending, r3.pending, r2.pending, r1.pending, quiet1, quiet2, rows2, rows3,
      List.flatMap_map, List.flatMap_map]
    rfl

/-! ## what a tick can do to a row -/

/-- Promoting and closing change the status, and maybe the reason, of a row. -/
theorem rowAtDispatch_eq (db : Db) (now : Time) (r : Reservation) :
    ∃ status reason, rowAtDispatch db now r =
      { r with status := status, cancellationReason := reason } := by
  have hpromote : ∃ status, rowAfter (promoteEffect db now) r = { r with status := status } := by
    unfold rowAfter promoteEffect
    split
    · exact ⟨.active, rfl⟩
    · exact ⟨r.status, rfl⟩
  obtain ⟨status, hp⟩ := hpromote
  rw [rowAtDispatch, hp, rowAfter, closeEffect]
  split
  · simp only [Option.elim_some, closedRow, failedRow]
    split
    · exact ⟨.failed, _, rfl⟩
    · exact ⟨.failed, _, rfl⟩
    · exact ⟨.completed, _, rfl⟩
  · exact ⟨status, r.cancellationReason, rfl⟩

section RowAtDispatch

variable (db : Db) (now : Time) (r : Reservation)

@[simp] theorem rowAtDispatch_id : (rowAtDispatch db now r).id = r.id := by
  obtain ⟨_, _, h⟩ := rowAtDispatch_eq db now r
  rw [h]

@[simp] theorem rowAtDispatch_serverId : (rowAtDispatch db now r).serverId = r.serverId := by
  obtain ⟨_, _, h⟩ := rowAtDispatch_eq db now r
  rw [h]

@[simp] theorem rowAtDispatch_accountLinkId :
    (rowAtDispatch db now r).accountLinkId = r.accountLinkId := by
  obtain ⟨_, _, h⟩ := rowAtDispatch_eq db now r
  rw [h]

@[simp] theorem rowAtDispatch_script : (rowAtDispatch db now r).script = r.script := by
  obtain ⟨_, _, h⟩ := rowAtDispatch_eq db now r
  rw [h]

@[simp] theorem rowAtDispatch_scriptMaxRuntimeSeconds :
    (rowAtDispatch db now r).scriptMaxRuntimeSeconds = r.scriptMaxRuntimeSeconds := by
  obtain ⟨_, _, h⟩ := rowAtDispatch_eq db now r
  rw [h]

@[simp] theorem rowAtDispatch_scriptScheduledStartAt :
    (rowAtDispatch db now r).scriptScheduledStartAt = r.scriptScheduledStartAt := by
  obtain ⟨_, _, h⟩ := rowAtDispatch_eq db now r
  rw [h]

@[simp] theorem rowAtDispatch_scriptStatus :
    (rowAtDispatch db now r).scriptStatus = r.scriptStatus := by
  obtain ⟨_, _, h⟩ := rowAtDispatch_eq db now r
  rw [h]

@[simp] theorem rowAtDispatch_scriptDispatchStartedAt :
    (rowAtDispatch db now r).scriptDispatchStartedAt = r.scriptDispatchStartedAt := by
  obtain ⟨_, _, h⟩ := rowAtDispatch_eq db now r
  rw [h]

@[simp] theorem hasServer_rowAtDispatch : hasServer db (rowAtDispatch db now r) = hasServer db r := by
  rw [hasServer, hasServer, rowAtDispatch_serverId]

end RowAtDispatch

/-- The tick sends the row's script for the first time. -/
def firstDispatch (db : Db) (now : Time) (r : Reservation) : Bool :=
  dueToDispatch now (rowAtDispatch db now r) && hasServer db r &&
    (linuxUsernameOf db r.accountLinkId).isSome

/-- The watchdog acts on the row and its start is not on record. -/
def unacknowledged (db : Db) (now : Time) (r : Reservation) : Bool :=
  stuck now (rowAtDispatch db now r) && hasServer db r && !lifecycleStartedSeen db r.id

/-- The watchdog calls `transition_to_failed` on the row. -/
def givesUp (db : Db) (now : Time) (r : Reservation) : Bool :=
  unacknowledged db now r && decide (watchdogMaxDispatchAttempts ≤ countDispatchFailures db r.id)

/-- The watchdog sends the row's script again. -/
def retries (db : Db) (now : Time) (r : Reservation) : Bool :=
  unacknowledged db now r && decide (countDispatchFailures db r.id < watchdogMaxDispatchAttempts) &&
    (linuxUsernameOf db r.accountLinkId).isSome

/-- The execute request a tick queues for a row. -/
def requestOf (db : Db) (r : Reservation) : Dispatch :=
  dispatchOf r ((linuxUsernameOf db r.accountLinkId).getD "") (r.script.getD "")

/-- What a tick can do to a row, after its status moved. -/
inductive TickCase (db : Db) (now : Time) (r : Reservation) : Prop where
  | dispatched (h : firstDispatch db now r = true)
      (row : tickRow db now r = { rowAtDispatch db now r with
        scriptStatus := some .running, scriptDispatchStartedAt := some now })
      (queue : tickQueue db now r = [requestOf db r])
  | retried (h : retries db now r = true)
      (row : tickRow db now r = { rowAtDispatch db now r with scriptDispatchStartedAt := some now })
      (queue : tickQueue db now r = [requestOf db r])
  | gaveUp (h : givesUp db now r = true)
      (row : tickRow db now r = failedRow (rowAtDispatch db now r) giveUpReason)
      (queue : tickQueue db now r = [])
  | healed (h : lifecycleStartedSeen db r.id = true)
      (row : tickRow db now r = { rowAtDispatch db now r with scriptDispatchStartedAt := none })
      (queue : tickQueue db now r = [])
  | idle (row : tickRow db now r = rowAtDispatch db now r) (queue : tickQueue db now r = [])

theorem requestOf_rowAtDispatch (db : Db) (now : Time) (r : Reservation) :
    requestOf db (rowAtDispatch db now r) = requestOf db r := by
  simp [requestOf, dispatchOf]

/-! ### the effects, branch by branch -/

section Branches

variable {db : Db} {now : Time} {q : Reservation}

theorem dispatchEffect_due (hd : dueToDispatch now q = true) (hs : hasServer db q = true)
    (hu : (linuxUsernameOf db q.accountLinkId).isSome = true) :
    dispatchEffect db now q = some
      { row := { q with scriptStatus := some .running, scriptDispatchStartedAt := some now }
        entries := [reservationAudit .scriptDispatched none q]
        pending := [requestOf db q] } := by
  obtain ⟨u, hu⟩ := Option.isSome_iff_exists.mp hu
  simp [dispatchEffect, requestOf, hd, hs, hu]

theorem dispatchEffect_idle (h : (dueToDispatch now q && hasServer db q &&
    (linuxUsernameOf db q.accountLinkId).isSome) = false) : dispatchEffect db now q = none := by
  unfold dispatchEffect
  split
  · next hd =>
      rw [hd, Bool.true_and, Option.isSome_eq_false_iff, Option.isNone_iff_eq_none] at h
      rw [h]
      rfl
  · rfl

theorem watchdogEffect_idle (h : (stuck now q && hasServer db q) = false) :
    watchdogEffect db now q = none := by
  simp [watchdogEffect, h]

theorem watchdogEffect_heal (h : (stuck now q && hasServer db q) = true)
    (hseen : lifecycleStartedSeen db q.id = true) :
    watchdogEffect db now q = some { row := { q with scriptDispatchStartedAt := none } } := by
  simp [watchdogEffect, h, hseen]

theorem watchdogEffect_giveUp (h : (stuck now q && hasServer db q) = true)
    (hseen : lifecycleStartedSeen db q.id = false)
    (hmany : watchdogMaxDispatchAttempts ≤ countDispatchFailures db q.id) :
    watchdogEffect db now q = some
      { row := failedRow q giveUpReason
        entries := [reservationAudit .reservationTransition none q] } := by
  simp [watchdogEffect, h, hseen, hmany]

theorem watchdogEffect_retry (h : (stuck now q && hasServer db q) = true)
    (hseen : lifecycleStartedSeen db q.id = false)
    (hfew : countDispatchFailures db q.id < watchdogMaxDispatchAttempts)
    (hu : (linuxUsernameOf db q.accountLinkId).isSome = true) :
    watchdogEffect db now q = some
      { row := { q with scriptDispatchStartedAt := some now }
        entries := [reservationAudit .scriptDispatchRetry none q]
        pending := [requestOf db q] } := by
  obtain ⟨u, hu⟩ := Option.isSome_iff_exists.mp hu
  simp [watchdogEffect, requestOf, h, hseen, not_le.mpr hfew, hu]

theorem watchdogEffect_skip (h : (stuck now q && hasServer db q) = true)
    (hseen : lifecycleStartedSeen db q.id = false)
    (hfew : countDispatchFailures db q.id < watchdogMaxDispatchAttempts)
    (hu : linuxUsernameOf db q.accountLinkId = none) : watchdogEffect db now q = none := by
  simp [watchdogEffect, h, hseen, not_le.mpr hfew, hu]

end Branches

/-- A row dispatched in this tick is not stuck in this tick. -/
theorem stuck_dispatched (now : Time) (r : Reservation) :
    stuck now { r with scriptStatus := some .running, scriptDispatchStartedAt := some now } = false := by
  have hnow : ¬ now < now - (watchdogStuckSeconds : Int) * secondMicros :=
    Int.not_lt.mpr (Int.sub_le_self now (by decide))
  simp only [stuck, Option.any_some, decide_eq_false hnow, Bool.and_false]

/-- The row and the queue of a tick that does not dispatch the row for the
first time are the watchdog's. -/
theorem tickRow_of_not_firstDispatch {db : Db} {now : Time} {r : Reservation}
    (h : firstDispatch db now r = false) :
    tickRow db now r = rowAfter (watchdogEffect db now) (rowAtDispatch db now r) ∧
      tickQueue db now r = queuedFor (watchdogEffect db now) (rowAtDispatch db now r) := by
  have heff : dispatchEffect db now (rowAtDispatch db now r) = none :=
    dispatchEffect_idle (by simpa [firstDispatch] using h)
  have hrow : rowAtWatchdog db now r = rowAtDispatch db now r := by
    rw [rowAtWatchdog, rowAfter, heff]; rfl
  refine ⟨by rw [tickRow, hrow], ?_⟩
  rw [tickQueue, hrow, queuedFor, heff]
  rfl

/-- **A tick on one row** does one of five things. -/
theorem tickCase (db : Db) (now : Time) (r : Reservation) : TickCase db now r := by
  cases hfirst : firstDispatch db now r with
  | true =>
      have hparts := hfirst
      simp only [firstDispatch, Bool.and_eq_true] at hparts
      obtain ⟨⟨hd, hs⟩, hu⟩ := hparts
      have hs' : hasServer db (rowAtDispatch db now r) = true := by simpa using hs
      have heff := dispatchEffect_due hd hs' (by simpa using hu)
      rw [requestOf_rowAtDispatch] at heff
      have hrow : rowAtWatchdog db now r = { rowAtDispatch db now r with
          scriptStatus := some .running, scriptDispatchStartedAt := some now } := by
        rw [rowAtWatchdog, rowAfter, heff]; rfl
      have hquiet : watchdogEffect db now (rowAtWatchdog db now r) = none :=
        watchdogEffect_idle (by rw [hrow, stuck_dispatched, Bool.false_and])
      refine .dispatched hfirst ?_ ?_
      · rw [tickRow, rowAfter, hquiet, hrow]; rfl
      · rw [tickQueue, queuedFor, queuedFor, heff, hquiet]; rfl
  | false =>
      obtain ⟨hrow, hqueue⟩ := tickRow_of_not_firstDispatch hfirst
      cases hstuck : stuck now (rowAtDispatch db now r) && hasServer db r with
      | false =>
          have hw : watchdogEffect db now (rowAtDispatch db now r) = none :=
            watchdogEffect_idle (by simpa using hstuck)
          exact .idle (by rw [hrow, rowAfter, hw]; rfl) (by rw [hqueue, queuedFor, hw]; rfl)
      | true =>
          have hstuck' : (stuck now (rowAtDispatch db now r) &&
              hasServer db (rowAtDispatch db now r)) = true := by simpa using hstuck
          cases hseen : lifecycleStartedSeen db r.id with
          | true =>
              have hw := watchdogEffect_heal hstuck' (by simpa using hseen)
              exact .healed hseen (by rw [hrow, rowAfter, hw]; rfl)
                (by rw [hqueue, queuedFor, hw]; rfl)
          | false =>
              have hun : unacknowledged db now r = true := by simp [unacknowledged, hstuck, hseen]
              by_cases hmany : watchdogMaxDispatchAttempts ≤ countDispatchFailures db r.id
              · have hw := watchdogEffect_giveUp hstuck' (by simpa using hseen) (by simpa using hmany)
                exact .gaveUp (by simp [givesUp, hun, hmany]) (by rw [hrow, rowAfter, hw]; rfl)
                  (by rw [hqueue, queuedFor, hw]; rfl)
              · have hfew := not_le.mp hmany
                cases hu : linuxUsernameOf db r.accountLinkId with
                | none =>
                    have hw := watchdogEffect_skip hstuck' (by simpa using hseen)
                      (by simpa using hfew) (by simpa using hu)
                    exact .idle (by rw [hrow, rowAfter, hw]; rfl) (by rw [hqueue, queuedFor, hw]; rfl)
                | some u =>
                    have hw := watchdogEffect_retry hstuck' (by simpa using hseen)
                      (by simpa using hfew) (by simp [hu])
                    rw [requestOf_rowAtDispatch] at hw
                    exact .retried (by simp [retries, hun, hfew, hu])
                      (by rw [hrow, rowAfter, hw]; rfl) (by rw [hqueue, queuedFor, hw]; rfl)

/-! ### consequences for the table and the queue -/

@[simp] theorem tickRow_id (db : Db) (now : Time) (r : Reservation) :
    (tickRow db now r).id = r.id := by
  cases tickCase db now r with
  | dispatched _ row _ => rw [row]; exact rowAtDispatch_id db now r
  | retried _ row _ => rw [row]; exact rowAtDispatch_id db now r
  | gaveUp _ row _ => rw [row]; exact rowAtDispatch_id db now r
  | healed _ row _ => rw [row]; exact rowAtDispatch_id db now r
  | idle row _ => rw [row]; exact rowAtDispatch_id db now r

/-- A tick changes the two statuses, the dispatch marker and the reason of a row. -/
theorem tickRow_eq (db : Db) (now : Time) (r : Reservation) :
    ∃ status reason scriptStatus marker, tickRow db now r =
      { r with
        status := status, cancellationReason := reason, scriptStatus := scriptStatus
        scriptDispatchStartedAt := marker } := by
  obtain ⟨status, reason, hrow⟩ := rowAtDispatch_eq db now r
  cases tickCase db now r with
  | dispatched _ row _ => exact ⟨status, reason, some .running, some now, by rw [row, hrow]⟩
  | retried _ row _ => exact ⟨status, reason, r.scriptStatus, some now, by rw [row, hrow]⟩
  | gaveUp _ row _ => exact ⟨.failed, _, r.scriptStatus, r.scriptDispatchStartedAt, by rw [row, hrow]; rfl⟩
  | healed _ row _ => exact ⟨status, reason, r.scriptStatus, none, by rw [row, hrow]⟩
  | idle row _ => exact ⟨status, reason, r.scriptStatus, r.scriptDispatchStartedAt, by rw [row, hrow]⟩

theorem firstDispatch_fresh {db : Db} {now : Time} {r : Reservation}
    (h : firstDispatch db now r = true) : r.scriptStatus = none := by
  simp only [firstDispatch, dueToDispatch, Bool.and_eq_true, rowAtDispatch_scriptStatus,
    Option.isNone_iff_eq_none] at h
  exact h.1.1.2

theorem unacknowledged_running {db : Db} {now : Time} {r : Reservation}
    (h : unacknowledged db now r = true) :
    r.scriptStatus = some .running ∧ lifecycleStartedSeen db r.id = false := by
  simp only [unacknowledged, stuck, Bool.and_eq_true, rowAtDispatch_scriptStatus,
    decide_eq_true_eq, Bool.not_eq_true'] at h
  exact ⟨h.1.1.1.2, h.2⟩

theorem retries_unacknowledged {db : Db} {now : Time} {r : Reservation}
    (h : retries db now r = true) : unacknowledged db now r = true := by
  simp only [retries, Bool.and_eq_true] at h
  exact h.1.1

/-- A tick moves a script from "not fired" to "running" and no script further. -/
theorem tickRow_scriptStatus (db : Db) (now : Time) (r : Reservation) :
    (tickRow db now r).scriptStatus = r.scriptStatus ∨
      r.scriptStatus = none ∧ (tickRow db now r).scriptStatus = some .running := by
  cases tickCase db now r with
  | dispatched h row _ => exact Or.inr ⟨firstDispatch_fresh h, by rw [row]⟩
  | retried _ row _ => exact Or.inl (by rw [row]; exact rowAtDispatch_scriptStatus db now r)
  | gaveUp _ row _ => exact Or.inl (by rw [row]; exact rowAtDispatch_scriptStatus db now r)
  | healed _ row _ => exact Or.inl (by rw [row]; exact rowAtDispatch_scriptStatus db now r)
  | idle row _ => exact Or.inl (by rw [row]; exact rowAtDispatch_scriptStatus db now r)

/-- A tick leaves a row that occupies no window as it is, but for its dispatch marker. -/
theorem rowAtDispatch_of_not_occupies {db : Db} {now : Time} {r : Reservation}
    (h : r.occupies = false) : rowAtDispatch db now r = r := by
  have hscheduled : r.status ≠ .scheduled := by
    rintro hs
    simp [Reservation.occupies, hs, ReservationStatus.occupies] at h
  have hactive : r.status ≠ .active := by
    rintro hs
    simp [Reservation.occupies, hs, ReservationStatus.occupies] at h
  simp [rowAtDispatch, rowAfter, promoteEffect, closeEffect, dueToStart, dueToEnd, hscheduled, hactive]

theorem tickRow_not_occupies {db : Db} {now : Time} {r : Reservation} (h : r.occupies = false) :
    (tickRow db now r).occupies = false := by
  have hrow : rowAtDispatch db now r = r := rowAtDispatch_of_not_occupies h
  cases tickCase db now r with
  | dispatched _ row _ => rw [row, hrow]; exact h
  | retried _ row _ => rw [row, hrow]; exact h
  | gaveUp _ row _ => rw [row]; rfl
  | healed _ row _ => rw [row, hrow]; exact h
  | idle row _ => rw [row, hrow]; exact h

/-- A queued request is the row's own, for a first or a repeated dispatch. -/
theorem mem_tickQueue {db : Db} {now : Time} {r : Reservation} {d : Dispatch}
    (h : d ∈ tickQueue db now r) :
    d = requestOf db r ∧ (firstDispatch db now r = true ∨ retries db now r = true) := by
  cases tickCase db now r with
  | dispatched hc _ queue =>
      rw [queue] at h
      exact ⟨List.mem_singleton.mp h, Or.inl hc⟩
  | retried hc _ queue =>
      rw [queue] at h
      exact ⟨List.mem_singleton.mp h, Or.inr hc⟩
  | gaveUp _ _ queue => rw [queue] at h; cases h
  | healed _ _ queue => rw [queue] at h; cases h
  | idle _ queue => rw [queue] at h; cases h

/-- A tick queues at most one request for a row. -/
theorem length_tickQueue_le (db : Db) (now : Time) (r : Reservation) :
    (tickQueue db now r).length ≤ 1 := by
  cases tickCase db now r with
  | dispatched _ _ queue => rw [queue]; exact Nat.le_refl 1
  | retried _ _ queue => rw [queue]; exact Nat.le_refl 1
  | gaveUp _ _ queue => rw [queue]; exact Nat.zero_le 1
  | healed _ _ queue => rw [queue]; exact Nat.zero_le 1
  | idle _ queue => rw [queue]; exact Nat.zero_le 1

namespace TickResult

variable {db : Db} {now : Time} {s : TickSession} (h : TickResult db now s)
include h

theorem get? (k : Nat) :
    s.db.reservations.get? k = (db.reservations.get? k).map (tickRow db now) :=
  Table.get?_of_rows_eq_map h.rows (tickRow_id db now) k

theorem perm_pending : s.pending.Perm (db.reservations.rows.flatMap (tickQueue db now)) := by
  rw [h.pending]
  exact List.flatMap_append_perm _ _ _

theorem mem_pending {d : Dispatch} :
    d ∈ s.pending ↔ ∃ r ∈ db.reservations, d ∈ tickQueue db now r := by
  rw [h.perm_pending.mem_iff, List.mem_flatMap]
  rfl

/-- How many requests a tick queues for one reservation. -/
theorem countP_pending (k : Nat) :
    s.pending.countP (fun d => d.reservationId == k) =
      (db.reservations.get? k).elim 0 (fun r => (tickQueue db now r).length) := by
  rw [h.perm_pending.countP_eq]
  apply Table.countP_flatMap
  intro r d hd
  rw [(mem_tickQueue hd).1]
  rfl

end TickResult

end CoreLab
