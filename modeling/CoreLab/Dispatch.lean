import CoreLab.Lib.Transition
import CoreLab.Lib.Wire
import CoreLab.Scheduler
import CoreLab.ScriptLifecycle

/-!
# CoreLab.Dispatch

The scheduler, the agent of one server and the frames between them, as one
state machine.  Ticks queue `_dispatch_one` tasks; a task sends an execute
request, or records a failed attempt when the agent is offline; the agent
spawns the script unless it is running; responses, start and finish events
travel back.  Every frame may be delayed or lost, and the agent drops what it
pushes while it has no connection.

* `step_cases` — a step is a tick, a spawn, the end of an entry, or adds neither
  request nor spawn;
* `base_step` — what links the database, the agent and the frames in every run;
* `failures_step` — which steps record a failed attempt, and of what.
-/

namespace CoreLab

open Relational Transition

namespace ScriptDelivery

/-! ## the agent -/

/-- One entry of `ScriptRunner._running`; `exited` while its finish event is
pushed and the entry not yet removed. -/
structure RunningEntry where
  reservationId : Nat
  exited : Bool
deriving DecidableEq, Repr

/-- How far `execute` gets beyond its own checks. -/
inductive SpawnOutcome where
  | capabilityDisabled
  | error (text : String)
  | ok (startedAt : Datetime) (logPath : String)
deriving DecidableEq, Repr

/-- `ExecuteScriptResponse`. -/
structure ExecuteScriptResponse where
  ok : Bool
  started : Bool
  error : Option String := none
deriving DecidableEq, Repr

/-- `ScriptRunner.execute`: the answer, and the start of a spawned script. -/
def execute (running : List RunningEntry) (reservationId : Nat) (outcome : SpawnOutcome) :
    ExecuteScriptResponse × Option ScriptStartedEvent :=
  match outcome with
  | .capabilityDisabled => ({ ok := false, started := false, error := some "CAPABILITY_DISABLED" }, none)
  | .error text =>
    if running.any (·.reservationId = reservationId) then
      ({ ok := false, started := false, error := some "ALREADY_RUNNING" }, none)
    else ({ ok := false, started := false, error := some text }, none)
  | .ok startedAt logPath =>
    if running.any (·.reservationId = reservationId) then
      ({ ok := false, started := false, error := some "ALREADY_RUNNING" }, none)
    else ({ ok := true, started := true },
      some { reservationId := reservationId, startedAt := startedAt, logPath := some logPath })

/-! ## the world -/

/-- The backend, the agent of server `serverId`, and the frames between them.
`spawned` and `lostStarts` record what happened and are read by no step. -/
structure World where
  db : Db
  kills : PendingKills
  serverId : Nat
  connected : Bool
  /-- The id of the next request envelope. -/
  nextId : Nat
  /-- `_dispatch_one` tasks that have not sent yet. -/
  tasks : List Dispatch
  /-- Requests that wait for their response, by envelope id. -/
  awaiting : List (Nat × Dispatch)
  executes : List (Nat × Dispatch)
  responses : List (Nat × ExecuteScriptResponse)
  starts : List ScriptStartedEvent
  finishes : List ScriptFinishedEvent
  running : List RunningEntry
  spawned : List Nat
  lostStarts : List Nat

/-- How a subprocess ended, as its finish event reports it. -/
structure Exit where
  exitCode : Option Int
  finishedAt : Datetime
  outputSizeBytes : Int
  logPath : Option String
  killed : Bool
deriving DecidableEq, Repr

/-- One atomic step; `i` picks a task, a frame or an entry. -/
inductive Action where
  | tick (now : Time)
  | send (i : Nat)
  | sendBreaks (i : Nat)
  | execute (i : Nat) (outcome : SpawnOutcome)
  | respond (i : Nat)
  | timeout (i : Nat)
  | started (i : Nat)
  | finished (i : Nat)
  | exit (i : Nat) (result : Exit)
  | pop (i : Nat)
  | loseExecute (i : Nat)
  | loseResponse (i : Nat)
  | loseStart (i : Nat)
  | loseFinish (i : Nat)
  | disconnect
  | reconnect

namespace World

/-- `_record_dispatch_attempt_failed`. -/
def recordFailure (w : World) (d : Dispatch) : World :=
  let entry : AuditEntry :=
    { action := .scriptDispatchAttemptFailed, actorUserId := none, targetType := .reservation
      targetId := some d.reservationId, targetServerId := some d.serverId }
  { w with db := w.db.audit entry }

/-- `push_envelope` of a start: dropped while there is no connection. -/
def pushStart (w : World) (reservationId : Nat) (e : ScriptStartedEvent) : World :=
  if w.connected then { w with starts := w.starts ++ [e] }
  else { w with lostStarts := w.lostStarts ++ [reservationId] }

/-- The agent's reply: lost with the connection it came over. -/
def reply (w : World) (id : Nat) (response : ExecuteScriptResponse) : World :=
  if w.connected then { w with responses := w.responses ++ [(id, response)] } else w

/-- The agent handles an execute request. -/
def handleExecute (w : World) (id : Nat) (d : Dispatch) (outcome : SpawnOutcome) : World :=
  match ScriptDelivery.execute w.running d.reservationId outcome with
  | (response, none) => w.reply id response
  | (response, some e) =>
    let spawned := { w with
      running := w.running ++ [{ reservationId := d.reservationId, exited := false }]
      spawned := w.spawned ++ [d.reservationId] }
    World.reply (World.pushStart spawned d.reservationId e) id response

/-- `_dispatch_one` resumes with a response: anything but a start is a failure. -/
def handleResponse (w : World) (d : Dispatch) (response : ExecuteScriptResponse) : World :=
  if response.ok && response.started then w else w.recordFailure d

/-- `push_envelope` of a finish: dropped while there is no connection. -/
def pushFinish (w : World) (reservationId : Nat) (x : Exit) : World :=
  let e : ScriptFinishedEvent :=
    { reservationId := reservationId, exitCode := x.exitCode, finishedAt := x.finishedAt
      outputSizeBytes := x.outputSizeBytes, logPath := x.logPath, killedByCorelab := x.killed }
  if w.connected then { w with finishes := w.finishes ++ [e] } else w

end World

/-- One step; `none` where the picked task, frame or entry does not exist. -/
def step (w : World) : Action → Option World
  | .tick now =>
    match tickBody w.db now with
    | .ok s => some { w with db := s.db, tasks := w.tasks ++ s.pending }
    | .error _ => some w
  | .send i => (Wire.take w.tasks i).map fun (d, tasks) =>
    let w := { w with tasks := tasks }
    if w.connected && d.serverId = w.serverId then
      { w with
        nextId := w.nextId + 1
        awaiting := w.awaiting ++ [(w.nextId, d)]
        executes := w.executes ++ [(w.nextId, d)] }
    else w.recordFailure d
  | .sendBreaks i => (Wire.take w.tasks i).map fun (_, tasks) => { w with tasks := tasks }
  | .execute i outcome => (Wire.take w.executes i).map fun ((id, d), executes) =>
    World.handleExecute { w with executes := executes } id d outcome
  | .respond i => (Wire.take w.responses i).map fun ((id, response), responses) =>
    let w := { w with responses := responses }
    match w.awaiting.find? (·.1 = id) with
    | none => w
    | some (_, d) =>
      World.handleResponse { w with awaiting := w.awaiting.filter (·.1 ≠ id) } d response
  | .timeout i => (Wire.take w.awaiting i).map fun ((_, d), awaiting) =>
    World.recordFailure { w with awaiting := awaiting } d
  | .started i => (Wire.take w.starts i).map fun (e, starts) =>
    match onScriptStarted w.db e with
    | .ok db => { w with db := db, starts := starts }
    -- the handler's error ends the connection
    | .error _ => { w with starts := starts, connected := false
                           lostStarts := w.lostStarts ++ [e.reservationId.toNat] }
  | .finished i => (Wire.take w.finishes i).map fun (e, finishes) =>
    match onScriptFinished w.db w.kills e with
    | .ok (db, kills) => { w with db := db, kills := kills, finishes := finishes }
    | .error _ => { w with finishes := finishes, connected := false }
  | .exit i result =>
    match w.running[i]? with
    | none => none
    | some entry =>
      if entry.exited then none
      else some (World.pushFinish
        { w with running := w.running.set i { entry with exited := true } } entry.reservationId
        result)
  | .pop i => (Wire.take w.running i).bind fun (entry, running) =>
    if entry.exited then some { w with running := running } else none
  | .loseExecute i => (Wire.take w.executes i).map fun (_, executes) =>
    { w with executes := executes }
  | .loseResponse i => (Wire.take w.responses i).map fun (_, responses) =>
    { w with responses := responses }
  | .loseStart i => (Wire.take w.starts i).map fun (e, starts) =>
    { w with starts := starts, lostStarts := w.lostStarts ++ [e.reservationId.toNat] }
  | .loseFinish i => (Wire.take w.finishes i).map fun (_, finishes) =>
    { w with finishes := finishes }
  | .disconnect => some { w with connected := false }
  | .reconnect => some { w with connected := true }

/-- Nothing queued, in flight or running; the database may hold any rows. -/
structure Initial (w : World) : Prop where
  tasks : w.tasks = []
  executes : w.executes = []
  starts : w.starts = []
  running : w.running = []
  spawned : w.spawned = []

/-! ## what every run keeps -/

/-- Execute requests of a reservation that have not reached the agent. -/
def outstanding (w : World) (id : Nat) : Nat :=
  w.tasks.countP (fun d => d.reservationId == id) +
    w.executes.countP (fun f => f.2.reservationId == id)

/-- A start of the reservation is on its way to the backend. -/
def StartInFlight (w : World) (id : Nat) : Prop := ∃ e ∈ w.starts, e.reservationId = (id : Int)

/-- The script's course is over, as far as the row knows. -/
def scriptEnded (r : Reservation) : Prop :=
  r.scriptStatus ≠ none ∧ r.scriptStatus ≠ some .running

/-- `_running` has an entry of the reservation. -/
def HasEntry (w : World) (id : Nat) : Prop := ∃ e ∈ w.running, e.reservationId = id

instance (w : World) (id : Nat) : Decidable (HasEntry w id) :=
  inferInstanceAs (Decidable (∃ e ∈ w.running, e.reservationId = id))

/-- Where the start of a spawned script is. -/
def Traced (w : World) (id : Nat) : Prop :=
  StartInFlight w id ∨ id ∈ w.lostStarts ∨ lifecycleStartedSeen w.db id = true ∨
    ∃ r, w.db.reservations.get? id = some r ∧ scriptEnded r

/-- The invariant of every run. -/
structure Base (w : World) : Prop where
  /-- A script that never fired has no request on its way and was never spawned. -/
  unfired : ∀ id r, w.db.reservations.get? id = some r → r.scriptStatus = none →
    outstanding w id = 0 ∧ id ∉ w.spawned
  /-- Requests and spawns are of known reservations. -/
  known : ∀ id, 0 < outstanding w id ∨ id ∈ w.spawned → ∃ r, w.db.reservations.get? id = some r
  traced : ∀ id ∈ w.spawned, Traced w id
  live : ∀ id, HasEntry w id → id ∈ w.spawned

theorem base_of_initial {w : World} (h : Initial w) : Base w := by
  have hout : ∀ id, outstanding w id = 0 := by
    intro id
    rw [outstanding, h.tasks, h.executes]
    rfl
  refine ⟨?_, ?_, ?_, ?_⟩
  · intro id r _ _
    exact ⟨hout id, by rw [h.spawned]; exact List.not_mem_nil⟩
  · rintro id (hpos | hmem)
    · rw [hout id] at hpos
      exact absurd hpos (Nat.lt_irrefl 0)
    · rw [h.spawned] at hmem
      cases hmem
  · rw [h.spawned]
    intro id hid
    cases hid
  · rintro id ⟨e, he, -⟩
    rw [h.running] at he
    cases he

/-- The database of a later state: same reservations, scripts no less far, and
every recorded start still on record. -/
structure Advance (db db' : Db) : Prop where
  forth : ∀ id r, db.reservations.get? id = some r → ∃ r', db'.reservations.get? id = some r' ∧
    (scriptEnded r → scriptEnded r')
  back : ∀ id r', db'.reservations.get? id = some r' → r'.scriptStatus = none →
    ∃ r, db.reservations.get? id = some r ∧ r.scriptStatus = none
  seen : ∀ id, lifecycleStartedSeen db id = true → lifecycleStartedSeen db' id = true

theorem Advance.refl (db : Db) : Advance db db :=
  ⟨fun _ r h => ⟨r, h, id⟩, fun _ r h hs => ⟨r, h, hs⟩, fun _ h => h⟩

theorem advance_audit (db : Db) (e : AuditEntry) : Advance db (db.audit e) :=
  ⟨fun _ r h => ⟨r, h, id⟩, fun _ r h hs => ⟨r, h, hs⟩,
    fun _ h => lifecycleStartedSeen_mono (Db.auditLog_audit db e) h⟩

/-- Rewriting one row whose script does not go back. -/
theorem advance_write {db : Db} {row row' : Reservation} {entries : List AuditEntry}
    (hrow : db.reservations.get? row.id = some row) (hid : row'.id = row.id)
    (hended : scriptEnded row → scriptEnded row') (hfired : row'.scriptStatus ≠ none) :
    Advance db (db.write row' entries) := by
  have hself : (db.write row' entries).reservations.get? row.id = some row' :=
    hid ▸ Table.get?_put_self (hid ▸ hrow)
  have hother : ∀ id, id ≠ row.id →
      (db.write row' entries).reservations.get? id = db.reservations.get? id := by
    intro id hne
    exact Table.get?_put_ne (fun he => hne (he.symm.trans hid))
  refine ⟨?_, ?_, fun _ h => lifecycleStartedSeen_mono (Db.auditLog_write db row' entries) h⟩
  · intro id r hr
    by_cases he : id = row.id
    · subst he
      rw [hrow, Option.some.injEq] at hr
      exact ⟨row', hself, hr ▸ hended⟩
    · exact ⟨r, (hother id he).trans hr, fun h => h⟩
  · intro id r' hr' hnone
    by_cases he : id = row.id
    · rw [he, hself, Option.some.injEq] at hr'
      exact absurd (hr' ▸ hnone) hfired
    · exact ⟨r', (hother id he).symm.trans hr', hnone⟩

/-! ## what each handler does to the database -/

theorem advance_tick {db : Db} {now : Time} {s : TickSession} (h : TickResult db now s) :
    Advance db s.db := by
  refine ⟨?_, ?_, fun id hs => (h.context.started id).trans hs⟩
  · intro id r hr
    refine ⟨tickRow db now r, by rw [h.get?, hr]; rfl, fun hended => ?_⟩
    rcases tickRow_scriptStatus db now r with heq | ⟨hnone, -⟩
    · rw [scriptEnded, heq]; exact hended
    · exact absurd hnone hended.1
  · intro id r' hr' hnone
    rw [h.get?] at hr'
    obtain ⟨r, hr, rfl⟩ := Option.map_eq_some_iff.mp hr'
    refine ⟨r, hr, ?_⟩
    rcases tickRow_scriptStatus db now r with heq | ⟨hfresh, -⟩
    · exact heq ▸ hnone
    · exact hfresh

theorem advance_started {db db' : Db} {e : ScriptStartedEvent} (h : StartedCase db e db') :
    Advance db db' := by
  cases h with
  | unknown _ eq => exact eq ▸ .refl db
  | stale _ _ _ eq => exact eq ▸ .refl db
  | recorded row row' entries hrow live booking running _ _ _ _ eq =>
      obtain ⟨-, hget⟩ := findReservation_eq_some hrow
      rw [eq]
      refine advance_write hget booking.id (fun hended => ?_) (by rw [running]; simp)
      exact absurd live (not_or.mpr hended)

theorem advance_finished {db db' : Db} {kills kills' : PendingKills} {e : ScriptFinishedEvent}
    (h : FinishedCase db kills e db' kills') : Advance db db' := by
  cases h with
  | unknown _ eq _ => exact eq ▸ .refl db
  | stale _ _ _ eq _ => exact eq ▸ .refl db
  | ended row row' entries hrow running booking status _ _ eq _ =>
      obtain ⟨-, hget⟩ := findReservation_eq_some hrow
      rw [eq]
      refine advance_write hget booking.id (fun _ => ?_) (by rw [status]; simp)
      rw [scriptEnded, status]
      exact ⟨Option.some_ne_none _, fun h => newStatus_ne_running e (Option.some.inj h)⟩

/-- A handled start leaves a trace in the database. -/
theorem traced_started {w : World} {db' : Db} {e : ScriptStartedEvent} {id : Nat} {r : Reservation}
    (h : StartedCase w.db e db') (hid : e.reservationId = (id : Int))
    (hr : w.db.reservations.get? id = some r) :
    lifecycleStartedSeen db' id = true ∨
      ∃ r', db'.reservations.get? id = some r' ∧ scriptEnded r' := by
  have hfind : findReservation w.db e.reservationId = some r := by
    rw [findReservation, hid, if_pos (Int.natCast_nonneg id), Int.toNat_natCast, hr]
  cases h with
  | unknown hnone _ => rw [hfind] at hnone; cases hnone
  | stale row hrow ended eq =>
      rw [hfind, Option.some.injEq] at hrow
      exact Or.inr ⟨r, eq ▸ hr, hrow ▸ ended⟩
  | recorded row row' entries hrow _ _ _ _ _ record _ eq =>
      rw [hfind, Option.some.injEq] at hrow
      subst hrow
      have hkey : r.id = id := Table.key_of_get? hr
      rw [eq, ← hkey]
      exact Or.inl (lifecycleStartedSeen_of_record (Db.auditLog_write _ _ _) record)

/-! ## what a step can do -/

/-- A step that adds no request and no spawn, and leaves every entry in `_running`. -/
structure Frame (w w' : World) : Prop where
  db : Advance w.db w'.db
  outstanding : ∀ id, outstanding w' id ≤ outstanding w id
  spawned : w'.spawned = w.spawned
  running : ∀ id, HasEntry w' id ↔ HasEntry w id
  starts : ∀ id r, w.db.reservations.get? id = some r → StartInFlight w id → Traced w' id
  lost : ∀ id ∈ w.lostStarts, id ∈ w'.lostStarts

/-- A step that leaves the entries and the starts alone. -/
theorem Frame.of_eq {w w' : World} (db : Advance w.db w'.db)
    (outstanding : ∀ id, ScriptDelivery.outstanding w' id ≤ ScriptDelivery.outstanding w id)
    (spawned : w'.spawned = w.spawned) (running : w'.running = w.running)
    (starts : w'.starts = w.starts) (lost : w'.lostStarts = w.lostStarts) : Frame w w' := by
  refine ⟨db, outstanding, spawned, ?_, ?_, ?_⟩
  · intro id
    rw [HasEntry, HasEntry, running]
  · intro id _ _ hs
    refine Or.inl ?_
    rw [StartInFlight, starts]
    exact hs
  · intro id hid
    rw [lost]
    exact hid

/-- Rewriting the script's row, or anything else that only moves the database on. -/
theorem Frame.of_db {w : World} {db : Db} (h : Advance w.db db) (kills : PendingKills)
    (finishes : List ScriptFinishedEvent) :
    Frame w { w with db := db, kills := kills, finishes := finishes } :=
  .of_eq h (fun _ => Nat.le_refl _) rfl rfl rfl rfl

/-- The agent spawns the script of a request it took from the wire. -/
structure Spawn (w w' : World) (d : Dispatch) : Prop where
  db : w'.db = w.db
  outstanding : ∀ id, outstanding w id = (if d.reservationId = id then 1 else 0) + outstanding w' id
  spawned : w'.spawned = w.spawned ++ [d.reservationId]
  running : w'.running = w.running ++ [{ reservationId := d.reservationId, exited := false }]
  idle : ∀ e ∈ w.running, e.reservationId ≠ d.reservationId
  start : StartInFlight w' d.reservationId ∨ d.reservationId ∈ w'.lostStarts
  starts : ∀ id, StartInFlight w id → StartInFlight w' id
  lost : ∀ id ∈ w.lostStarts, id ∈ w'.lostStarts

/-- What a step can do. -/
inductive StepCase (w w' : World) : Action → Prop where
  | ticked {now : Time} {s : TickSession} (result : TickResult w.db now s)
      (eq : w' = { w with db := s.db, tasks := w.tasks ++ s.pending }) : StepCase w w' (.tick now)
  | spawn {i k : Nat} {outcome : SpawnOutcome} (d : Dispatch) (taken : w.executes[i]? = some (k, d))
      (accepted : (execute w.running d.reservationId outcome).2 ≠ none) (spawn : Spawn w w' d) :
      StepCase w w' (.execute i outcome)
  | popped {i : Nat} (e : RunningEntry) (running : List RunningEntry)
      (taken : Wire.take w.running i = some (e, running)) (eq : w' = { w with running := running }) :
      StepCase w w' (.pop i)
  | frame {a : Action} (frame : Frame w w') : StepCase w w' a

/-- What `execute` answers: a refusal, or a start of its reservation when no
entry of it is left. -/
theorem execute_cases (running : List RunningEntry) (id : Nat) (outcome : SpawnOutcome) :
    (execute running id outcome).2 = none ∨
      (∀ e ∈ running, e.reservationId ≠ id) ∧
        ∃ e : ScriptStartedEvent, e.reservationId = (id : Int) ∧
          (execute running id outcome).2 = some e := by
  cases outcome with
  | capabilityDisabled => exact Or.inl rfl
  | error text =>
      refine Or.inl ?_
      unfold execute
      dsimp only
      split <;> rfl
  | ok startedAt logPath =>
      unfold execute
      dsimp only
      split
      · exact Or.inl rfl
      · next hidle =>
          refine Or.inr ⟨fun e he heq => hidle ?_, _, rfl, rfl⟩
          exact List.any_eq_true.mpr ⟨e, he, by simpa using heq⟩

/-- A reply changes the responses in flight, and nothing else. -/
theorem frame_reply (w : World) (id : Nat) (response : ExecuteScriptResponse) :
    Frame w (w.reply id response) := by
  unfold World.reply
  split
  · exact .of_eq (.refl _) (fun _ => Nat.le_refl _) rfl rfl rfl rfl
  · exact .of_eq (.refl _) (fun _ => Nat.le_refl _) rfl rfl rfl rfl

theorem Spawn.reply {w v : World} {d : Dispatch} (h : Spawn w v d) (id : Nat)
    (response : ExecuteScriptResponse) : Spawn w (v.reply id response) d := by
  unfold World.reply
  split
  · exact ⟨h.db, h.outstanding, h.spawned, h.running, h.idle, h.start, h.starts, h.lost⟩
  · exact h

theorem Frame.trans {u v w : World} (h : Frame u v) (k : Frame v w) : Frame u w := by
  refine ⟨⟨?_, ?_, fun id hs => k.db.seen id (h.db.seen id hs)⟩,
    fun id => (k.outstanding id).trans (h.outstanding id), k.spawned.trans h.spawned,
    fun id => (k.running id).trans (h.running id), ?_, fun id hid => k.lost id (h.lost id hid)⟩
  · intro id r hr
    obtain ⟨r', hr', hended⟩ := h.db.forth id r hr
    obtain ⟨r'', hr'', hended'⟩ := k.db.forth id r' hr'
    exact ⟨r'', hr'', hended' ∘ hended⟩
  · intro id r'' hr'' hnone
    obtain ⟨r', hr', hnone'⟩ := k.db.back id r'' hr'' hnone
    exact h.db.back id r' hr' hnone'
  · intro id r hr hs
    obtain ⟨r', hr', -⟩ := h.db.forth id r hr
    rcases h.starts id r hr hs with hs' | hlost | hseen | ⟨q, hq, hended⟩
    · exact k.starts id r' hr' hs'
    · exact Or.inr (Or.inl (k.lost id hlost))
    · exact Or.inr (Or.inr (Or.inl (k.db.seen id hseen)))
    · obtain ⟨q', hq', hk⟩ := k.db.forth id q hq
      exact Or.inr (Or.inr (Or.inr ⟨q', hq', hk hended⟩))

/-- Sending a task moves its request to the wire, or records a failure. -/
theorem frame_send {w w' : World} {i : Nat} (h : step w (.send i) = some w') : Frame w w' := by
  obtain ⟨⟨d, tasks⟩, htake, rfl⟩ := Option.map_eq_some_iff.mp h
  have htasks := Wire.countP_take htake
  dsimp only
  split
  · refine .of_eq (.refl _) (fun id => ?_) rfl rfl rfl rfl
    simp only [outstanding, htasks, List.countP_append, List.countP_singleton]
    omega
  · refine .of_eq (advance_audit _ _) (fun id => ?_) rfl rfl rfl rfl
    simp only [outstanding, htasks]
    exact Nat.add_le_add_right (Nat.le_add_left _ _) _

/-- Taking an execute request from the wire leaves the others. -/
theorem outstanding_execute {w : World} {i id : Nat} {d : Dispatch} {executes : List (Nat × Dispatch)}
    (h : Wire.take w.executes i = some ((id, d), executes)) (k : Nat) :
    outstanding w k =
      (if d.reservationId = k then 1 else 0) + outstanding { w with executes := executes } k := by
  simp only [outstanding, Wire.countP_take h, beq_iff_eq]
  omega

/-- An execute request is refused, or its script spawned. -/
theorem step_execute {w w' : World} {i : Nat} {outcome : SpawnOutcome}
    (h : step w (.execute i outcome) = some w') : StepCase w w' (.execute i outcome) := by
  obtain ⟨⟨⟨id, d⟩, executes⟩, htake, rfl⟩ := Option.map_eq_some_iff.mp h
  have hout := outstanding_execute htake
  have htaken : w.executes[i]? = some (id, d) := Wire.getElem?_of_take htake
  dsimp only
  generalize hw : { w with executes := executes } = u at hout ⊢
  have hframe : Frame w u := by
    rw [← hw]
    refine .of_eq (.refl _) (fun k => ?_) rfl rfl rfl rfl
    have := hout k
    rw [← hw] at this
    omega
  have hrunning : u.running = w.running := by rw [← hw]
  unfold World.handleExecute
  rcases execute_cases u.running d.reservationId outcome with hnone | ⟨hidle, e, he, hsome⟩
  · refine .frame (hframe.trans ?_)
    split
    · exact frame_reply _ _ _
    · next heq => rw [heq] at hnone; cases hnone
  · have haccepted : (execute w.running d.reservationId outcome).2 ≠ none := by
      rw [← hrunning, hsome]
      exact Option.some_ne_none e
    refine .spawn d htaken haccepted ?_
    split
    · next heq => rw [heq] at hsome; cases hsome
    · next response e' heq =>
        obtain rfl : e' = e := by rw [heq] at hsome; exact Option.some.inj hsome
        have hspawn : Spawn w (World.pushStart { u with
            running := u.running ++ [{ reservationId := d.reservationId, exited := false }]
            spawned := u.spawned ++ [d.reservationId] } d.reservationId e') d := by
          unfold World.pushStart
          split
          · refine ⟨by rw [← hw], hout, by rw [← hw], by rw [← hw], hrunning ▸ hidle,
              Or.inl ⟨e', List.mem_append_right _ (List.mem_singleton_self _), he⟩, ?_, ?_⟩
            · rintro k ⟨s, hs, hk⟩
              exact ⟨s, List.mem_append_left _ (by rw [← hw]; exact hs), hk⟩
            · rw [← hw]; exact fun _ h => h
          · refine ⟨by rw [← hw], hout, by rw [← hw], by rw [← hw], hrunning ▸ hidle,
              Or.inr (List.mem_append_right _ (List.mem_singleton_self _)), ?_, ?_⟩
            · rw [← hw]; exact fun _ h => h
            · intro k hk
              exact List.mem_append_left _ (by rw [← hw]; exact hk)
        exact hspawn.reply id response

/-- A start that is lost on its way is among the lost ones, and the others are on theirs. -/
theorem frame_lost {w : World} {i : Nat} {e : ScriptStartedEvent} {starts : List ScriptStartedEvent}
    (htake : Wire.take w.starts i = some (e, starts)) (connected : Bool) :
    Frame w { w with starts := starts, connected := connected
                     lostStarts := w.lostStarts ++ [e.reservationId.toNat] } := by
  refine ⟨.refl _, fun _ => Nat.le_refl _, rfl, fun _ => Iff.rfl, ?_,
    fun _ hid => List.mem_append_left _ hid⟩
  rintro id r - ⟨e', he', hid⟩
  rcases Wire.eq_or_mem_rest htake he' with rfl | hrest
  · refine Or.inr (Or.inl (List.mem_append_right _ ?_))
    rw [hid, Int.toNat_natCast]
    exact List.mem_singleton_self _
  · exact Or.inl ⟨e', hrest, hid⟩

/-- A start that is handled leaves a trace in the database. -/
theorem frame_started {w w' : World} {i : Nat} (h : step w (.started i) = some w') :
    Frame w w' := by
  obtain ⟨⟨e, starts⟩, htake, rfl⟩ := Option.map_eq_some_iff.mp h
  dsimp only
  cases hdb : onScriptStarted w.db e with
  | error _ => exact frame_lost htake false
  | ok db =>
      have hcase := onScriptStarted_ok hdb
      refine ⟨advance_started hcase, fun _ => Nat.le_refl _, rfl, fun _ => Iff.rfl, ?_,
        fun _ hid => hid⟩
      rintro id r hr ⟨e', he', hid⟩
      rcases Wire.eq_or_mem_rest htake he' with rfl | hrest
      · exact (traced_started hcase hid hr).elim (fun hseen => Or.inr (Or.inr (Or.inl hseen)))
          (fun hended => Or.inr (Or.inr (Or.inr hended)))
      · exact Or.inl ⟨e', hrest, hid⟩

theorem frame_loseStart {w w' : World} {i : Nat} (h : step w (.loseStart i) = some w') :
    Frame w w' := by
  obtain ⟨⟨e, starts⟩, htake, rfl⟩ := Option.map_eq_some_iff.mp h
  exact frame_lost htake w.connected

theorem frame_finished {w w' : World} {i : Nat} (h : step w (.finished i) = some w') :
    Frame w w' := by
  obtain ⟨⟨e, finishes⟩, -, rfl⟩ := Option.map_eq_some_iff.mp h
  dsimp only
  split
  · next heq => exact .of_db (advance_finished (onScriptFinished_ok heq)) _ _
  · exact .of_eq (.refl _) (fun _ => Nat.le_refl _) rfl rfl rfl rfl

theorem frame_exit {w w' : World} {i : Nat} {result : Exit}
    (h : step w (.exit i result) = some w') : Frame w w' := by
  simp only [step] at h
  cases hentry : w.running[i]? with
  | none => rw [hentry] at h; cases h
  | some entry =>
      simp only [hentry] at h
      split at h
      · cases h
      · obtain rfl := Option.some.inj h
        have hset : ∀ id, (∃ e ∈ w.running.set i { entry with exited := true },
            e.reservationId = id) ↔ HasEntry w id := by
          intro id
          obtain ⟨hi, rfl⟩ := List.getElem?_eq_some_iff.mp hentry
          constructor
          · rintro ⟨e, he, hid⟩
            rcases List.mem_or_eq_of_mem_set he with he | rfl
            · exact ⟨e, he, hid⟩
            · exact ⟨w.running[i], List.getElem_mem hi, hid⟩
          · rintro ⟨e, he, hid⟩
            obtain ⟨j, hj, rfl⟩ := List.getElem_of_mem he
            by_cases hji : i = j
            · subst hji
              exact ⟨_, List.mem_set hi _, hid⟩
            · refine ⟨w.running[j], List.mem_of_getElem (i := j) (h := by simpa using hj) ?_, hid⟩
              rw [List.getElem_set_ne hji]
        unfold World.pushFinish
        dsimp only
        split
        · exact ⟨.refl _, fun _ => Nat.le_refl _, rfl, hset, fun _ _ _ hs => Or.inl hs,
            fun _ hid => hid⟩
        · exact ⟨.refl _, fun _ => Nat.le_refl _, rfl, hset, fun _ _ _ hs => Or.inl hs,
            fun _ hid => hid⟩

theorem frame_respond {w w' : World} {i : Nat} (h : step w (.respond i) = some w') :
    Frame w w' := by
  obtain ⟨⟨⟨id, response⟩, responses⟩, -, rfl⟩ := Option.map_eq_some_iff.mp h
  dsimp only
  split
  · exact .of_eq (.refl _) (fun _ => Nat.le_refl _) rfl rfl rfl rfl
  · unfold World.handleResponse
    split
    · exact .of_eq (.refl _) (fun _ => Nat.le_refl _) rfl rfl rfl rfl
    · exact .of_eq (advance_audit _ _) (fun _ => Nat.le_refl _) rfl rfl rfl rfl

/-- **One step** is a tick, a spawn, the end of an entry, or leaves requests, spawns and entries
alone. -/
theorem step_cases {w w' : World} {a : Action} (h : step w a = some w') : StepCase w w' a := by
  cases a with
  | tick now =>
      simp only [step] at h
      split at h
      · next s hs => exact .ticked (tickBody_ok hs) (Option.some.inj h).symm
      · obtain rfl := Option.some.inj h
        exact .frame (.of_eq (.refl _) (fun _ => Nat.le_refl _) rfl rfl rfl rfl)
  | execute i outcome => exact step_execute h
  | send i => exact .frame (frame_send h)
  | sendBreaks i =>
      obtain ⟨⟨d, tasks⟩, htake, rfl⟩ := Option.map_eq_some_iff.mp h
      refine .frame (.of_eq (.refl _) (fun id => ?_) rfl rfl rfl rfl)
      simp only [outstanding, Wire.countP_take htake]
      exact Nat.add_le_add_right (Nat.le_add_left _ _) _
  | respond i => exact .frame (frame_respond h)
  | timeout i =>
      obtain ⟨⟨⟨id, d⟩, awaiting⟩, -, rfl⟩ := Option.map_eq_some_iff.mp h
      exact .frame (.of_eq (advance_audit _ _) (fun _ => Nat.le_refl _) rfl rfl rfl rfl)
  | started i => exact .frame (frame_started h)
  | finished i => exact .frame (frame_finished h)
  | exit i result => exact .frame (frame_exit h)
  | pop i =>
      obtain ⟨⟨entry, running⟩, htake, h⟩ := Option.bind_eq_some_iff.mp h
      dsimp only at h
      split at h
      · exact .popped entry running htake (Option.some.inj h).symm
      · cases h
  | loseExecute i =>
      obtain ⟨⟨⟨id, d⟩, executes⟩, htake, rfl⟩ := Option.map_eq_some_iff.mp h
      refine .frame (.of_eq (.refl _) (fun k => ?_) rfl rfl rfl rfl)
      have hout := outstanding_execute htake k
      dsimp only at hout ⊢
      omega
  | loseResponse i =>
      obtain ⟨⟨⟨id, response⟩, responses⟩, -, rfl⟩ := Option.map_eq_some_iff.mp h
      exact .frame (.of_eq (.refl _) (fun _ => Nat.le_refl _) rfl rfl rfl rfl)
  | loseStart i => exact .frame (frame_loseStart h)
  | loseFinish i =>
      obtain ⟨⟨e, finishes⟩, -, rfl⟩ := Option.map_eq_some_iff.mp h
      exact .frame (.of_db (.refl _) _ _)
  | disconnect =>
      obtain rfl := Option.some.inj h
      exact .frame (.of_eq (.refl _) (fun _ => Nat.le_refl _) rfl rfl rfl rfl)
  | reconnect =>
      obtain rfl := Option.some.inj h
      exact .frame (.of_eq (.refl _) (fun _ => Nat.le_refl _) rfl rfl rfl rfl)

/-! ## the invariant of every run -/

/-- A tick adds one request for each row it dispatches or retries. -/
theorem outstanding_tick {w : World} {now : Time} {s : TickSession}
    (h : TickResult w.db now s) (id : Nat) :
    outstanding { w with db := s.db, tasks := w.tasks ++ s.pending } id =
      outstanding w id +
        (w.db.reservations.get? id).elim 0 (fun r => (tickQueue w.db now r).length) := by
  simp only [outstanding, List.countP_append, h.countP_pending]
  omega

/-- Nothing is queued for a row whose script has not fired and is not due. -/
theorem tickQueue_fresh {db : Db} {now : Time} {r : Reservation} (hfresh : r.scriptStatus = none)
    (hkept : (tickRow db now r).scriptStatus = none) : tickQueue db now r = [] := by
  cases tickCase db now r with
  | dispatched _ row _ => rw [row] at hkept; cases hkept
  | retried h _ _ =>
      have hrunning := (unacknowledged_running (retries_unacknowledged h)).1
      rw [hfresh] at hrunning
      cases hrunning
  | gaveUp _ _ queue => exact queue
  | healed _ _ queue => exact queue
  | idle _ queue => exact queue

theorem Base.tick {w : World} {now : Time} {s : TickSession} (h : Base w)
    (hs : TickResult w.db now s) : Base { w with db := s.db, tasks := w.tasks ++ s.pending } := by
  have hdb := advance_tick hs
  have hout := outstanding_tick hs
  refine ⟨?_, ?_, ?_, h.live⟩
  · intro id r' hr' hnone
    dsimp only at hr'
    rw [hs.get?] at hr'
    obtain ⟨r, hr, rfl⟩ := Option.map_eq_some_iff.mp hr'
    have hfresh : r.scriptStatus = none :=
      (tickRow_scriptStatus w.db now r).elim (fun heq => heq ▸ hnone) And.left
    obtain ⟨hzero, hnot⟩ := h.unfired id r hr hfresh
    refine ⟨?_, hnot⟩
    rw [hout, hzero, hr, Option.elim_some, tickQueue_fresh hfresh hnone]
    rfl
  · intro id hid
    have hrow : ∃ r, w.db.reservations.get? id = some r := by
      rcases hid with hpos | hmem
      · cases hr : w.db.reservations.get? id with
        | some r => exact ⟨r, rfl⟩
        | none =>
            rw [hout, hr, Option.elim_none, Nat.add_zero] at hpos
            obtain ⟨r, hr'⟩ := h.known id (Or.inl hpos)
            rw [hr] at hr'
            cases hr'
      · exact h.known id (Or.inr hmem)
    obtain ⟨r, hr⟩ := hrow
    obtain ⟨r', hr', -⟩ := hdb.forth id r hr
    exact ⟨r', hr'⟩
  · intro id hid
    rcases h.traced id hid with hflight | hlost | hseen | ⟨r, hr, hended⟩
    · exact Or.inl hflight
    · exact Or.inr (Or.inl hlost)
    · exact Or.inr (Or.inr (Or.inl (hdb.seen id hseen)))
    · obtain ⟨r', hr', hk⟩ := hdb.forth id r hr
      exact Or.inr (Or.inr (Or.inr ⟨r', hr', hk hended⟩))

theorem Base.spawn {w w' : World} {d : Dispatch} (h : Base w) (hs : Spawn w w' d) : Base w' := by
  have hpos : 0 < ScriptDelivery.outstanding w d.reservationId := by
    rw [hs.outstanding, if_pos rfl]
    omega
  have htraced : ∀ id, Traced w id → Traced w' id := by
    intro id ht
    rcases ht with hflight | hlost | hrest
    · exact Or.inl (hs.starts id hflight)
    · exact Or.inr (Or.inl (hs.lost id hlost))
    · exact Or.inr (Or.inr (by rw [hs.db]; exact hrest))
  refine ⟨?_, ?_, ?_, ?_⟩
  · intro id r hr hnone
    rw [hs.db] at hr
    obtain ⟨hzero, hnot⟩ := h.unfired id r hr hnone
    have hne : d.reservationId ≠ id := by
      rintro rfl
      omega
    refine ⟨?_, ?_⟩
    · have hout := hs.outstanding id
      rw [if_neg hne] at hout
      omega
    · rw [hs.spawned, List.mem_append, List.mem_singleton]
      exact not_or.mpr ⟨hnot, hne.symm⟩
  · intro id hid
    rw [hs.db]
    apply h.known
    rw [hs.spawned, List.mem_append, List.mem_singleton] at hid
    rcases hid with hout | hmem | rfl
    · exact Or.inl (by rw [hs.outstanding]; omega)
    · exact Or.inr hmem
    · exact Or.inl hpos
  · intro id hid
    rw [hs.spawned, List.mem_append, List.mem_singleton] at hid
    rcases hid with hmem | rfl
    · exact htraced id (h.traced id hmem)
    · exact hs.start.elim Or.inl (fun hlost => Or.inr (Or.inl hlost))
  · rintro id ⟨e, he, hid⟩
    rw [hs.running, List.mem_append, List.mem_singleton] at he
    rw [hs.spawned, List.mem_append, List.mem_singleton]
    rcases he with he | rfl
    · exact Or.inl (h.live id ⟨e, he, hid⟩)
    · exact Or.inr hid.symm

theorem Base.frame {w w' : World} (h : Base w) (f : Frame w w') : Base w' := by
  refine ⟨?_, ?_, ?_, ?_⟩
  · intro id r' hr' hnone
    obtain ⟨r, hr, hs⟩ := f.db.back id r' hr' hnone
    obtain ⟨hzero, hnot⟩ := h.unfired id r hr hs
    exact ⟨Nat.le_zero.mp (hzero ▸ f.outstanding id), f.spawned ▸ hnot⟩
  · intro id hid
    obtain ⟨r, hr⟩ := h.known id (hid.imp (fun hpos => Nat.lt_of_lt_of_le hpos (f.outstanding id))
      (fun hmem => f.spawned ▸ hmem))
    obtain ⟨r', hr', -⟩ := f.db.forth id r hr
    exact ⟨r', hr'⟩
  · intro id hid
    rw [f.spawned] at hid
    obtain ⟨q, hq⟩ := h.known id (Or.inr hid)
    rcases h.traced id hid with hs | hl | hseen | ⟨r, hr, hended⟩
    · exact f.starts id q hq hs
    · exact Or.inr (Or.inl (f.lost id hl))
    · exact Or.inr (Or.inr (Or.inl (f.db.seen id hseen)))
    · obtain ⟨r', hr', hk⟩ := f.db.forth id r hr
      exact Or.inr (Or.inr (Or.inr ⟨r', hr', hk hended⟩))
  · intro id hid
    rw [f.spawned]
    exact h.live id ((f.running id).mp hid)

/-- **The invariant** is kept by every step. -/
theorem base_step {w w' : World} {a : Action} (hw : Base w) (h : step w a = some w') :
    Base w' := by
  cases step_cases h with
  | ticked result eq => exact eq ▸ hw.tick result
  | spawn d _ _ hspawn => exact hw.spawn hspawn
  | popped e running taken eq =>
      rw [eq]
      exact ⟨hw.unfired, hw.known, hw.traced, fun id ⟨e', he', hid⟩ =>
        hw.live id ⟨e', Wire.mem_rest_of_take taken he', hid⟩⟩
  | frame hframe => exact hw.frame hframe

/-! ## failed attempts -/

/-- The reservation of which a step records a failed attempt: a request for which the agent is
offline, an answer that reports no start, or a timeout. -/
def failureOf (w : World) : Action → Option Nat
  | .send i => (Wire.take w.tasks i).bind fun (d, _) =>
    if w.connected && d.serverId = w.serverId then none else some d.reservationId
  | .respond i => (Wire.take w.responses i).bind fun ((id, response), _) =>
    if response.ok && response.started then none
    else (w.awaiting.find? (·.1 = id)).map (·.2.reservationId)
  | .timeout i => (Wire.take w.awaiting i).map fun ((_, d), _) => d.reservationId
  | _ => none

theorem failures_recordFailure (w : World) (d : Dispatch) (id : Nat) :
    countDispatchFailures (w.recordFailure d).db id =
      countDispatchFailures w.db id + if d.reservationId = id then 1 else 0 := by
  rw [World.recordFailure, countDispatchFailures, countDispatchFailures, Db.auditLog_audit,
    countAudit_append]
  simp [countAudit, List.countP_singleton]

theorem failures_write {db : Db} {row : Reservation} {entries : List AuditEntry}
    (h : ∀ e ∈ entries, e.action ≠ .scriptDispatchAttemptFailed) (id : Nat) :
    countDispatchFailures (db.write row entries) id = countDispatchFailures db id := by
  rw [countDispatchFailures, Db.auditLog_write, countAudit_append, countAudit_eq_zero id h,
    Nat.add_zero]
  rfl

/-- The handlers of the agent's events count no failed attempt. -/
theorem failures_started {db db' : Db} {e : ScriptStartedEvent} (h : StartedCase db e db')
    (id : Nat) : countDispatchFailures db' id = countDispatchFailures db id := by
  cases h with
  | unknown _ eq | stale _ _ _ eq => exact eq ▸ rfl
  | recorded _ _ _ _ _ _ _ _ actions _ _ eq => exact eq ▸ failures_write actions id

theorem failures_finished {db db' : Db} {kills kills' : PendingKills} {e : ScriptFinishedEvent}
    (h : FinishedCase db kills e db' kills') (id : Nat) :
    countDispatchFailures db' id = countDispatchFailures db id := by
  cases h with
  | unknown _ eq _ | stale _ _ _ eq _ => exact eq ▸ rfl
  | ended _ _ entries _ _ _ _ _ actions eq _ =>
      refine eq ▸ failures_write (fun e he => ?_) id
      rw [actions e he]
      decide

@[simp] theorem World.db_reply (w : World) (id : Nat) (response : ExecuteScriptResponse) :
    (w.reply id response).db = w.db := by
  unfold World.reply; split <;> rfl

@[simp] theorem World.db_pushStart (w : World) (id : Nat) (e : ScriptStartedEvent) :
    (w.pushStart id e).db = w.db := by
  unfold World.pushStart; split <;> rfl

theorem db_handleExecute (w : World) (id : Nat) (d : Dispatch) (outcome : SpawnOutcome) :
    (w.handleExecute id d outcome).db = w.db := by
  unfold World.handleExecute
  split <;> simp

/-- **Every step** records the failed attempts it is said to, and no others. -/
theorem failures_step {w w' : World} {a : Action} (h : step w a = some w') (id : Nat) :
    countDispatchFailures w'.db id =
      countDispatchFailures w.db id + if failureOf w a = some id then 1 else 0 := by
  cases a with
  | tick now =>
      simp only [step] at h
      split at h
      · next s hs =>
          obtain rfl := Option.some.inj h
          exact (tickBody_ok hs).context.failures id
      · obtain rfl := Option.some.inj h
        rfl
  | send i =>
      obtain ⟨⟨d, tasks⟩, htake, rfl⟩ := Option.map_eq_some_iff.mp h
      simp only [failureOf, htake, Option.bind_some]
      split
      · rfl
      · simp only [failures_recordFailure, Option.some.injEq]
  | respond i =>
      obtain ⟨⟨⟨k, response⟩, responses⟩, htake, rfl⟩ := Option.map_eq_some_iff.mp h
      simp only [failureOf, htake, Option.bind_some, World.handleResponse]
      cases hfind : w.awaiting.find? (·.1 = k) with
      | none => simp
      | some f =>
          simp only [Option.map_some]
          split
          · rfl
          · simp only [failures_recordFailure, Option.some.injEq]
  | timeout i =>
      obtain ⟨⟨⟨k, d⟩, awaiting⟩, htake, rfl⟩ := Option.map_eq_some_iff.mp h
      simp only [failureOf, htake, Option.map_some, Option.some.injEq]
      exact failures_recordFailure _ d id
  | started i =>
      obtain ⟨⟨e, starts⟩, -, rfl⟩ := Option.map_eq_some_iff.mp h
      dsimp only
      split
      · next hdb => exact failures_started (onScriptStarted_ok hdb) id
      · rfl
  | finished i =>
      obtain ⟨⟨e, finishes⟩, -, rfl⟩ := Option.map_eq_some_iff.mp h
      dsimp only
      split
      · next hdb => exact failures_finished (onScriptFinished_ok hdb) id
      · rfl
  | execute i outcome =>
      obtain ⟨⟨⟨k, d⟩, executes⟩, -, rfl⟩ := Option.map_eq_some_iff.mp h
      dsimp only
      rw [db_handleExecute]
      rfl
  | exit i result =>
      simp only [step] at h
      split at h
      · cases h
      · split at h
        · cases h
        · obtain rfl := Option.some.inj h
          unfold World.pushFinish
          dsimp only
          split <;> rfl
  | pop i =>
      obtain ⟨⟨entry, running⟩, -, h⟩ := Option.bind_eq_some_iff.mp h
      dsimp only at h
      split at h
      · obtain rfl := Option.some.inj h
        rfl
      · cases h
  | sendBreaks i | loseExecute i | loseResponse i | loseStart i | loseFinish i =>
      obtain ⟨_, -, rfl⟩ := Option.map_eq_some_iff.mp h
      rfl
  | disconnect | reconnect =>
      obtain rfl := Option.some.inj h
      rfl

end ScriptDelivery

end CoreLab
