import CoreLab.AgentRpc
import CoreLab.CancelRace
import CoreLab.KillRegistry

/-!
# CoreLab.CancelCall

One `cancel_active_with_running_script` call against an agent that is connected and
answers, where the script is not live any more: the agent has no entry for the
reservation, or the process of its entry has exited and `_await_and_push` is about to
report it.  The agent's frames arrive in order; an error of the handler ends the
connection, and what is on its way with it.  The wait times out when nothing more is to
come.

* `measure_step` — every step brings the call nearer to its end;
* `completes_iff` — the calls that end with the reservation cancelled.
-/

namespace CoreLab

open Relational Transition Loops

namespace CancelCall

open AgentHost (Agent Host RunningEntry CancelScriptResponse)
open CancelRace (CancelRequest attemptFailed)

/-! ## the call and the agent -/

/-- What the agent puts into a finished event; the size of a log is that of a file. -/
structure Finish where
  reservationId : Int
  exitCode : Option Int
  finishedAt : Datetime
  outputSize : Nat
  logPath : Option String
  killed : Bool
deriving DecidableEq, Repr

def Finish.event (f : Finish) : ScriptFinishedEvent :=
  { reservationId := f.reservationId, exitCode := f.exitCode, finishedAt := f.finishedAt
    outputSizeBytes := f.outputSize, logPath := f.logPath, killedByCorelab := f.killed }

/-- How a process ended, as `_await_and_push` reports it. -/
structure Report where
  exitCode : Option Int
  finishedAt : Datetime
  logSize : Nat
deriving DecidableEq, Repr

/-- The agent's connection. -/
inductive Connection where
  /-- The one that the request was sent over, and that takes its response. -/
  | first
  | lost
  | later
deriving DecidableEq, Repr

/-- A frame on its way from the agent. -/
inductive Message where
  | finished (f : Finish)
  | cancelAck (response : CancelScriptResponse)
deriving DecidableEq, Repr

/-- Where `_await_and_push` is with an entry whose process has exited. -/
inductive Stage where
  /-- It has not looked at the kill reason yet. -/
  | exited
  /-- It has, and puts the event together. -/
  | ending (killed : Bool)
deriving DecidableEq, Repr

inductive Phase where
  | calling
  /-- The RPC is acknowledged; the call waits for its event. -/
  | waiting
  | answered
deriving DecidableEq, Repr

/-- `stage` is that of the agent's entry of the reservation, if it has one, and `report` what
its process left behind; `requested` says that the cancel request has not reached the agent. -/
structure World where
  db : Db
  kills : PendingKills
  phase : Phase
  connection : Connection
  agent : Agent
  stage : Stage
  report : Report
  agentReason : String
  requested : Bool
  wire : List Message

/-- One atomic step of the agent or the backend. -/
inductive Action where
  | agentCancels
  | resumes
  | pushes
  | reconnects
  | receives
  | rpcFails
  | wakes (now : Time)
  | timesOut

section Step

variable (req : CancelRequest) (h : Host)

/-- The agent's entry of the reservation. -/
def entry (w : World) : Option RunningEntry := w.agent.running.get? (req.reservationId : Int)

/-- The call returns or raises; its waiter is discarded. -/
def answer (w : World) (db : Db) : World :=
  { w with db := db, phase := .answered, kills := w.kills.discard req.reservationId }

/-- `ScriptRunner.cancel`, and its response on the connection of the request. -/
def agentCancels (w : World) : Option World :=
  if w.requested then
    match AgentHost.cancel w.agent h req.reservationId w.agentReason with
    | .ok (agent, response) =>
      some { w with
        agent := agent, requested := false
        wire := if w.connection = .first then w.wire ++ [.cancelAck response] else w.wire }
    | .error _ => none
  else none

/-- `_await_and_push` goes on after the process: `killed = entry.killed_reason is not None`. -/
def resumes (w : World) : Option World :=
  match entry req w, w.stage with
  | some e, .exited => some { w with stage := .ending e.killedReason.isSome }
  | _, _ => none

/-- The event of an entry whose process has exited. -/
def World.finish (w : World) (e : RunningEntry) (killed : Bool) : Finish :=
  { reservationId := req.reservationId, exitCode := w.report.exitCode
    finishedAt := w.report.finishedAt, outputSize := w.report.logSize, logPath := some e.logPath
    killed := killed }

/-- It pushes the event, which is dropped without a connection, and drops the entry. -/
def pushes (w : World) : Option World :=
  match entry req w, w.stage with
  | some e, .ending killed => some { w with
      agent := { w.agent with running := w.agent.running.erase (req.reservationId : Int) }
      wire := if w.connection = .lost then w.wire
        else w.wire ++ [.finished (w.finish req e killed)] }
  | _, _ => none

def reconnects (w : World) : Option World :=
  if w.connection = .lost then some { w with connection := .later } else none

/-- The backend handles the next frame; what the response says is not looked at. -/
def receives (w : World) : Option World :=
  match w.wire with
  | [] => none
  | .finished f :: rest =>
    match onScriptFinished w.db w.kills f.event with
    | .ok (db, kills) => some { w with db := db, kills := kills, wire := rest }
    | .error _ => some { w with connection := .lost, wire := [] }
  | .cancelAck _ :: rest =>
    some { w with wire := rest, phase := if w.phase = .calling then .waiting else w.phase }

/-- `AgentRpcTimeoutError`: the connection of the request is gone, and its response with it. -/
def rpcFails (w : World) : Option World :=
  if w.phase = .calling ∧ w.connection ≠ .first then some (answer req w (attemptFailed req w.db))
  else none

/-- The event is set, and the reservation is cancelled. -/
def wakes (w : World) (now : Time) : Option World :=
  if w.phase = .waiting ∧ w.kills.isSignalled req.reservationId = true then
    match cancelReservation w.db req.reservationId req.actorUserId req.actorCanAdmin req.reason now with
    | .ok db => some (answer req w db)
    | .error _ => some (answer req w w.db)
  else none

/-- `LifecycleEventTimeoutError`: nothing more is to come, and the event is not set. -/
def timesOut (w : World) : Option World :=
  if w.phase = .waiting ∧ w.kills.isSignalled req.reservationId = false ∧ w.wire = [] ∧
      entry req w = none then
    some (answer req w (attemptFailed req w.db))
  else none

/-- One step; `none` where it is not enabled. -/
def step (w : World) : Action → Option World
  | .agentCancels => agentCancels req h w
  | .resumes => resumes req w
  | .pushes => pushes req w
  | .reconnects => reconnects w
  | .receives => receives w
  | .rpcFails => rpcFails req w
  | .wakes now => wakes req w now
  | .timesOut => timesOut req w

end Step

/-- The reason that the agent is told. -/
def cancelReasonForAgent (req : CancelRequest) (row : Reservation) : String :=
  if req.actorCanAdmin && row.userId != req.actorUserId then "admin_cancel" else "user_cancel"

/-- The call has registered its waiter and sent the request; `frames` are on their way. -/
def start (req : CancelRequest) (db : Db) (row : Reservation) (kills : PendingKills) (agent : Agent)
    (stage : Stage) (report : Report) (frames : List Finish) : World :=
  { db := db, kills := kills.register req.reservationId, phase := .calling, connection := .first
    agent := agent, stage := stage, report := report, agentReason := cancelReasonForAgent req row
    requested := true, wire := frames.map .finished }

/-! ## what is promised -/

/-- The row whose cancel takes this path: active, its script running, and the actor may cancel it. -/
structure Deletable (req : CancelRequest) (db : Db) (row : Reservation) : Prop where
  stored : db.reservations.get? req.reservationId = some row
  active : row.status = .active
  running : row.scriptStatus = some .running
  allowed : req.actorCanAdmin = true ∨ row.userId = req.actorUserId

/-- A process that has exited cannot be terminated, or takes no notice. -/
def Quiet (h : Host) : Prop := ∀ f, h.terminate = .error f → ∃ text, f = .os .processLookup text

/-- The call ends, and when it has ended the reservation is cancelled. -/
structure Completes (req : CancelRequest) (h : Host) (w : World) : Prop where
  bounded : ∃ n, ∀ as w', exec (step req h) w as = some w' → as.length ≤ n
  cancelled : ∀ as w', exec (step req h) w as = some w' → (∀ a, step req h w' a = none) →
    w'.phase = .answered ∧
      ∃ r, w'.db.reservations.get? req.reservationId = some r ∧ r.status = .cancelled

/-- The agent's entry ends as a kill, whatever the cancel does. -/
def Stage.endsKilled (stage : Stage) (e : RunningEntry) : Bool :=
  match stage with
  | .exited => e.killedReason.isSome
  | .ending killed => killed

/-- The script of the reservation is marked running. -/
def isRunning (db : Db) (id : Int) : Bool :=
  (findReservation db id).any fun r => decide (r.scriptStatus = some .running)

/-- The backend takes each of the frames, in their order: the columns take what a frame reports,
or its script is not marked running any more. -/
def takes : (Int → Bool) → List Finish → Bool
  | _, [] => true
  | running, f :: rest =>
    (!running f.reservationId || f.event.fits) &&
      takes (fun id => running id && id != f.reservationId) rest

/-- The finished events on their way. -/
def World.frames (w : World) : List Finish :=
  w.wire.filterMap fun
    | .finished f => some f
    | .cancelAck _ => none

/-- The event of the agent's entry, which is still to be pushed. -/
def own (req : CancelRequest) (w : World) : List Finish :=
  (entry req w).toList.map fun e => w.finish req e (w.stage.endsKilled e)

/-- The finished events that the backend has not received yet. -/
def toCome (req : CancelRequest) (w : World) : List Finish := w.frames ++ own req w

/-- Of the finished events to come, the backend takes all, and one is that of a kill of the
reservation. -/
structure KillToCome (req : CancelRequest) (w : World) : Prop where
  taken : takes (isRunning w.db) (toCome req w) = true
  kill : ∃ f ∈ toCome req w, f.reservationId = req.reservationId ∧ f.killed = true

/-! ## one step -/

section OneStep

variable {req : CancelRequest} {h : Host} {w w' : World}

/-- What a cancel does to the agent: nothing without an entry, else it marks the reason. -/
theorem cancel_running {a a' : Agent} {id : Int} {reason : String} {response : CancelScriptResponse}
    (hc : AgentHost.cancel a h id reason = .ok (a', response)) :
    (a.running.get? id = none ∧ a'.running.get? id = none) ∨
      ∃ e, a.running.get? id = some e ∧
        a'.running.get? id = some { e with killedReason := some reason } := by
  unfold AgentHost.cancel at hc
  cases he : a.running.get? id with
  | none =>
      rw [he] at hc
      obtain ⟨rfl, -⟩ := Prod.mk.inj (Except.ok.inj hc)
      exact .inl ⟨rfl, he⟩
  | some e =>
      refine .inr ⟨e, rfl, ?_⟩
      rw [he] at hc
      dsimp only at hc
      split at hc
      · obtain ⟨rfl, -⟩ := Prod.mk.inj (Except.ok.inj hc)
        simp [Dict.get?_set]
      · split at hc
        · obtain ⟨rfl, -⟩ := Prod.mk.inj (Except.ok.inj hc)
          simp [Dict.get?_set]
        · obtain ⟨rfl, -⟩ := Prod.mk.inj (Except.ok.inj hc)
          simp [Dict.get?_set]
        · cases hc

/-- The agent answers. -/
theorem cancel_isOk (hq : Quiet h) (a : Agent) (id : Int) (reason : String) :
    ∃ x, AgentHost.cancel a h id reason = .ok x := by
  unfold AgentHost.cancel
  cases a.running.get? id with
  | none => exact ⟨_, rfl⟩
  | some e =>
      dsimp only
      split
      · exact ⟨_, rfl⟩
      · cases ht : h.terminate with
        | ok _ => exact ⟨_, rfl⟩
        | error f =>
            obtain ⟨text, rfl⟩ := hq f ht
            exact ⟨_, rfl⟩

def Phase.weight : Phase → Nat
  | calling => 2
  | waiting => 1
  | answered => 0

/-- What `_await_and_push` has left to do, and the frame it will send. -/
def Stage.weight : Stage → Nat
  | exited => 4
  | ending _ => 3

def Connection.weight : Connection → Nat
  | first => 0
  | lost => 1
  | later => 0

/-- How far the call is from its end; a frame may cost the connection. -/
def measure (req : CancelRequest) (w : World) : Nat :=
  3 * w.requested.toNat + (entry req w).elim 0 (fun _ => w.stage.weight) + 2 * w.wire.length +
    w.connection.weight + w.phase.weight

theorem length_wire_cancel (w : World) (response : CancelScriptResponse) :
    (if w.connection = .first then w.wire ++ [.cancelAck response] else w.wire).length ≤
      w.wire.length + 1 := by
  split
  · simp
  · omega

/-- **Every step** brings the call nearer to its end. -/
theorem measure_step {a : Action} (hstep : step req h w a = some w') :
    measure req w' < measure req w := by
  cases a with
  | agentCancels =>
      simp only [step, agentCancels] at hstep
      split at hstep
      · next hreq =>
          split at hstep
          · next agent response hc =>
              obtain rfl := Option.some.inj hstep
              have hentry := cancel_running hc
              have hwire := length_wire_cancel w response
              simp only [measure, entry, hreq, Bool.toNat_true, Bool.toNat_false]
              obtain ⟨hnone, hnone'⟩ | ⟨e, he, he'⟩ := hentry
              · simp only [hnone, hnone', Option.elim_none]
                omega
              · simp only [he, he', Option.elim_some]
                omega
          · cases hstep
      · cases hstep
  | resumes =>
      simp only [step, resumes] at hstep
      split at hstep
      · next e he hstage =>
          obtain rfl := Option.some.inj hstep
          simp only [entry] at he
          simp [measure, entry, he, hstage, Stage.weight]
      · cases hstep
  | pushes =>
      simp only [step, pushes] at hstep
      split at hstep
      · next e killed he hstage =>
          obtain rfl := Option.some.inj hstep
          have hwire : (if w.connection = .lost then w.wire
              else w.wire ++ [.finished (w.finish req e killed)]).length ≤ w.wire.length + 1 := by
            split
            · omega
            · simp
          simp only [entry] at he
          simp only [measure, entry, he, hstage, Stage.weight, Dict.get?_erase, if_true,
            Option.elim_none, Option.elim_some]
          omega
      · cases hstep
  | reconnects =>
      simp only [step, reconnects] at hstep
      split at hstep
      · next hlost =>
          obtain rfl := Option.some.inj hstep
          simp [measure, entry, hlost, Connection.weight]
      · cases hstep
  | receives =>
      simp only [step, receives] at hstep
      split at hstep
      · cases hstep
      · next f rest hwire =>
          split at hstep
          · obtain rfl := Option.some.inj hstep
            simp [measure, entry, hwire]
          · obtain rfl := Option.some.inj hstep
            simp only [measure, entry, hwire, List.length_cons, List.length_nil, Connection.weight]
            omega
      · next response rest hwire =>
          obtain rfl := Option.some.inj hstep
          have hphase :
              (if w.phase = .calling then Phase.waiting else w.phase).weight ≤ w.phase.weight := by
            cases w.phase <;> decide
          simp only [measure, entry, hwire, List.length_cons]
          omega
  | rpcFails =>
      simp only [step, rpcFails] at hstep
      split at hstep
      · next hcalling =>
          obtain rfl := Option.some.inj hstep
          simp only [measure, answer, entry, hcalling.1, Phase.weight]
          omega
      · cases hstep
  | wakes now =>
      simp only [step, wakes] at hstep
      split at hstep
      · next hwait =>
          split at hstep
          all_goals
            obtain rfl := Option.some.inj hstep
            simp only [measure, answer, entry, hwait.1, Phase.weight]
            omega
      · cases hstep
  | timesOut =>
      simp only [step, timesOut] at hstep
      split at hstep
      · next hwait =>
          obtain rfl := Option.some.inj hstep
          simp only [measure, answer, entry, hwait.1, Phase.weight]
          omega
      · cases hstep

end OneStep

/-! ## finished frames -/

section Finished

variable {db db' : Db} {kills kills' : PendingKills} {p : ScriptFinishedEvent} {id : Nat}

/-- The waiter of a reservation is there. -/
def Registered (kills : PendingKills) (id : Nat) : Prop := ∃ w ∈ kills, w.reservationId = id

theorem registered_register (kills : PendingKills) (id : Nat) : Registered (kills.register id) id :=
  ⟨_, List.mem_cons_self, rfl⟩

theorem registered_signal (h : Registered kills id) (j : Int) : Registered (kills.signal j) id := by
  obtain ⟨w, hw, hid⟩ := h
  refine ⟨_, List.mem_map_of_mem hw, ?_⟩
  split <;> exact hid

/-- A signal of its reservation sets the event of a waiter. -/
theorem isSignalled_signal_self (h : Registered kills id) :
    (kills.signal (id : Int)).isSignalled id = true := by
  obtain ⟨w, hw, hid⟩ := h
  refine List.any_eq_true.mpr ⟨{ w with signalled := true }, List.mem_map.mpr ⟨w, hw, ?_⟩, ?_⟩
  · simp [hid]
  · simp [hid]

theorem isSignalled_signal_of_isSignalled (h : kills.isSignalled id = true) (j : Int) :
    (kills.signal j).isSignalled id = true := by
  obtain ⟨w, hw, hset⟩ := List.any_eq_true.mp h
  refine List.any_eq_true.mpr ⟨_, List.mem_map_of_mem hw, ?_⟩
  split
  · simp only [Bool.and_eq_true, decide_eq_true_eq] at hset
    simp [hset.1]
  · exact hset

theorem findReservation_natCast (db : Db) (id : Nat) :
    findReservation db (id : Int) = db.reservations.get? id := by
  simp [findReservation]

/-- A finished frame leaves the status and the owner of a row alone. -/
theorem row_finished (h : FinishedCase db kills p db' kills') {r : Reservation}
    (hr : db.reservations.get? id = some r) :
    ∃ r', db'.reservations.get? id = some r' ∧ r'.status = r.status ∧ r'.userId = r.userId := by
  cases h with
  | unknown _ eq | stale _ _ _ eq => exact ⟨r, eq ▸ hr, rfl, rfl⟩
  | ended row row' entries hrow _ booking _ _ _ eq =>
      rw [eq]
      by_cases hid : row'.id = id
      · have hstored := (findReservation_eq_some hrow).2
        have hrow' : row = r := by
          rw [← booking.id.symm.trans hid] at hr
          exact Option.some.inj (hstored.symm.trans hr)
        subst hrow'
        refine ⟨row', ?_, booking.status, booking.userId⟩
        rw [← hid]
        exact Table.get?_put_self (booking.id ▸ hstored)
      · exact ⟨r, (Table.get?_put_ne hid).trans hr, rfl, rfl⟩

theorem registered_killsAfter (h : Registered kills id) : Registered (killsAfter kills p) id := by
  unfold killsAfter
  split
  · exact registered_signal h _
  · exact h

theorem isSignalled_killsAfter_of_isSignalled (h : kills.isSignalled id = true) :
    (killsAfter kills p).isSignalled id = true := by
  unfold killsAfter
  split
  · exact isSignalled_signal_of_isSignalled h _
  · exact h

/-- The handler raises exactly on a report that the columns refuse, for a running row. -/
theorem finished_cases (db : Db) (kills : PendingKills) (f : Finish) :
    (∃ db' kills', onScriptFinished db kills f.event = .ok (db', kills') ∧
      (!isRunning db f.reservationId || f.event.fits) = true) ∨
    (∃ err, onScriptFinished db kills f.event = .error err) ∧
      (!isRunning db f.reservationId || f.event.fits) = false := by
  cases hfits : (!isRunning db f.reservationId || f.event.fits) with
  | true =>
      have hok : ∃ s, onScriptFinished db kills f.event = .ok s := by
        refine KillRegistry.onScriptFinished_isOk kills fun row hrow hrunning => ?_
        have hmarked : isRunning db f.reservationId = true := by
          rw [isRunning, show findReservation db f.reservationId = some row from hrow]
          simpa using hrunning
        simpa [hmarked] using hfits
      obtain ⟨⟨db', kills'⟩, h⟩ := hok
      exact .inl ⟨db', kills', h, rfl⟩
  | false =>
      rw [Bool.or_eq_false_iff, Bool.not_eq_false'] at hfits
      obtain ⟨hmarked, hrefused⟩ := hfits
      refine .inr ⟨?_, rfl⟩
      unfold isRunning at hmarked
      cases hrow : findReservation db f.reservationId with
      | none =>
          rw [hrow] at hmarked
          cases hmarked
      | some row =>
          rw [hrow, Option.any_some, decide_eq_true_eq] at hmarked
          have hhandled : ∀ x, onScriptFinished db kills f.event ≠ .ok x := by
            intro x hx
            have hfind : findReservation db f.event.reservationId = some row := hrow
            simp only [onScriptFinished, hfind, if_pos hmarked, finishRunning, bind_eq_ok_iff,
              hrefused, Bool.not_false, Prod.exists] at hx
            obtain ⟨_, ⟨_, _, -, _, hraised, -⟩, -⟩ := hx
            cases hraised
          cases hresult : onScriptFinished db kills f.event with
          | ok x => exact absurd hresult (hhandled x)
          | error err => exact ⟨err, rfl⟩

/-- After a finished frame its script is not marked running, and the others are as they were. -/
theorem isRunning_finished (h : FinishedCase db kills p db' kills') :
    isRunning db' = fun id => isRunning db id && id != p.reservationId := by
  funext id
  by_cases hid : id = p.reservationId
  · subst hid
    simp only [bne_self_eq_false, Bool.and_false]
    cases h with
    | unknown hnone eq => simp [isRunning, eq, hnone]
    | stale row hrow hended eq => simp [isRunning, eq, hrow, hended]
    | ended row row' entries hrow _ booking hstatus _ _ eq =>
        obtain ⟨hkey, hstored⟩ := findReservation_eq_some hrow
        have hself : findReservation db' (row.id : Int) = some row' := by
          rw [findReservation_natCast, eq, Db.reservations_write, ← booking.id]
          exact Table.get?_put_self (booking.id ▸ hstored)
        rw [isRunning, ← hkey, hself, Option.any_some, hstatus]
        simpa using newStatus_ne_running p
  · have hkept : findReservation db' id = findReservation db id := by
      cases h with
      | unknown _ eq | stale _ _ _ eq => rw [eq]
      | ended row row' entries hrow _ booking _ _ _ eq =>
          obtain ⟨hkey, -⟩ := findReservation_eq_some hrow
          unfold findReservation
          split
          · rw [eq, Db.reservations_write]
            refine Table.get?_put_ne ?_
            have hrowid : row'.id = row.id := booking.id
            show row'.id ≠ id.toNat
            omega
          · rfl
    simp [isRunning, hkept, hid]

/-- What the backend takes depends on the reports alone. -/
theorem takes_congr {fs gs : List Finish} (running : Int → Bool)
    (heq : fs.map (fun f => (f.reservationId, f.event.fits)) =
      gs.map (fun f => (f.reservationId, f.event.fits))) : takes running fs = takes running gs := by
  induction fs generalizing gs running with
  | nil =>
      obtain rfl := List.map_eq_nil_iff.mp heq.symm
      rfl
  | cons f fs ih =>
      cases gs with
      | nil => cases heq
      | cons g gs =>
          simp only [List.map_cons, List.cons.injEq, Prod.mk.injEq] at heq
          obtain ⟨⟨hid, hfits⟩, hrest⟩ := heq
          rw [takes, takes, hid, hfits, ih _ hrest]

end Finished

/-! ## a kill that is still to come -/

/-- The call has not ended, the backend takes what is to come, and a kill is to come or has
come. -/
structure Waits (req : CancelRequest) (w : World) : Prop where
  open' : w.phase ≠ .answered
  row : ∃ r, w.db.reservations.get? req.reservationId = some r ∧ r.status = .active ∧
    (req.actorCanAdmin = true ∨ r.userId = req.actorUserId)
  connected : w.connection = .first
  ack : w.phase = .calling →
    w.requested = true ∨ ∃ response, Message.cancelAck response ∈ w.wire
  waiter : Registered w.kills req.reservationId
  taken : takes (isRunning w.db) (toCome req w) = true
  kill : (∃ f ∈ toCome req w, f.reservationId = req.reservationId ∧ f.killed = true) ∨
    w.kills.isSignalled req.reservationId = true

/-- The call waits for its kill, or has ended with the reservation cancelled. -/
inductive Good (req : CancelRequest) (w : World) : Prop where
  | waits (h : Waits req w)
  | done (answered : w.phase = .answered) (r : Reservation)
      (row : w.db.reservations.get? req.reservationId = some r) (cancelled : r.status = .cancelled)

section Good

variable {req : CancelRequest} {h : Host} {w w' : World}

/-- The locked read finds an active row that the actor may cancel. -/
theorem cancelReservation_active {db : Db} {r : Reservation} (now : Time)
    (hr : db.reservations.get? req.reservationId = some r) (hactive : r.status = .active)
    (hactor : req.actorCanAdmin = true ∨ r.userId = req.actorUserId) :
    ∃ db' r', cancelReservation db req.reservationId req.actorUserId req.actorCanAdmin req.reason
        now = .ok db' ∧ db'.reservations.get? req.reservationId = some r' ∧ r'.status = .cancelled := by
  have hid : r.id = req.reservationId := Table.key_of_get? hr
  have hterminal : r.status.terminal = false := by rw [hactive]; rfl
  have hallowed : assertTransitionAllowed r.status .cancelled = .ok () := by rw [hactive]; rfl
  have hmay : (!req.actorCanAdmin && r.userId != req.actorUserId) = false := by
    obtain hadmin | howner := hactor
    · simp [hadmin]
    · simp [howner]
  let row := cancelledRow r req.actorUserId req.reason now
  refine ⟨db.write row [reservationAudit .reservationCancel (some req.actorUserId) row], row, ?_, ?_,
    rfl⟩
  · unfold cancelReservation
    rw [hr]
    dsimp only
    rw [hterminal, hallowed, hmay]
    rfl
  · have hput : (db.reservations.put row).get? row.id = some row := Table.get?_put_self (hid ▸ hr)
    exact hid ▸ hput

/-- A cancel that reaches the agent in time makes the event of its entry one of a kill. -/
theorem own_cancelled (req : CancelRequest) {w v : World} {a : Agent} {id : Int} {reason : String}
    {response : CancelScriptResponse} (hid : id = (req.reservationId : Int))
    (hc : AgentHost.cancel w.agent h id reason = .ok (a, response)) (hagent : v.agent = a)
    (hstage : v.stage = w.stage) (hreport : v.report = w.report) :
    (own req w = [] ∧ own req v = []) ∨ ∃ f g, own req w = [f] ∧ own req v = [g] ∧
      g.reservationId = f.reservationId ∧ g.event.fits = f.event.fits ∧
      (f.killed = true → g.killed = true) := by
  subst hid
  obtain ⟨hnone, hnone'⟩ | ⟨e, he, hmarked⟩ := cancel_running hc
  · refine .inl ⟨?_, ?_⟩
    · simp [own, entry, hnone]
    · simp [own, entry, hagent, hnone']
  · let e' : RunningEntry := { e with killedReason := some reason }
    have hown : own req w = [w.finish req e (w.stage.endsKilled e)] := by simp [own, entry, he]
    have hown' : own req v = [v.finish req e' (v.stage.endsKilled e')] := by
      simp [own, entry, hagent, hmarked, e']
    refine .inr ⟨_, _, hown, hown', rfl, ?_, ?_⟩
    · simp [World.finish, Finish.event, ScriptFinishedEvent.fits, hreport, e']
    · -- an entry that has not been looked at is now marked as killed
      simp only [World.finish, hstage, Stage.endsKilled, e']
      cases w.stage <;> simp

theorem good_agentCancels (hw : Good req w) (hstep : agentCancels req h w = some w') : Good req w' := by
  unfold agentCancels at hstep
  split at hstep
  · split at hstep
    · next agent response hc =>
        cases hw with
        | done hanswered r hr hcancelled =>
            obtain rfl := Option.some.inj hstep
            exact .done hanswered r hr hcancelled
        | waits hw =>
            rw [if_pos hw.connected] at hstep
            obtain rfl := Option.some.inj hstep
            have hframes : World.frames { w with
                agent := agent, requested := false, wire := w.wire ++ [.cancelAck response] } =
                w.frames := by
              simp [World.frames]
            have hown := own_cancelled req (w := w) (v := { w with
              agent := agent, requested := false, wire := w.wire ++ [.cancelAck response] })
              rfl hc rfl rfl rfl
            refine .waits ⟨hw.open', hw.row, hw.connected, fun _ => .inr ⟨response, by simp⟩, hw.waiter,
              ?_, ?_⟩
            · have htaken := hw.taken
              rw [toCome] at htaken ⊢
              rw [hframes]
              refine (takes_congr _ ?_).trans htaken
              obtain ⟨hnone, hnone'⟩ | ⟨f, g, hf, hg, hid, hfits, -⟩ := hown
              · rw [hnone, hnone']
              · simp [hf, hg, hid, hfits]
            · refine hw.kill.imp_left ?_
              rintro ⟨k, hk, hid, hkilled⟩
              rw [toCome, List.mem_append] at hk
              rw [toCome, hframes]
              rcases hk with hk | hk
              · exact ⟨k, List.mem_append_left _ hk, hid, hkilled⟩
              · obtain ⟨hnone, -⟩ | ⟨f, g, hf, hg, hgid, -, hgkilled⟩ := hown
                · rw [hnone] at hk
                  cases hk
                · rw [hf] at hk
                  obtain rfl := List.mem_singleton.mp hk
                  exact ⟨g, List.mem_append_right _ (hg ▸ List.mem_singleton_self g),
                    hgid.trans hid, hgkilled hkilled⟩
    · cases hstep
  · cases hstep

theorem toCome_resumes (hstep : resumes req w = some w') : toCome req w' = toCome req w := by
  unfold resumes at hstep
  split at hstep
  · next e he hstage =>
      obtain rfl := Option.some.inj hstep
      simp only [entry] at he
      simp [toCome, World.frames, own, entry, he, hstage, Stage.endsKilled, World.finish]
  · cases hstep

theorem good_resumes (hw : Good req w) (hstep : resumes req w = some w') : Good req w' := by
  have hsame := toCome_resumes hstep
  unfold resumes at hstep
  split at hstep
  · next e he hstage =>
      obtain rfl := Option.some.inj hstep
      cases hw with
      | done hanswered r hr hcancelled => exact .done hanswered r hr hcancelled
      | waits hw =>
          exact .waits ⟨hw.open', hw.row, hw.connected, hw.ack, hw.waiter, hsame ▸ hw.taken,
            hsame ▸ hw.kill⟩
  · cases hstep

/-- On a connection, the event of the entry goes from the agent to the wire. -/
theorem toCome_pushes (hconnected : w.connection ≠ .lost) (hstep : pushes req w = some w') :
    toCome req w' = toCome req w := by
  unfold pushes at hstep
  split at hstep
  · next e killed he hstage =>
      rw [if_neg hconnected] at hstep
      obtain rfl := Option.some.inj hstep
      simp only [entry] at he
      simp [toCome, World.frames, own, entry, he, hstage, Stage.endsKilled, World.finish,
        Dict.get?_erase]
  · cases hstep

theorem good_pushes (hw : Good req w) (hstep : pushes req w = some w') : Good req w' := by
  have hmoved := fun hconnected => toCome_pushes hconnected hstep
  unfold pushes at hstep
  split at hstep
  · next e killed he hstage =>
      cases hw with
      | done hanswered r hr hcancelled =>
          obtain rfl := Option.some.inj hstep
          exact .done hanswered r hr hcancelled
      | waits hw =>
          have hconnected : w.connection ≠ .lost := by
            rw [hw.connected]
            exact fun heq => by cases heq
          have hsame := hmoved hconnected
          rw [if_neg hconnected] at hstep
          obtain rfl := Option.some.inj hstep
          refine .waits ⟨hw.open', hw.row, hw.connected, fun hcalling => ?_, hw.waiter,
            hsame ▸ hw.taken, hsame ▸ hw.kill⟩
          obtain hreq | ⟨response, hack⟩ := hw.ack hcalling
          · exact .inl hreq
          · exact .inr ⟨response, List.mem_append_left _ hack⟩
  · cases hstep

theorem good_reconnects (hw : Good req w) (hstep : reconnects w = some w') : Good req w' := by
  unfold reconnects at hstep
  split at hstep
  · next hlost =>
      obtain rfl := Option.some.inj hstep
      cases hw with
      | done hanswered r hr hcancelled => exact .done hanswered r hr hcancelled
      | waits hw =>
          rw [hw.connected] at hlost
          cases hlost
  · cases hstep

theorem good_rpcFails (hw : Good req w) (hstep : rpcFails req w = some w') : Good req w' := by
  unfold rpcFails at hstep
  split at hstep
  · next hcalling =>
      cases hw with
      | done hanswered _ _ _ =>
          rw [hanswered] at hcalling
          cases hcalling.1
      | waits hw => exact absurd hw.connected hcalling.2
  · cases hstep

/-- What is to come after the first frame on the wire. -/
theorem toCome_cons (req : CancelRequest) {f : Finish} {rest : List Message}
    (hwire : w.wire = .finished f :: rest) (db : Db) (kills : PendingKills) :
    toCome req w = f :: toCome req { w with db := db, kills := kills, wire := rest } := by
  simp [toCome, World.frames, own, entry, hwire, World.finish]

theorem good_finished {f : Finish} {rest : List Message} {db' : Db} {kills' : PendingKills}
    (hw : Good req w) (hwire : w.wire = .finished f :: rest)
    (hcase : FinishedCase w.db w.kills f.event db' kills') :
    Good req { w with db := db', kills := kills', wire := rest } := by
  cases hw with
  | done hanswered r hr hcancelled =>
      obtain ⟨r', hr', hstatus, -⟩ := row_finished hcase hr
      exact .done hanswered r' hr' (hstatus.trans hcancelled)
  | waits hw =>
      obtain ⟨r, hr, hactive, hactor⟩ := hw.row
      obtain ⟨r', hr', hstatus, howner⟩ := row_finished hcase hr
      have hkills := hcase.kills_eq
      have hcons := toCome_cons req hwire db' kills'
      refine .waits ⟨hw.open', ⟨r', hr', hstatus.trans hactive, howner ▸ hactor⟩, hw.connected,
        fun hcalling => ?_, ?_, ?_, ?_⟩
      · obtain hreq | ⟨response, hack⟩ := hw.ack hcalling
        · exact .inl hreq
        · rw [hwire] at hack
          exact .inr ⟨response, (List.mem_cons.mp hack).resolve_left (fun heq => by cases heq)⟩
      · obtain rfl | rfl := hkills
        · exact hw.waiter
        · exact registered_killsAfter hw.waiter
      · have htaken := hw.taken
        rw [hcons, takes, Bool.and_eq_true] at htaken
        rw [isRunning_finished hcase]
        exact htaken.2
      · obtain ⟨g, hg, hid, hkilled⟩ | hset := hw.kill
        · rw [hcons] at hg
          obtain rfl | hrest := List.mem_cons.mp hg
          · -- the kill arrives, and the row it names is there
            have hfind : findReservation w.db g.event.reservationId = some r := by
              rw [Finish.event, hid, findReservation_natCast, hr]
            have hafter : killsAfter w.kills g.event = w.kills.signal (req.reservationId : Int) := by
              rw [killsAfter, Finish.event, if_pos hkilled, hid]
            rw [hcase.kills_eq_of_row hfind, hafter]
            exact .inr (isSignalled_signal_self hw.waiter)
          · exact .inl ⟨g, hrest, hid, hkilled⟩
        · obtain rfl | rfl := hkills
          · exact .inr hset
          · exact .inr (isSignalled_killsAfter_of_isSignalled hset)

theorem good_receives (hw : Good req w) (hstep : receives w = some w') : Good req w' := by
  unfold receives at hstep
  split at hstep
  · cases hstep
  · next f rest hwire =>
      obtain ⟨db', kills', hok, -⟩ | ⟨⟨err, herr⟩, hrefused⟩ := finished_cases w.db w.kills f
      · rw [hok] at hstep
        obtain rfl := Option.some.inj hstep
        exact good_finished hw hwire (onScriptFinished_ok hok)
      · rw [herr] at hstep
        obtain rfl := Option.some.inj hstep
        cases hw with
        | done hanswered r hr hcancelled => exact .done hanswered r hr hcancelled
        | waits hw =>
            have htaken := hw.taken
            rw [toCome_cons req hwire w.db w.kills, takes, hrefused] at htaken
            cases htaken
  · next response rest hwire =>
      obtain rfl := Option.some.inj hstep
      cases hw with
      | done hanswered r hr hcancelled =>
          refine .done ?_ r hr hcancelled
          simp [hanswered]
      | waits hw =>
          have hsame : toCome req { w with
              wire := rest, phase := if w.phase = .calling then .waiting else w.phase } =
              toCome req w := by
            simp [toCome, World.frames, own, entry, hwire, World.finish]
          refine .waits ⟨?_, hw.row, hw.connected, fun hcalling => ?_, hw.waiter, hsame ▸ hw.taken,
            hsame ▸ hw.kill⟩
          · have hopen := hw.open'
            split
            · exact fun heq => by cases heq
            · exact hopen
          · dsimp only at hcalling
            split at hcalling
            · cases hcalling
            · next hne => exact absurd hcalling hne

theorem good_wakes (hw : Good req w) {now : Time} (hstep : wakes req w now = some w') :
    Good req w' := by
  unfold wakes at hstep
  split at hstep
  · next hwait =>
      cases hw with
      | done hanswered _ _ _ =>
          rw [hanswered] at hwait
          cases hwait.1
      | waits hw =>
          obtain ⟨r, hr, hactive, hactor⟩ := hw.row
          obtain ⟨db', r', hok, hr', hcancelled⟩ := cancelReservation_active now hr hactive hactor
          rw [hok] at hstep
          obtain rfl := Option.some.inj hstep
          exact .done rfl r' hr' hcancelled
  · cases hstep

theorem toCome_eq_nil (hempty : w.wire = []) (hnone : entry req w = none) : toCome req w = [] := by
  simp [toCome, World.frames, own, hempty, hnone]

/-- While a kill is to come, the wait does not time out. -/
theorem good_timesOut (hw : Good req w) (hstep : timesOut req w = some w') : Good req w' := by
  unfold timesOut at hstep
  split at hstep
  · next hend =>
      obtain ⟨hphase, hunset, hempty, hnone⟩ := hend
      cases hw with
      | done hanswered _ _ _ =>
          rw [hanswered] at hphase
          cases hphase
      | waits hw =>
          obtain ⟨f, hf, -⟩ | hset := hw.kill
          · rw [toCome_eq_nil hempty hnone] at hf
            cases hf
          · rw [hunset] at hset
            cases hset
  · cases hstep

theorem good_step {a : Action} (hw : Good req w) (hstep : step req h w a = some w') : Good req w' := by
  cases a with
  | agentCancels => exact good_agentCancels hw hstep
  | resumes => exact good_resumes hw hstep
  | pushes => exact good_pushes hw hstep
  | reconnects => exact good_reconnects hw hstep
  | receives => exact good_receives hw hstep
  | rpcFails => exact good_rpcFails hw hstep
  | wakes now => exact good_wakes hw hstep
  | timesOut => exact good_timesOut hw hstep

/-- A call that waits for its kill can go on. -/
theorem not_stuck (hq : Quiet h) (hw : Waits req w) : ∃ a, step req h w a ≠ none := by
  cases hreq : w.requested with
  | true =>
      obtain ⟨⟨agent, response⟩, hc⟩ := cancel_isOk hq w.agent req.reservationId w.agentReason
      exact ⟨.agentCancels, by simp [step, agentCancels, hreq, hc]⟩
  | false =>
      cases hwire : w.wire with
      | cons m rest =>
          cases m with
          | cancelAck response => exact ⟨.receives, by simp [step, receives, hwire]⟩
          | finished f =>
              refine ⟨.receives, ?_⟩
              simp only [step, receives, hwire]
              split <;> exact Option.some_ne_none _
      | nil =>
          cases he : entry req w with
          | some e =>
              cases hstage : w.stage with
              | exited => exact ⟨.resumes, by simp [step, resumes, he, hstage]⟩
              | ending killed =>
                  exact ⟨.pushes, by simp [step, pushes, he, hstage]⟩
          | none =>
              have hphase : w.phase = .waiting := by
                cases hphase : w.phase with
                | waiting => rfl
                | answered => exact absurd hphase hw.open'
                | calling =>
                    obtain hreq' | ⟨response, hack⟩ := hw.ack hphase
                    · rw [hreq] at hreq'
                      cases hreq'
                    · rw [hwire] at hack
                      cases hack
              have hset : w.kills.isSignalled req.reservationId = true := by
                obtain ⟨f, hf, -⟩ | hset := hw.kill
                · rw [toCome_eq_nil hwire he] at hf
                  cases hf
                · exact hset
              obtain ⟨r, hr, hactive, hactor⟩ := hw.row
              obtain ⟨db', r', hok, -, -⟩ := cancelReservation_active 0 hr hactive hactor
              exact ⟨.wakes 0, by simp [step, wakes, hphase, hset, hok]⟩

/-- **A kill to come** is enough: the call ends, with the reservation cancelled. -/
theorem completes_of_good (hq : Quiet h) (hw : Good req w) : Completes req h w := by
  refine ⟨⟨measure req w, fun as w' hrun => ?_⟩, fun as w' hrun hend => ?_⟩
  · have hle := length_add_measure_le (fun _ _ _ => measure_step) hrun
    omega
  · have hw' : Good req w' :=
      exec_invariant (fun _ _ _ hi _ hs => good_step hi hs) hw (meets_true _ _) hrun
    cases hw' with
    | done hanswered r hr hcancelled => exact ⟨hanswered, r, hr, hcancelled⟩
    | waits hw' =>
        obtain ⟨a, ha⟩ := not_stuck hq hw'
        exact absurd (hend a) ha

end Good

/-! ## no kill is to come -/

section Hopeless

variable {req : CancelRequest} {h : Host} {w w' : World}

/-- Where the reservation stays active, whatever comes, some way the call goes does not cancel
it. -/
theorem not_completes_of_invariant {I : World → Prop}
    (hactive : ∀ v, I v → ∃ r, v.db.reservations.get? req.reservationId = some r ∧ r.status = .active)
    (hstep : ∀ v a v', I v → step req h v a = some v' → I v') {as : List Action} {u : World}
    (hrun : exec (step req h) w as = some u) (hu : I u) : ¬ Completes req h w := by
  intro hc
  have hdec : ∀ s a t, step req h s a = some t → measure req t < measure req s :=
    fun _ _ _ => measure_step
  obtain ⟨bs, v, hbs, hend⟩ := exists_maximal hdec u
  obtain ⟨-, r, hr, hcancelled⟩ := hc.cancelled (as ++ bs) v (exec_append hrun hbs) hend
  have hv : I v := exec_invariant (fun s a t hi _ hs => hstep s a t hi hs) hu (meets_true _ _) hbs
  obtain ⟨r', hr', hstatus⟩ := hactive v hv
  obtain rfl : r = r' := Option.some.inj (hr.symm.trans hr')
  rw [hstatus] at hcancelled
  cases hcancelled

/-- The reservation is active, and the call has ended or no kill can reach its waiter any more. -/
structure Hopeless (req : CancelRequest) (w : World) : Prop where
  row : ∃ r, w.db.reservations.get? req.reservationId = some r ∧ r.status = .active
  lost : w.phase = .answered ∨
    (∀ f ∈ w.frames, f.reservationId = req.reservationId → f.killed = false) ∧
      (∀ e, entry req w = some e → w.stage = .ending false) ∧
      w.kills.isSignalled req.reservationId = false

theorem hopeless_agentCancels (hw : Hopeless req w) (hstep : agentCancels req h w = some w') :
    Hopeless req w' := by
  unfold agentCancels at hstep
  split at hstep
  · split at hstep
    · next agent response hc =>
        obtain rfl := Option.some.inj hstep
        refine ⟨hw.row, hw.lost.imp_right fun ⟨hframes, hstage, hunset⟩ => ⟨?_, fun e he => ?_, hunset⟩⟩
        · have hsame : World.frames { w with
              agent := agent, requested := false
              wire := if w.connection = .first then w.wire ++ [.cancelAck response] else w.wire } =
              w.frames := by
            unfold World.frames
            split <;> simp
          rw [hsame]
          exact hframes
        · -- the reason is marked too late
          obtain ⟨-, hnone⟩ | ⟨e', he', -⟩ := cancel_running hc
          · rw [entry, hnone] at he
            cases he
          · exact hstage e' he'
    · cases hstep
  · cases hstep

theorem hopeless_resumes (hw : Hopeless req w) (hstep : resumes req w = some w') : Hopeless req w' := by
  unfold resumes at hstep
  split at hstep
  · next e he hstage =>
      obtain rfl := Option.some.inj hstep
      refine ⟨hw.row, hw.lost.imp_right fun ⟨_, hending, _⟩ => ?_⟩
      rw [hending e he] at hstage
      cases hstage
  · cases hstep

theorem hopeless_pushes (hw : Hopeless req w) (hstep : pushes req w = some w') : Hopeless req w' := by
  unfold pushes at hstep
  split at hstep
  · next e killed he hstage =>
      obtain rfl := Option.some.inj hstep
      refine ⟨hw.row, hw.lost.imp_right fun ⟨hframes, hending, hunset⟩ =>
        ⟨fun f hf hid => ?_, fun e' he' => ?_, hunset⟩⟩
      · rw [hending e he] at hstage
        have hnatural : false = killed := Stage.ending.inj hstage
        simp only [World.frames] at hf
        split at hf
        · exact hframes f hf hid
        · rw [List.filterMap_append, List.mem_append] at hf
          rcases hf with hf | hf
          · exact hframes f hf hid
          · obtain rfl := List.mem_singleton.mp hf
            exact hnatural.symm
      · simp [entry, Dict.get?_erase] at he'
  · cases hstep

theorem hopeless_receives (hw : Hopeless req w) (hstep : receives w = some w') : Hopeless req w' := by
  unfold receives at hstep
  split at hstep
  · cases hstep
  · next f rest hwire =>
      obtain ⟨db', kills', hok, -⟩ | ⟨⟨err, herr⟩, -⟩ := finished_cases w.db w.kills f
      · have hcase := onScriptFinished_ok hok
        rw [hok] at hstep
        obtain rfl := Option.some.inj hstep
        obtain ⟨r, hr, hactive⟩ := hw.row
        obtain ⟨r', hr', hstatus, -⟩ := row_finished hcase hr
        refine ⟨⟨r', hr', hstatus.trans hactive⟩, hw.lost.imp_right fun ⟨hframes, hending, hunset⟩ =>
          ⟨fun g hg => hframes g ?_, hending, ?_⟩⟩
        · simp only [World.frames, hwire]
          exact List.mem_cons_of_mem _ hg
        · -- a frame that signals the waiter is one of its reservation and of a kill
          by_contra hset
          rw [Bool.not_eq_false] at hset
          obtain hbefore | ⟨hkilled, hid⟩ := CancelRace.signalled_finished hcase hset
          · rw [hunset] at hbefore
            cases hbefore
          · have hfirst : f ∈ w.frames := by simp [World.frames, hwire]
            have hnot : f.killed = false := hframes f hfirst hid
            exact Bool.false_ne_true (hnot.symm.trans hkilled)
      · rw [herr] at hstep
        obtain rfl := Option.some.inj hstep
        exact ⟨hw.row, hw.lost.imp_right fun ⟨_, hending, hunset⟩ =>
          ⟨fun f hf => absurd hf List.not_mem_nil, hending, hunset⟩⟩
  · next response rest hwire =>
      obtain rfl := Option.some.inj hstep
      refine ⟨hw.row, ?_⟩
      rcases hw.lost with hanswered | ⟨hframes, hending, hunset⟩
      · exact .inl (by simp [hanswered])
      · refine .inr ⟨fun f hf => hframes f ?_, hending, hunset⟩
        simpa [World.frames, hwire] using hf

theorem hopeless_wakes (hw : Hopeless req w) {now : Time} : wakes req w now = none := by
  have hnot : ¬ (w.phase = .waiting ∧ w.kills.isSignalled req.reservationId = true) := by
    rintro ⟨hwaiting, hset⟩
    rcases hw.lost with hanswered | ⟨-, -, hunset⟩
    · rw [hanswered] at hwaiting
      cases hwaiting
    · rw [hunset] at hset
      cases hset
  rw [wakes, if_neg hnot]

theorem hopeless_step {a : Action} (hw : Hopeless req w) (hstep : step req h w a = some w') :
    Hopeless req w' := by
  cases a with
  | agentCancels => exact hopeless_agentCancels hw hstep
  | resumes => exact hopeless_resumes hw hstep
  | pushes => exact hopeless_pushes hw hstep
  | receives => exact hopeless_receives hw hstep
  | wakes now =>
      rw [step, hopeless_wakes hw] at hstep
      cases hstep
  | reconnects =>
      simp only [step, reconnects] at hstep
      split at hstep
      · obtain rfl := Option.some.inj hstep
        exact ⟨hw.row, hw.lost⟩
      · cases hstep
  | rpcFails =>
      simp only [step, rpcFails] at hstep
      split at hstep
      · obtain rfl := Option.some.inj hstep
        exact ⟨hw.row, .inl rfl⟩
      · cases hstep
  | timesOut =>
      simp only [step, timesOut] at hstep
      split at hstep
      · obtain rfl := Option.some.inj hstep
        exact ⟨hw.row, .inl rfl⟩
      · cases hstep

theorem not_completes_of_hopeless {as : List Action} {u : World}
    (hrun : exec (step req h) w as = some u) (hu : Hopeless req u) : ¬ Completes req h w :=
  not_completes_of_invariant (I := Hopeless req) (fun _ hv => hv.row)
    (fun _ _ _ hv hs => hopeless_step hv hs) hrun hu

/-! ## a frame that the backend does not take -/

/-- The call is under way, with finished events on the wire that its response comes behind. -/
structure Calling (req : CancelRequest) (w : World) (fs : List Finish) : Prop where
  phase : w.phase = .calling
  wire : w.wire = fs.map .finished
  connected : w.connection = .first
  row : ∃ r, w.db.reservations.get? req.reservationId = some r ∧ r.status = .active

/-- The frame that the backend does not take ends the connection, and the RPC fails with it. -/
theorem exists_hopeless_of_refused {f : Finish} {fs : List Finish} (hw : Calling req w (f :: fs))
    (hrefused : (!isRunning w.db f.reservationId || f.event.fits) = false) :
    ∃ as u, exec (step req h) w as = some u ∧ Hopeless req u := by
  obtain ⟨_, _, -, htaken⟩ | ⟨⟨err, herr⟩, -⟩ := finished_cases w.db w.kills f
  · rw [hrefused] at htaken
    cases htaken
  · have hreceive : step req h w .receives = some { w with connection := .lost, wire := [] } := by
      simp only [step, receives, hw.wire, List.map_cons, herr]
    have hfail : step req h { w with connection := .lost, wire := [] } .rpcFails =
        some (answer req { w with connection := .lost, wire := [] } (attemptFailed req w.db)) := by
      simp [step, rpcFails, hw.phase]
    refine ⟨[.receives, .rpcFails], _, exec_cons_eq_some.mpr ⟨_, hreceive,
      exec_cons_eq_some.mpr ⟨_, hfail, exec_nil _⟩⟩, ?_⟩
    exact ⟨hw.row, .inl rfl⟩

/-- With nothing on the wire, `_await_and_push` may come before the cancel. -/
theorem exists_pushed {e : RunningEntry} (hw : Calling req w []) (he : entry req w = some e) :
    ∃ as u, exec (step req h) w as = some u ∧ u.db = w.db ∧ Calling req u (own req w) := by
  have hempty : w.wire = [] := hw.wire
  have hpush : ∀ v killed, v.db = w.db → v.report = w.report → v.phase = .calling → v.wire = [] →
      v.connection = .first → entry req v = some e → v.stage = .ending killed →
      w.stage.endsKilled e = killed →
      ∃ u, step req h v .pushes = some u ∧ u.db = w.db ∧ Calling req u (own req w) := by
    intro v killed hdb hreport hphase hwire hconnected hentry hstage hkilled
    refine ⟨{ v with
        agent := { v.agent with running := v.agent.running.erase (req.reservationId : Int) }
        wire := [.finished (v.finish req e killed)] }, ?_, hdb, ⟨hphase, ?_, hconnected, hdb ▸ hw.row⟩⟩
    · simp [step, pushes, hentry, hstage, hconnected, hwire]
    · simp [own, he, hkilled, World.finish, hreport]
  cases hstage : w.stage with
  | ending killed =>
      obtain ⟨u, hu, hdb, hcalling⟩ := hpush w killed rfl rfl hw.phase hempty hw.connected he hstage
        (by rw [hstage]; rfl)
      exact ⟨[.pushes], u, exec_cons_eq_some.mpr ⟨u, hu, exec_nil _⟩, hdb, hcalling⟩
  | exited =>
      have hresume : step req h w .resumes =
          some { w with stage := .ending e.killedReason.isSome } := by
        simp only [step, resumes, he, hstage]
      obtain ⟨u, hu, hdb, hcalling⟩ := hpush { w with stage := .ending e.killedReason.isSome }
        e.killedReason.isSome rfl rfl hw.phase hempty hw.connected he rfl (by rw [hstage]; rfl)
      exact ⟨[.resumes, .pushes], u, exec_cons_eq_some.mpr ⟨_, hresume,
        exec_cons_eq_some.mpr ⟨u, hu, exec_nil _⟩⟩, hdb, hcalling⟩

/-- Where the backend does not take all that is to come, some way the call goes fails. -/
theorem exists_hopeless_of_not_takes {fs : List Finish} (hw : Calling req w fs)
    (hnot : takes (isRunning w.db) (fs ++ own req w) = false) :
    ∃ as u, exec (step req h) w as = some u ∧ Hopeless req u := by
  induction fs generalizing w with
  | nil =>
      cases he : entry req w with
      | none => simp [own, he, takes] at hnot
      | some e =>
          obtain ⟨as, u, hrun, hdb, hcalling⟩ := exists_pushed (h := h) hw he
          have hown : own req w = [w.finish req e (w.stage.endsKilled e)] := by simp [own, he]
          rw [hown] at hcalling
          rw [List.nil_append, hown, takes, takes, Bool.and_true] at hnot
          obtain ⟨bs, v, hrest, hv⟩ := exists_hopeless_of_refused (h := h) hcalling (hdb ▸ hnot)
          exact ⟨as ++ bs, v, exec_append hrun hrest, hv⟩
  | cons f fs ih =>
      obtain ⟨db', kills', hok, htaken⟩ | ⟨-, hrefused⟩ := finished_cases w.db w.kills f
      · have hreceive : step req h w .receives =
            some { w with db := db', kills := kills', wire := fs.map .finished } := by
          simp only [step, receives, hw.wire, List.map_cons, hok]
        have hcase := onScriptFinished_ok hok
        obtain ⟨r, hr, hactive⟩ := hw.row
        obtain ⟨r', hr', hstatus, -⟩ := row_finished hcase hr
        rw [List.cons_append, takes, htaken, Bool.true_and] at hnot
        obtain ⟨as, u, hrun, hu⟩ := ih
          (w := { w with db := db', kills := kills', wire := fs.map .finished })
          ⟨hw.phase, rfl, hw.connected, r', hr', hstatus.trans hactive⟩
          (by rw [isRunning_finished hcase]; exact hnot)
        exact ⟨.receives :: as, u, exec_cons_eq_some.mpr ⟨_, hreceive, hrun⟩, hu⟩
      · exact exists_hopeless_of_refused hw hrefused

end Hopeless

/-! ## the call -/

section Call

variable {req : CancelRequest} {h : Host} {db : Db} {row : Reservation}

theorem good_start (hdel : Deletable req db row) {kills : PendingKills} {agent : Agent} {stage : Stage}
    {report : Report} {frames : List Finish}
    (hkill : KillToCome req (start req db row kills agent stage report frames)) :
    Good req (start req db row kills agent stage report frames) := by
  refine .waits ⟨(fun heq => by cases heq), ⟨row, hdel.stored, hdel.active, hdel.allowed⟩, rfl,
    fun _ => .inl rfl, registered_register _ _, hkill.taken, .inl hkill.kill⟩

theorem frames_start (kills : PendingKills) (agent : Agent) (stage : Stage) (report : Report)
    (frames : List Finish) : (start req db row kills agent stage report frames).frames = frames := by
  simp only [World.frames, start, List.filterMap_map]
  exact List.filterMap_some

/-- The due script is marked running. -/
def runningDue : Reservation := { dueScript with scriptStatus := some .running }

/-- An agent without an entry. -/
def idleAgent : Agent := (AgentRpc.freshPump []).agent

/-- An agent whose script of the reservation was killed for its runtime. -/
def overdueAgent : Agent :=
  let entry : RunningEntry :=
    { hasProcess := true, logPath := "/tmp/7.log", killedReason := some "max_runtime" }
  { idleAgent with running := Dict.empty.set 7 entry }

/-- The process was killed, and left a log of twelve bytes. -/
def killedReport : Report := { exitCode := some (-9), finishedAt := .ofStored 2, logSize := 12 }

/-- The way it goes: the answer is taken and not looked at. -/
example : (exec (step CancelRace.cancelDue AgentRpc.quietHost)
      (start CancelRace.cancelDue (smallLab (.single runningDue)) runningDue [] idleAgent .exited
        killedReport [])
      [.agentCancels, .receives, .timesOut]).map
        (fun w => (w.phase, w.db.reservations.rows.map (·.status))) =
    some (.answered, [.active]) := by decide +kernel

end Call

end CancelCall

end CoreLab
