import CoreLab.AgentHost
import CoreLab.Datetime
import CoreLab.Lib.Slots
import CoreLab.Lib.Transition

/-!
# CoreLab.ScriptRunner

The agent's `ScriptRunner`: the processes of the scripts, the two tasks that follow each of them
(`_pump_output` and `_await_and_push`), and the `_sigkill_if_overdue` timers of the cancels.  One
handler runs at a time, and it calls `AgentHost.execute` and `AgentHost.cancel`; between handlers the
tasks, the timers and the processes move in any order.

* `step` — a handler, a task, a timer, a process, or time;
* `Told` — what was pushed about a script so far;
* `Caused` — which calls its signals go back to;
* `Supervises` — what the runner is for; that it keeps to it in every run is shown in
  `CoreLab.ScriptSupervision`.
-/

namespace CoreLab

open Slots Transition

namespace ScriptRunner

open AgentHost (Agent Host Fault RunningEntry ExecuteScriptRequest)

abbrev Bytes := List UInt8

/-- `GRACE_SECONDS`. -/
def graceSeconds : Time := 5 * secondMicros

/-! ## one script -/

/-- A process as `asyncio` sees it; once its transport is closed it cannot be signalled. -/
inductive Process where
  | alive
  | exited (returncode : Int)
  | gone (returncode : Int)
deriving DecidableEq

def Process.returncode : Process → Option Int
  | alive => none
  | exited code => some code
  | gone code => some code

inductive Signal where
  | term
  | kill
deriving DecidableEq

/-- `ScriptFinishedEvent`. -/
structure FinishedEvent where
  reservationId : Int
  exitCode : Option Int
  startedAt : Time
  finishedAt : Time
  outputSizeBytes : Nat
  logPath : String
  killedByCorelab : Bool
  killedReason : Option String
deriving DecidableEq

/-- `duration_seconds`, in microseconds. -/
def FinishedEvent.duration (e : FinishedEvent) : Time := e.finishedAt - e.startedAt

/-- A lifecycle event; the text of a chunk is read from its bytes. -/
inductive Frame where
  | started (reservationId : Int) (pid : Nat) (startedAt : Time) (logPath : String)
  | outputChunk (reservationId : Int) (chunk : Bytes)
  | finished (event : FinishedEvent)
deriving DecidableEq

/-- `_pump_output`. -/
inductive Pump where
  | reading
  | ended
  | failed
deriving DecidableEq

/-- Where `_await_and_push` is. -/
inductive Stage where
  /-- It waits for the process. -/
  | waiting
  /-- It has killed the process for its runtime, and waits for its end. -/
  | killing
  /-- It waits for the pump. -/
  | ended
  /-- It has pushed the event. -/
  | pushed
  /-- It has cleaned up. -/
  | left
deriving DecidableEq

/-- One execution: the entry, the process with its output pipe, and the two tasks. -/
structure Run where
  request : ExecuteScriptRequest
  pid : Nat
  startedAt : Time
  entry : RunningEntry
  process : Process := .alive
  /-- What was written into the pipe, and what of it is still there. -/
  written : Bytes := []
  unread : Bytes := []
  closed : Bool := false
  /-- What was added to the log file. -/
  log : Bytes := []
  pump : Pump := .reading
  stage : Stage := .waiting
  /-- `killed` of `_await_and_push`. -/
  killed : Option Bool := none
  /-- The signals that reached the process alive, and when. -/
  signals : List (Signal × Time) := []
  /-- The host has refused to signal the process. -/
  refused : Bool := false
  frames : List Frame

def Run.reservationId (r : Run) : Int := r.request.reservationId

/-- `reader.read(8192)`. -/
def readSize : Nat := 8192

/-- A signal reaches a process that is alive. -/
def Run.signalled (r : Run) (signal : Signal) (now : Time) : Run :=
  if r.process = .alive then { r with signals := r.signals ++ [(signal, now)] } else r

/-- `entry.killed_reason = reason`. -/
def Run.mark (r : Run) (reason : String) : Run :=
  { r with entry := { r.entry with killedReason := some reason } }

/-- The execution as its handler leaves it: the entry, the tasks and the first event. -/
def Run.begun (request : ExecuteScriptRequest) (pid : Nat) (now : Time) : Run where
  request := request
  pid := pid
  startedAt := now
  entry := { hasProcess := true, logPath := request.stdoutLogPathHint }
  frames := [.started request.reservationId pid now request.stdoutLogPathHint]

/-- `_pump_output` reads a chunk, adds it to the log file if that can be written, and pushes it. -/
def Run.pumpChunk (r : Run) (size : Nat) (logged : Bool) : Run :=
  { r with
    unread := r.unread.drop size
    log := if logged then r.log ++ r.unread.take size else r.log
    frames := r.frames ++ [.outputChunk r.reservationId (r.unread.take size)] }

/-- The event that `_await_and_push` pushes. -/
def Run.finishedEvent (r : Run) (killed : Bool) (now : Time) (outputSizeBytes : Nat) :
    FinishedEvent where
  reservationId := r.reservationId
  exitCode := r.process.returncode
  startedAt := r.startedAt
  finishedAt := now
  outputSizeBytes := outputSizeBytes
  logPath := r.entry.logPath
  killedByCorelab := killed
  killedReason := r.entry.killedReason

/-! ## the runner -/

/-- A cancel that was answered as such: which execution it found, and when. -/
structure Cancelled where
  reservationId : Int
  run : Nat
  time : Time

/-- `running` is `_running`, by the number of the execution; the agent's own map of entries is
`World.host`. -/
structure World where
  agent : Agent
  running : Dict Int Nat
  runs : List Run
  /-- The `_sigkill_if_overdue` tasks: the reservation, and when they wake. -/
  timers : List (Int × Time)
  clock : Time
  cancels : List Cancelled

def World.entry (w : World) (k : Nat) : RunningEntry :=
  match w.runs[k]? with
  | some r => r.entry
  | none => { hasProcess := false, logPath := "" }

/-- The agent as its handlers see it. -/
def World.host (w : World) : Agent := { w.agent with running := w.running.mapVals w.entry }

/-- A capability sync comes in, a frame is handled, a process or a task moves, or time passes. -/
inductive Action where
  | setEnabled (key : String) (enabled : Bool)
  | execute (h : Host) (request : ExecuteScriptRequest)
  | cancel (h : Host) (reservationId : Int) (reason : String)
  /-- The script, or a process it has left behind, writes. -/
  | writes (run : Nat) (chunk : Bytes)
  | exits (run : Nat) (returncode : Int)
  /-- The last writer has closed the pipe. -/
  | closes (run : Nat)
  | transportCloses (run : Nat)
  | pumps (run size : Nat) (logged : Bool)
  | pumpEnds (run : Nat)
  | pumpFails (run : Nat)
  | waitReturns (run : Nat)
  | overtime (run : Nat) (permitted : Bool)
  | finishes (run : Nat) (outputSizeBytes : Nat)
  | cleansUp (run : Nat)
  | wakes (timer : Nat) (permitted : Bool)
  | passes (time : Time)

def World.setRun (w : World) (k : Nat) (r : Run) : World := { w with runs := w.runs.set k r }

/-- `ScriptRunner.execute`: the host decides whether a script starts. -/
def World.execute (w : World) (h : Host) (request : ExecuteScriptRequest) : World :=
  match AgentHost.execute w.host h request with
  | .ok (_, { started := true, pid := some pid, .. }) =>
    { w with
      running := w.running.set request.reservationId w.runs.length
      runs := w.runs ++ [.begun request pid w.clock] }
  | _ => w

/-- What the host may answer to `process.terminate()`. -/
def answers (process : Process) : Except Fault Unit → Bool
  | .ok _ => match process with
    | .gone _ => false
    | _ => true
  | .error (.os .processLookup _) => decide (process ≠ .alive)
  | .error _ => true

/-- `ScriptRunner.cancel`: the reason is set first, and the timer only after the signal. -/
def World.cancel (w : World) (h : Host) (id : Int) (reason : String) : Option World :=
  match w.running.get? id with
  | none => some w
  | some k => do
    let r ← w.runs[k]?
    if !answers r.process h.terminate then none
    else match h.terminate with
    | .ok _ => some { w.setRun k ((r.mark reason).signalled .term w.clock) with
        timers := w.timers ++ [(id, w.clock + graceSeconds)]
        cancels := w.cancels ++ [⟨id, k, w.clock⟩] }
    | .error _ => some (w.setRun k (r.mark reason))

/-- `_await_and_push` on a `TimeoutError`; an exception of `kill()` ends it on the way. -/
def World.overtime (w : World) (k : Nat) (r : Run) (permitted : Bool) : World :=
  let marked := r.mark (AgentHost.orElse (r.entry.killedReason.getD "") "max_runtime")
  if r.process = .alive ∧ permitted = false then
    { w.setRun k { marked with
        refused := true, stage := .left
        pump := if r.pump = .reading then .failed else r.pump } with
      running := w.running.erase r.reservationId }
  else w.setRun k { marked.signalled .kill w.clock with stage := .killing }

/-- `_sigkill_if_overdue`, once it has slept. -/
def World.wake (w : World) (id : Int) (permitted : Bool) : World :=
  match w.running.get? id with
  | none => w
  | some k =>
    match w.runs[k]? with
    | none => w
    | some r =>
      if r.process ≠ .alive then w
      else if permitted then w.setRun k (r.signalled .kill w.clock)
      else w.setRun k { r with refused := true }

def step (w : World) : Action → Option World
  | .setEnabled key enabled =>
    some { w with agent :=
      { w.agent with capabilities := w.agent.capabilities.set key enabled } }
  | .execute h request => some (w.execute h request)
  | .cancel h id reason => w.cancel h id reason
  | .writes k chunk => do
    let r ← w.runs[k]?
    if r.closed then none
    else some (w.setRun k { r with written := r.written ++ chunk, unread := r.unread ++ chunk })
  | .exits k code => do
    let r ← w.runs[k]?
    if r.process = .alive then some (w.setRun k { r with process := .exited code }) else none
  | .closes k => do
    let r ← w.runs[k]?
    some (w.setRun k { r with closed := true })
  | .transportCloses k => do
    let r ← w.runs[k]?
    match r.process, r.closed with
    | .exited code, true => some (w.setRun k { r with process := .gone code })
    | _, _ => none
  | .pumps k size logged => do
    let r ← w.runs[k]?
    if r.pump = .reading ∧ 0 < size ∧ size ≤ readSize ∧ size ≤ r.unread.length then
      some (w.setRun k (r.pumpChunk size logged))
    else none
  | .pumpEnds k => do
    let r ← w.runs[k]?
    if r.pump = .reading ∧ r.unread = [] ∧ r.closed = true then
      some (w.setRun k { r with pump := .ended })
    else none
  | .pumpFails k => do
    let r ← w.runs[k]?
    if r.pump = .reading then some (w.setRun k { r with pump := .failed }) else none
  | .waitReturns k => do
    let r ← w.runs[k]?
    match r.process, r.stage with
    | .alive, _ => none
    | _, .waiting =>
      some (w.setRun k { r with stage := .ended, killed := some r.entry.killedReason.isSome })
    | _, .killing => some (w.setRun k { r with stage := .ended, killed := some true })
    | _, _ => none
  | .overtime k permitted => do
    let r ← w.runs[k]?
    let seconds ← r.request.maxRuntimeSeconds
    if r.stage = .waiting ∧ r.startedAt + seconds * secondMicros ≤ w.clock then
      some (w.overtime k r permitted)
    else none
  | .finishes k outputSizeBytes => do
    let r ← w.runs[k]?
    let killed ← r.killed
    if r.stage = .ended ∧ r.pump ≠ .reading then
      some (w.setRun k { r with
        stage := .pushed
        frames := r.frames ++ [.finished (r.finishedEvent killed w.clock outputSizeBytes)] })
    else none
  | .cleansUp k => do
    let r ← w.runs[k]?
    if r.stage = .pushed then
      some { w.setRun k { r with stage := .left } with running := w.running.erase r.reservationId }
    else none
  | .wakes i permitted => do
    let timer ← w.timers[i]?
    if timer.2 ≤ w.clock then
      some ({ w with timers := w.timers.eraseIdx i }.wake timer.1 permitted)
    else none
  | .passes time => if w.clock ≤ time then some { w with clock := time } else none

/-- An agent on a Linux host, with no script started. -/
def start (agent : Agent) : World where
  agent := { agent with mockMode := false }
  running := .empty
  runs := []
  timers := []
  clock := 0
  cancels := []

/-! ## what is promised -/

/-- What the event of an ended script says of it. -/
structure Reports (r : Run) (e : FinishedEvent) : Prop where
  reservation : e.reservationId = r.reservationId
  exited : ∃ code, r.process.returncode = some code ∧ e.exitCode = some code
  startedAt : e.startedAt = r.startedAt
  logPath : e.logPath = r.request.stdoutLogPathHint
  killed : r.killed = some e.killedByCorelab
  reason : e.killedByCorelab = true → e.killedReason.isSome = true
  pumped : r.pump ≠ .reading

/-- What was pushed of a script: its start, its output in order, and at the end its finish.  Of what
was written before the pump came to the end nothing is missing. -/
structure Tells (r : Run) (chunks : List Bytes) (finish : Option FinishedEvent) : Prop where
  frames : r.frames = .started r.reservationId r.pid r.startedAt r.request.stdoutLogPathHint ::
    (chunks.map (.outputChunk r.reservationId) ++ finish.toList.map .finished)
  output : chunks.flatten ++ r.unread = r.written
  full : r.pump = .ended → r.unread = [] ∧ r.closed = true
  log : ∃ kept : List Bytes, kept.Sublist chunks ∧ r.log = kept.flatten
  reports : ∀ e ∈ finish, Reports r e
  early : finish.isSome = true → r.stage = .pushed ∨ r.stage = .left
  due : r.stage = .pushed ∨ r.stage = .left → finish.isSome = true ∨ r.refused = true

def Told (r : Run) : Prop := ∃ chunks finish, Tells r chunks finish

/-- An earlier script of the same reservation was cancelled. -/
def Stale (runs : List Run) (k : Nat) (r : Run) : Prop :=
  ∃ j q, j < k ∧ runs[j]? = some q ∧ q.reservationId = r.reservationId ∧
    q.entry.killedReason.isSome = true

/-- The calls that the signals of a script go back to.  A script that was signalled is reported as
killed, but for the timer of an earlier script of its reservation. -/
structure Caused (cancels : List Cancelled) (runs : List Run) (k : Nat) (r : Run) : Prop where
  terms : ∀ t, (.term, t) ∈ r.signals → ∃ c ∈ cancels, c.run = k ∧ c.time = t
  kills : ∀ t, (.kill, t) ∈ r.signals →
    (∃ seconds, r.request.maxRuntimeSeconds = some seconds ∧
      r.startedAt + seconds * secondMicros ≤ t) ∨
    ∃ c ∈ cancels, c.reservationId = r.reservationId ∧ c.time + graceSeconds ≤ t
  marked : r.signals ≠ [] → r.entry.killedReason.isSome = true ∨ Stale runs k r
  told : r.killed = some false → r.signals ≠ [] → Stale runs k r

/-- The script is over, was killed after the grace time, or could not be. -/
def Over (c : Cancelled) (r : Run) : Prop :=
  r.process ≠ .alive ∨ (∃ t, (.kill, t) ∈ r.signals ∧ c.time + graceSeconds ≤ t) ∨
    r.refused = true

/-- A cancel that was answered as such has marked its script; unless its timer still sleeps, the
script is over. -/
def Escalates (w : World) (c : Cancelled) : Prop :=
  ∃ r, w.runs[c.run]? = some r ∧ r.reservationId = c.reservationId ∧
    r.entry.killedReason.isSome = true ∧
    ((c.reservationId, c.time + graceSeconds) ∈ w.timers ∨ Over c r)

/-- What holds of the runner at any time. -/
structure Supervises (w : World) : Prop where
  told : All (fun _ r => Told r) w.runs
  caused : All (Caused w.cancels w.runs) w.runs
  escalates : ∀ c ∈ w.cancels, Escalates w c
  /-- A script that a later one of its reservation finds alive is one that the host has refused to
  kill, and that the runner has given up. -/
  exclusive : ∀ (j k : Nat) q r, j < k → w.runs[j]? = some q → w.runs[k]? = some r →
    q.reservationId = r.reservationId → q.process = .alive → q.refused = true ∧ q.stage = .left

/-- What a handler does is what the agent's handlers do; a script is started only with the
capability, alone for its reservation and as an ordinary user. -/
def Handles (w : World) : Action → World → Prop
  | .execute h p, w' =>
    (∀ a response, AgentHost.execute w.host h p = .ok (a, response) →
      ∀ id, w'.host.running.get? id = a.running.get? id) ∧
    (w' = w ∨ ∃ r, w'.runs = w.runs ++ [r] ∧
      w.agent.isEnabled "script.execute_as_user" true = true ∧
      w.running.get? p.reservationId = none ∧
      (∃ info, h.getpwnam p.linuxUsername = .ok (some info) ∧ 1000 ≤ info.uid) ∧
      h.spawnScript (AgentHost.scriptCommand p) (AgentHost.scriptEnv p) p.workingDirectory =
        .ok r.pid)
  | .cancel h id reason, w' =>
    ∀ a response, AgentHost.cancel w.host h id reason = .ok (a, response) →
      (∀ id', w'.host.running.get? id' = a.running.get? id') ∧
      (response.cancelled = true → ∃ c ∈ w'.cancels, c.reservationId = id ∧ c.time = w.clock)
  | _, w' => w'.runs.length = w.runs.length

/-! ## the invariant -/

/-- What holds of one script. -/
structure Sound (r : Run) : Prop where
  told : Told r
  entry : r.entry.hasProcess = true ∧ r.entry.logPath = r.request.stdoutLogPathHint
  unread : r.pump = .ended → r.unread = [] ∧ r.closed = true
  killing : r.stage = .killing → r.entry.killedReason.isSome = true
  undecided : r.stage = .waiting ∨ r.stage = .killing → r.killed = none
  decided : r.killed.isSome = true → r.process ≠ .alive
  killed : r.killed = some true → r.entry.killedReason.isSome = true
  dead : r.stage = .ended ∨ r.stage = .pushed → r.process ≠ .alive
  left : r.stage = .left → r.process ≠ .alive ∨ r.refused = true

/-- What a script keeps while it goes on. -/
structure Follows (r r' : Run) : Prop where
  request : r'.request = r.request
  marked : r.entry.killedReason.isSome = true → r'.entry.killedReason.isSome = true
  left : r.stage = .left → r'.stage = .left
  dead : r.process ≠ .alive → r'.process ≠ .alive
  signals : ∀ s ∈ r.signals, s ∈ r'.signals
  refused : r.refused = true → r'.refused = true

/-- The scripts go on, and others may join. -/
def Continues (runs runs' : List Run) : Prop :=
  ∀ (k : Nat) r, runs[k]? = some r → ∃ r', runs'[k]? = some r' ∧ Follows r r'

/-- `_running` holds the scripts that are not cleaned up, each the last of its reservation. -/
structure Registered (running : Dict Int Nat) (runs : List Run) : Prop where
  running : ∀ id k, running.get? id = some k ↔
    ∃ r, runs[k]? = some r ∧ r.reservationId = id ∧ r.stage ≠ .left
  earlier : ∀ (j k : Nat) q r, j < k → runs[j]? = some q → runs[k]? = some r →
    q.reservationId = r.reservationId → q.stage = .left

structure Inv (w : World) : Prop where
  mode : w.agent.mockMode = false
  sound : All (fun _ r => Sound r) w.runs
  registered : Registered w.running w.runs
  caused : All (Caused w.cancels w.runs) w.runs
  timers : ∀ t ∈ w.timers, ∃ c ∈ w.cancels, c.reservationId = t.1 ∧ t.2 = c.time + graceSeconds
  escalates : ∀ c ∈ w.cancels, Escalates w c

section Continues

variable {runs runs' : List Run} {r r' : Run} {k : Nat} {cancels : List Cancelled}

theorem Follows.refl (r : Run) : Follows r r := ⟨rfl, id, id, id, fun _ h => h, id⟩

theorem Follows.reservationId (h : Follows r r') : r'.reservationId = r.reservationId :=
  congrArg ExecuteScriptRequest.reservationId h.request

theorem Continues.refl (runs : List Run) : Continues runs runs := fun _ r hr => ⟨r, hr, .refl r⟩

theorem continues_set (hk : runs[k]? = some r) (hf : Follows r r') :
    Continues runs (runs.set k r') := by
  intro i q hq
  by_cases hi : i = k
  · subst hi
    obtain rfl : r = q := Option.some.inj (hk.symm.trans hq)
    exact ⟨r', (getElem?_change hk).mpr (.inl ⟨rfl, rfl⟩), hf⟩
  · exact ⟨q, (getElem?_change hk).mpr (.inr ⟨hi, hq⟩), .refl q⟩

theorem continues_concat (runs : List Run) (r : Run) : Continues runs (runs ++ [r]) :=
  fun _ q hq => ⟨q, getElem?_join.mpr (.inl hq), .refl q⟩

theorem Stale.mono (h : Stale runs k r) (hc : Continues runs runs')
    (hid : r'.reservationId = r.reservationId) : Stale runs' k r' := by
  obtain ⟨j, q, hj, hq, hqid, hmarked⟩ := h
  obtain ⟨q', hq', hf⟩ := hc j q hq
  exact ⟨j, q', hj, hq', (hf.reservationId.trans hqid).trans hid.symm, hf.marked hmarked⟩

/-- The causes stay as other scripts go on and more is cancelled. -/
theorem Caused.mono {cancels' : List Cancelled} (h : Caused cancels runs k r)
    (hc : Continues runs runs') (hsub : ∀ c ∈ cancels, c ∈ cancels') :
    Caused cancels' runs' k r where
  terms t ht := (h.terms t ht).imp fun _ hx => ⟨hsub _ hx.1, hx.2⟩
  kills t ht := (h.kills t ht).imp_right (Exists.imp fun _ hx => ⟨hsub _ hx.1, hx.2⟩)
  marked hs := (h.marked hs).imp_right fun hstale => hstale.mono hc rfl
  told hk hs := (h.told hk hs).mono hc rfl

/-- A script that was not signalled and whose end was not decided just now. -/
theorem Caused.quiet (h : Caused cancels runs k r) (hf : Follows r r')
    (hs : r'.signals = r.signals) (hkilled : r'.killed = r.killed)
    (hstart : r'.startedAt = r.startedAt) : Caused cancels runs k r' where
  terms t ht := h.terms t (hs ▸ ht)
  kills t ht := by
    rw [hf.request, hstart, hf.reservationId]
    exact h.kills t (hs ▸ ht)
  marked hne := (h.marked (hs ▸ hne)).imp hf.marked fun hstale =>
    hstale.mono (.refl runs) hf.reservationId
  told hk hne := (h.told (hkilled ▸ hk) (hs ▸ hne)).mono (.refl runs) hf.reservationId

theorem Over.mono {c : Cancelled} (h : Over c r) (hf : Follows r r') : Over c r' :=
  h.imp hf.dead (Or.imp (Exists.imp fun _ => And.imp_left (hf.signals _)) hf.refused)

end Continues

/-! ## one script goes on -/

section Sound

variable {r : Run} {now : Time}

theorem sound_begun (request : ExecuteScriptRequest) (pid : Nat) (now : Time) :
    Sound (.begun request pid now) where
  told := ⟨[], none, rfl, rfl, by simp [Run.begun], ⟨[], List.Sublist.refl _, rfl⟩, by simp,
    by simp, by simp [Run.begun]⟩
  entry := ⟨rfl, rfl⟩
  unread h := by simp [Run.begun] at h
  killing h := by simp [Run.begun] at h
  undecided _ := rfl
  decided h := by simp [Run.begun] at h
  killed h := by simp [Run.begun] at h
  dead h := by simp [Run.begun] at h
  left h := by simp [Run.begun] at h

/-- A new reason, a signal or a refusal changes nothing that is told. -/
theorem Sound.note (h : Sound r) {entry : RunningEntry} (signals : List (Signal × Time))
    {refused : Bool} (hprocess : entry.hasProcess = true) (hlog : entry.logPath = r.entry.logPath)
    (hmark : r.entry.killedReason.isSome = true → entry.killedReason.isSome = true)
    (hrefused : r.refused = true → refused = true) :
    Sound { r with entry := entry, signals := signals, refused := refused } where
  told := by
    obtain ⟨chunks, finish, ht⟩ := h.told
    refine ⟨chunks, finish, ht.frames, ht.output, ht.full, ht.log, fun e he => ?_, ht.early,
      fun hd => (ht.due hd).imp_right hrefused⟩
    have hr := ht.reports e he
    exact ⟨hr.reservation, hr.exited, hr.startedAt, hr.logPath, hr.killed, hr.reason, hr.pumped⟩
  entry := ⟨hprocess, hlog.trans h.entry.2⟩
  unread := h.unread
  killing hs := hmark (h.killing hs)
  undecided := h.undecided
  decided := h.decided
  killed hk := hmark (h.killed hk)
  dead := h.dead
  left hl := (h.left hl).imp_right hrefused

theorem Sound.mark (h : Sound r) (reason : String) : Sound (r.mark reason) :=
  h.note r.signals h.entry.1 rfl (fun _ => rfl) id

theorem Sound.signalled (h : Sound r) (signal : Signal) (now : Time) :
    Sound (r.signalled signal now) := by
  unfold Run.signalled
  split
  · exact h.note (r.signals ++ [(signal, now)]) h.entry.1 rfl id id
  · exact h

theorem Sound.refuse (h : Sound r) : Sound { r with refused := true } :=
  h.note r.signals h.entry.1 rfl id fun _ => rfl

theorem Sound.writes (h : Sound r) (hclosed : r.closed = false) (chunk : Bytes) :
    Sound { r with written := r.written ++ chunk, unread := r.unread ++ chunk } where
  told := by
    obtain ⟨chunks, finish, ht⟩ := h.told
    refine ⟨chunks, finish, ht.frames, ?_, fun hp => ?_, ht.log, fun e he => ?_, ht.early, ht.due⟩
    · rw [← List.append_assoc, ht.output]
    · rw [(ht.full hp).2] at hclosed
      cases hclosed
    · have hr := ht.reports e he
      exact ⟨hr.reservation, hr.exited, hr.startedAt, hr.logPath, hr.killed, hr.reason, hr.pumped⟩
  entry := h.entry
  unread hp := by
    rw [(h.unread hp).2] at hclosed
    cases hclosed
  killing := h.killing
  undecided := h.undecided
  decided := h.decided
  killed := h.killed
  dead := h.dead
  left := h.left

theorem Sound.closes (h : Sound r) : Sound { r with closed := true } where
  told := by
    obtain ⟨chunks, finish, ht⟩ := h.told
    refine ⟨chunks, finish, ht.frames, ht.output, fun hp => ⟨(ht.full hp).1, rfl⟩, ht.log,
      fun e he => ?_, ht.early, ht.due⟩
    have hr := ht.reports e he
    exact ⟨hr.reservation, hr.exited, hr.startedAt, hr.logPath, hr.killed, hr.reason, hr.pumped⟩
  entry := h.entry
  unread hp := ⟨(h.unread hp).1, rfl⟩
  killing := h.killing
  undecided := h.undecided
  decided := h.decided
  killed := h.killed
  dead := h.dead
  left := h.left

/-- The process ends, or its transport is closed; what was reported of it stays. -/
theorem Sound.ends (h : Sound r) (process : Process) (hdead : process ≠ .alive)
    (hcode : r.process ≠ .alive → process.returncode = r.process.returncode) :
    Sound { r with process := process } where
  told := by
    obtain ⟨chunks, finish, ht⟩ := h.told
    refine ⟨chunks, finish, ht.frames, ht.output, ht.full, ht.log, fun e he => ?_, ht.early, ht.due⟩
    have hr := ht.reports e he
    obtain ⟨code, hreturn, hexit⟩ := hr.exited
    have hwas : r.process ≠ .alive := by
      intro halive
      rw [halive] at hreturn
      cases hreturn
    exact ⟨hr.reservation, ⟨code, (hcode hwas).trans hreturn, hexit⟩, hr.startedAt, hr.logPath,
      hr.killed, hr.reason, hr.pumped⟩
  entry := h.entry
  unread := h.unread
  killing := h.killing
  undecided := h.undecided
  decided _ := hdead
  killed := h.killed
  dead _ := hdead
  left _ := .inl hdead

/-- While the pump reads, no finish was pushed. -/
theorem Tells.finish_eq_none {chunks : List Bytes} {finish : Option FinishedEvent}
    (h : Tells r chunks finish) (hpump : r.pump = .reading) : finish = none := by
  cases finish with
  | none => rfl
  | some e => exact absurd hpump (h.reports e rfl).pumped

theorem Sound.pumpChunk (h : Sound r) (hpump : r.pump = .reading) (size : Nat) (logged : Bool) :
    Sound (r.pumpChunk size logged) where
  told := by
    obtain ⟨chunks, finish, ht⟩ := h.told
    obtain rfl := ht.finish_eq_none hpump
    obtain ⟨kept, hkept, hlog⟩ := ht.log
    refine ⟨chunks ++ [r.unread.take size], none, ?_, ?_, fun hp => ?_, ?_, by simp, ht.early, ht.due⟩
    · simp [Run.pumpChunk, ht.frames, Run.reservationId]
    · simp only [Run.pumpChunk, List.flatten_append, List.flatten_singleton, List.append_assoc,
        List.take_append_drop, ht.output]
    · rw [Run.pumpChunk, hpump] at hp
      cases hp
    · cases logged with
      | true =>
          exact ⟨kept ++ [r.unread.take size], hkept.append (List.Sublist.refl _), by
            simp [Run.pumpChunk, hlog]⟩
      | false => exact ⟨kept, hkept.trans (List.sublist_append_left _ _), hlog⟩
  entry := h.entry
  unread hp := by
    rw [Run.pumpChunk, hpump] at hp
    cases hp
  killing := h.killing
  undecided := h.undecided
  decided := h.decided
  killed := h.killed
  dead := h.dead
  left := h.left

/-- The pump stops, at the end of the output or by an exception. -/
theorem Sound.pumpStops (h : Sound r) (hpump : r.pump = .reading) (pump : Pump)
    (hend : pump = .ended → r.unread = [] ∧ r.closed = true) :
    Sound { r with pump := pump } where
  told := by
    obtain ⟨chunks, finish, ht⟩ := h.told
    obtain rfl := ht.finish_eq_none hpump
    exact ⟨chunks, none, ht.frames, ht.output, hend, ht.log, by simp, ht.early, ht.due⟩
  entry := h.entry
  unread := hend
  killing := h.killing
  undecided := h.undecided
  decided := h.decided
  killed := h.killed
  dead := h.dead
  left := h.left

theorem Tells.finish_eq_none_of_stage {chunks : List Bytes} {finish : Option FinishedEvent}
    (h : Tells r chunks finish) (hpushed : r.stage ≠ .pushed) (hleft : r.stage ≠ .left) :
    finish = none := by
  cases finish with
  | none => rfl
  | some e => exact absurd (h.early rfl) (not_or.mpr ⟨hpushed, hleft⟩)

/-- `_await_and_push` goes on while nothing is decided. -/
theorem Sound.goes (h : Sound r) (hpushed : r.stage ≠ .pushed) (hleft : r.stage ≠ .left)
    {stage : Stage} {killed : Option Bool} (hstage : stage = .killing ∨ stage = .ended)
    (hkilling : stage = .killing → r.entry.killedReason.isSome = true ∧ killed = none)
    (hended : stage = .ended → r.process ≠ .alive)
    (hkilled : killed = some true → r.entry.killedReason.isSome = true) :
    Sound { r with stage := stage, killed := killed } where
  told := by
    obtain ⟨chunks, finish, ht⟩ := h.told
    obtain rfl := ht.finish_eq_none_of_stage hpushed hleft
    refine ⟨chunks, none, ht.frames, ht.output, ht.full, ht.log, by simp, by simp, fun hd => ?_⟩
    rcases hstage with rfl | rfl <;> simp at hd
  entry := h.entry
  unread := h.unread
  killing hk := (hkilling hk).1
  undecided hu := by
    rcases hstage with rfl | rfl
    · exact (hkilling rfl).2
    · simp at hu
  decided hd := by
    rcases hstage with rfl | rfl
    · simp [(hkilling rfl).2] at hd
    · exact hended rfl
  killed := hkilled
  dead hd := by
    rcases hstage with rfl | rfl
    · simp at hd
    · exact hended rfl
  left hl := by rcases hstage with rfl | rfl <;> cases hl

/-- The exception of a refused `kill()` takes the pump along. -/
theorem Sound.breaks (h : Sound r) (hstage : r.stage = .waiting) :
    Sound { r with
      refused := true, stage := .left
      pump := if r.pump = .reading then .failed else r.pump } where
  told := by
    obtain ⟨chunks, finish, ht⟩ := h.told
    obtain rfl := ht.finish_eq_none_of_stage (by simp [hstage]) (by simp [hstage])
    refine ⟨chunks, none, ht.frames, ht.output, fun hp => ?_, ht.log, by simp, by simp,
      fun _ => .inr rfl⟩
    dsimp only at hp
    split at hp
    · cases hp
    · exact ht.full hp
  entry := h.entry
  unread hp := by
    dsimp only at hp
    split at hp
    · cases hp
    · exact h.unread hp
  killing hk := by cases hk
  undecided hu := by simp at hu
  decided := h.decided
  killed := h.killed
  dead hd := by simp at hd
  left _ := .inr rfl

theorem Sound.finishes (h : Sound r) (hstage : r.stage = .ended) (hpump : r.pump ≠ .reading)
    {killed : Bool} (hkilled : r.killed = some killed) (now : Time) (outputSizeBytes : Nat) :
    Sound { r with
      stage := .pushed
      frames := r.frames ++ [.finished (r.finishedEvent killed now outputSizeBytes)] } where
  told := by
    obtain ⟨chunks, finish, ht⟩ := h.told
    obtain rfl := ht.finish_eq_none_of_stage (by simp [hstage]) (by simp [hstage])
    refine ⟨chunks, some (r.finishedEvent killed now outputSizeBytes), ?_, ht.output, ht.full, ht.log,
      fun e he => ?_, fun _ => .inl rfl, fun _ => .inl rfl⟩
    · simp [ht.frames, Run.reservationId]
    · obtain rfl := Option.some.inj he
      have hdead := h.dead (.inl hstage)
      have hexit : ∃ code, r.process.returncode = some code := by
        cases hp : r.process with
        | alive => exact absurd hp hdead
        | exited code => exact ⟨code, rfl⟩
        | gone code => exact ⟨code, rfl⟩
      obtain ⟨code, hcode⟩ := hexit
      refine ⟨rfl, ⟨code, hcode, hcode⟩, rfl, h.entry.2, hkilled, fun hk => ?_, hpump⟩
      exact h.killed (hkilled.trans (congrArg some hk))
  entry := h.entry
  unread := h.unread
  killing hk := by cases hk
  undecided hu := by simp at hu
  decided := h.decided
  killed := h.killed
  dead _ := h.dead (.inl hstage)
  left hl := by cases hl

theorem Sound.cleansUp (h : Sound r) (hstage : r.stage = .pushed) :
    Sound { r with stage := .left } where
  told := by
    obtain ⟨chunks, finish, ht⟩ := h.told
    refine ⟨chunks, finish, ht.frames, ht.output, ht.full, ht.log, fun e he => ?_,
      fun _ => .inr rfl, fun _ => ht.due (.inl hstage)⟩
    have hr := ht.reports e he
    exact ⟨hr.reservation, hr.exited, hr.startedAt, hr.logPath, hr.killed, hr.reason, hr.pumped⟩
  entry := h.entry
  unread := h.unread
  killing hk := by cases hk
  undecided hu := by simp at hu
  decided := h.decided
  killed := h.killed
  dead hd := by simp at hd
  left _ := .inl (h.dead (.inr hstage))

end Sound

end ScriptRunner

end CoreLab
