import CoreLab.AgentRpc
import CoreLab.Lib.Calendar

/-!
# CoreLab.PolicyDispatch

The agent's `PolicyDispatcher`: what it does with a violation, by the policies
and the capabilities that the syncs left, and by how long the violation lasts.
All its decisions are made before its first `await`; syncs may come between
that and its end.

* `get?_capabilities` — a switch shows what the last sync said that named it;
* `gated_run` — the kill callback is called through all gates only, and what the
  dispatcher returns and pushes is the severity it applied.
-/

namespace CoreLab

open Calendar Schema AgentHost AgentRpc Transition

namespace PolicyDispatch

/-! ## violations -/

/-- `Violation`. -/
structure Violation where
  policyKey : String
  serverId : Int
  gpuIdLocal : Int
  linuxUsername : Option String
  pid : Option Int
  linkedUserIds : List Int
  payload : Dict String Json

/-- `ViolationEventPayload`. -/
structure ViolationEventPayload where
  serverId : Int
  gpuId : Int
  policyKey : String
  severity : String
  linuxUsername : Option String
  linuxPid : Option Int
  linkedPlatformUserIds : List Int
  actionTaken : String
  downgradedFrom : Option String

/-! ## the grace tracker -/

/-- The signature of a violation. -/
abbrev GraceKey := String × Int × Int × Option String × Option Int

def Violation.graceKey (v : Violation) : GraceKey :=
  (v.policyKey, v.serverId, v.gpuIdLocal, v.linuxUsername, v.pid)

structure Pending where
  firstSeen : Time
  lastSeen : Time

/-- `grace_tracker.record`, at a reading of the monotonic clock. -/
def record (pending : Dict GraceKey Pending) (key : GraceKey) (gracePeriodSeconds : Option Int)
    (now : Time) : Dict GraceKey Pending × Bool :=
  match gracePeriodSeconds with
  | none | some 0 => (pending, true)
  | some grace =>
    match pending.get? key with
    | none => (pending.set key ⟨now, now⟩, false)
    | some p => (pending.set key { p with lastSeen := now },
        decide (grace * secondMicros ≤ now - p.firstSeen))

/-! ## the dispatcher -/

/-- `_KILL_CAPABILITY`. -/
def killCapability : String := "gpu.kill_process"

/-- `_AUTO_KILL_ALLOWED_KEYS`. -/
def autoKillAllowedKeys : List String := ["preempt_others_reservation", "script_overrun_grace"]

/-- The server and the callbacks that a `PolicyDispatcher` was made with. -/
structure Dispatcher where
  serverId : Int
  hasNotify : Bool
  hasKill : Bool
  hasViolationEvent : Bool

/-- A call of the dispatcher that acts, from its first `await` on; `killing` is the
pid the kill callback was called with. -/
structure Dispatch where
  violation : Violation
  effective : String
  downgradedFrom : Option String
  killing : Option Int

/-- A call of the dispatcher that returned; `notified` is what it gave to the notify
callback, `event` what it pushed. -/
structure Result where
  violation : Violation
  returned : String
  notified : Option (Violation × String)
  event : Option ViolationEventPayload

/-- The severity that is applied, and the one it was downgraded from: by the scope
guard, then by the capability. -/
def effectiveSeverity (a : Agent) (policyKey severity : String) : String × Option String :=
  let inScope := if severity = "auto_kill" ∧ policyKey ∉ autoKillAllowedKeys then
    ("warn", some "auto_kill") else (severity, none)
  if inScope.1 = "auto_kill" ∧ a.isEnabled killCapability false = false then
    ("warn", some "auto_kill") else inScope

/-- What `_route` answers. -/
def actionTaken (severity : String) (killed : Bool) : String :=
  if severity = "log_only" then "log_only"
  else if severity = "notify" then "notify"
  else if severity = "warn" then "warn"
  else if severity = "auto_kill" then if killed then "kill" else "kill_downgraded_to_warn"
  else "log_only"

/-- The violation that `_route` gives to the notify callback. -/
def notification (c : Dispatch) (killed : Bool) : Option (Violation × String) :=
  if c.effective = "notify" ∨ c.effective = "warn" then some (c.violation, c.effective)
  else if c.effective = "auto_kill" then
    let payload := (c.violation.payload.set "action_taken" (.str "killed")).set "killed" (.bool killed)
    some ({ c.violation with payload := payload }, c.effective)
  else none

/-- The end of a call, with the answer of the kill callback where it was called. -/
def Dispatcher.finish (d : Dispatcher) (c : Dispatch) (answer : Bool) : Result :=
  let killed := c.killing.isSome && answer
  { violation := c.violation
    returned := c.effective
    notified := if d.hasNotify then notification c killed else none
    event := if d.hasViolationEvent then some
      { serverId := d.serverId, gpuId := c.violation.gpuIdLocal
        policyKey := c.violation.policyKey, severity := c.effective
        linuxUsername := c.violation.linuxUsername, linuxPid := c.violation.pid
        linkedPlatformUserIds := c.violation.linkedUserIds
        actionTaken := actionTaken c.effective killed, downgradedFrom := c.downgradedFrom }
      else none }

/-- A call that returned without acting. -/
def Result.idle (v : Violation) (returned : String) : Result :=
  { violation := v, returned := returned, notified := none, event := none }

/-! ## runs -/

/-- The agent, with the calls of its dispatcher; `mentions` is what the capability
syncs said so far, and no step reads it. -/
structure World where
  agent : Agent
  pending : Dict GraceKey Pending
  current : Option Dispatch
  results : List Result
  mentions : List (String × Bool)

/-- One atomic step: a sync; a violation that a tick found, up to the first `await`
of its dispatch; or the rest of that. -/
inductive Action where
  | policySync (serverId : Int) (policies : List PolicyEntry) (etag : String)
  | capabilitySync (capabilities : List (String × Bool))
  | violation (v : Violation) (now : Time)
  | resume (answer : Bool)

/-- `__call__`, up to its first `await`. -/
def Dispatcher.begin (d : Dispatcher) (w : World) (v : Violation) (now : Time) : World :=
  match w.agent.policies.get? (d.serverId, v.policyKey) with
  | none => { w with results := w.results ++ [.idle v "log_only"] }
  | some entry =>
    if entry.enabled = false then { w with results := w.results ++ [.idle v "log_only"] }
    else
      let recorded := record w.pending v.graceKey entry.gracePeriodSeconds now
      if recorded.2 = false then
        { w with pending := recorded.1, results := w.results ++ [.idle v "deferred"] }
      else
        let applied := effectiveSeverity w.agent v.policyKey entry.severity
        { w with
          pending := recorded.1
          current := some
            { violation := v, effective := applied.1, downgradedFrom := applied.2
              killing := if applied.1 = "auto_kill" ∧ d.hasKill = true then v.pid else none } }

/-- One step; a tick dispatches its violations one after another. -/
def Dispatcher.step (d : Dispatcher) (w : World) : Action → Option World
  | .policySync serverId policies _ =>
    some { w with agent := applyPolicies w.agent serverId policies }
  | .capabilitySync capabilities => some { w with
      agent := { w.agent with
        capabilities := capabilities.foldl (fun d e => d.set e.1 e.2) w.agent.capabilities }
      mentions := w.mentions ++ capabilities }
  | .violation v now => if w.current.isSome then none else some (d.begin w v now)
  | .resume answer => w.current.map fun c =>
      { w with current := none, results := w.results ++ [d.finish c answer] }

/-- The syncs are those of the agent's receive loop. -/
theorem invokeHandler_sync (d : Dispatcher) (w : World) (h : Host) :
    (∀ serverId policies etag,
      (invokeHandler w.agent h (.policySync serverId policies etag)).toOption.map Prod.fst =
        (d.step w (.policySync serverId policies etag)).map World.agent) ∧
    ∀ capabilities, (invokeHandler w.agent h (.capabilitySync capabilities)).toOption.map Prod.fst =
      (d.step w (.capabilitySync capabilities)).map World.agent :=
  ⟨fun _ _ _ => rfl, fun _ => rfl⟩

/-! ## the property -/

/-- What the last sync that named a capability said. -/
def lastMention (mentions : List (String × Bool)) (key : String) : Option Bool :=
  (mentions.filter fun e => e.1 = key).getLast?.map Prod.snd

/-- The gates that a kill has to pass. -/
structure KillAllowed (d : Dispatcher) (w : World) (v : Violation) (now : Time) (pid : Int) : Prop where
  policy : ∃ entry, w.agent.policies.get? (d.serverId, v.policyKey) = some entry ∧
    entry.enabled = true ∧ entry.severity = "auto_kill" ∧
      (record w.pending v.graceKey entry.gracePeriodSeconds now).2 = true
  key : v.policyKey ∈ autoKillAllowedKeys
  capability : lastMention w.mentions killCapability = some true
  pid : v.pid = some pid

/-- A call that acts calls the kill callback through the gates only, with severity
`auto_kill`; one whose policy says so and that does not apply it warns. -/
structure Gated (d : Dispatcher) (w : World) (v : Violation) (now : Time) (c : Dispatch) : Prop where
  violation : c.violation = v
  kill : ∀ pid, c.killing = some pid → KillAllowed d w v now pid ∧ c.effective = "auto_kill" ∧
    c.downgradedFrom = none
  downgraded : ∀ entry, w.agent.policies.get? (d.serverId, v.policyKey) = some entry →
    entry.severity = "auto_kill" → c.effective ≠ "auto_kill" →
      c.effective = "warn" ∧ c.downgradedFrom = some "auto_kill" ∧ c.killing = none

/-- The result repeats the severity that was applied. -/
structure Reports (c : Dispatch) (r : Result) : Prop where
  violation : r.violation = c.violation
  returned : r.returned = c.effective
  notified : ∀ n ∈ r.notified, n.2 = c.effective
  event : ∀ e ∈ r.event, e.severity = c.effective ∧ e.downgradedFrom = c.downgradedFrom

/-- What each step does about kills; a call that returns without acting applies
neither a severity that was pushed nor a kill. -/
def Safe (d : Dispatcher) (w : World) (a : Action) (w' : World) : Prop :=
  match a with
  | .policySync _ _ _ | .capabilitySync _ => w'.current = w.current ∧ w'.results = w.results
  | .violation v now => (∃ c, w'.current = some c ∧ Gated d w v now c ∧ w'.results = w.results) ∨
      w'.current = none ∧ ∃ returned, (returned = "log_only" ∨ returned = "deferred") ∧
        w'.results = w.results ++ [.idle v returned]
  | .resume _ => w'.current = none ∧
      ∃ c r, w.current = some c ∧ Reports c r ∧ w'.results = w.results ++ [r]

/-- The agent process has just started. -/
def Fresh (w : World) : Prop := w.agent.capabilities.entries = [] ∧ w.mentions = []

/-! ## the gates -/

/-- The switches show what the syncs said. -/
def Synced (w : World) : Prop :=
  ∀ key, w.agent.capabilities.get? key = lastMention w.mentions key

variable {d : Dispatcher} {w w' : World}

/-- A switch shows what the last sync said that named it. -/
theorem get?_capabilities (h : Synced w) (capabilities : List (String × Bool)) (key : String) :
    (capabilities.foldl (fun d e => d.set e.1 e.2) w.agent.capabilities).get? key =
      lastMention (w.mentions ++ capabilities) key := by
  rw [Dict.get?_foldl_set_pairs, h key, lastMention, lastMention, List.filter_append,
    List.getLast?_append]
  cases (capabilities.filter fun e => e.1 = key).getLast? <;> rfl

theorem synced_step {a : Action} (h : Synced w) (hstep : d.step w a = some w') : Synced w' := by
  cases a with
  | policySync serverId policies etag => exact Option.some.inj hstep ▸ h
  | capabilitySync capabilities =>
      obtain rfl := Option.some.inj hstep
      exact get?_capabilities h capabilities
  | violation v now =>
      simp only [Dispatcher.step, Option.ite_none_left_eq_some, Option.some.injEq] at hstep
      obtain ⟨-, rfl⟩ := hstep
      unfold Dispatcher.begin
      split
      · exact h
      · split
        · exact h
        · dsimp only
          split <;> exact h
  | resume answer =>
      obtain ⟨c, -, rfl⟩ := Option.map_eq_some_iff.mp hstep
      exact h

/-- Severity `auto_kill` is applied only where the policy has it, for an allowed key,
with the capability switched on. -/
theorem effectiveSeverity_eq_auto_kill {a : Agent} {policyKey severity : String}
    (h : (effectiveSeverity a policyKey severity).1 = "auto_kill") :
    severity = "auto_kill" ∧ policyKey ∈ autoKillAllowedKeys ∧
      a.capabilities.get? killCapability = some true ∧
      (effectiveSeverity a policyKey severity).2 = none := by
  unfold effectiveSeverity at h ⊢
  by_cases hscope : severity = "auto_kill" ∧ policyKey ∉ autoKillAllowedKeys
  · simp [hscope] at h
  · simp only [if_neg hscope] at h ⊢
    split at h
    · exact absurd h (by decide)
    · next hcapability =>
        have hseverity : severity = "auto_kill" := h
        have hkey : policyKey ∈ autoKillAllowedKeys := by
          by_contra hnot
          exact hscope ⟨hseverity, hnot⟩
        have hon : a.isEnabled killCapability false = true := by
          by_contra hoff
          exact hcapability ⟨hseverity, by simpa using hoff⟩
        refine ⟨hseverity, hkey, ?_, by rw [if_neg hcapability]⟩
        unfold Agent.isEnabled at hon
        cases hget : a.capabilities.get? killCapability with
        | none => rw [hget] at hon; cases hon
        | some b => rw [hget, Option.getD_some] at hon; rw [hon]

/-- A policy that says `auto_kill` and is not applied is downgraded to a warning. -/
theorem effectiveSeverity_downgraded {a : Agent} {policyKey : String}
    (h : (effectiveSeverity a policyKey "auto_kill").1 ≠ "auto_kill") :
    effectiveSeverity a policyKey "auto_kill" = ("warn", some "auto_kill") := by
  unfold effectiveSeverity at h ⊢
  by_cases hscope : policyKey ∉ autoKillAllowedKeys
  · simp [hscope]
  · simp only [hscope, and_false, if_false] at h ⊢
    split
    · rfl
    · next hcapability => rw [if_neg hcapability] at h; exact absurd rfl h

/-- A violation is dispatched through the gates. -/
theorem safe_violation (h : Synced w) (hnone : w.current = none) (v : Violation) (now : Time) :
    Safe d w (.violation v now) (d.begin w v now) := by
  unfold Safe Dispatcher.begin
  dsimp only
  split
  · exact Or.inr ⟨hnone, "log_only", Or.inl rfl, rfl⟩
  · next entry hentry =>
      split
      · exact Or.inr ⟨hnone, "log_only", Or.inl rfl, rfl⟩
      · next henabled =>
          split
          · exact Or.inr ⟨hnone, "deferred", Or.inr rfl, rfl⟩
          · next hrecorded =>
              refine Or.inl ⟨_, rfl, ⟨rfl, ?_, ?_⟩, rfl⟩
              · intro pid hpid
                simp only at hpid
                split at hpid
                · next hkill =>
                    obtain ⟨hseverity, hkey, hswitch, hfrom⟩ := effectiveSeverity_eq_auto_kill hkill.1
                    have hcapability := (h killCapability).symm.trans hswitch
                    have hgrace : (record w.pending v.graceKey entry.gracePeriodSeconds now).2 = true := by
                      simpa using hrecorded
                    exact ⟨⟨⟨entry, hentry, by simpa using henabled, hseverity, hgrace⟩, hkey,
                      hcapability, hpid⟩, hkill.1, hfrom⟩
                · cases hpid
              · intro other hother hseverity heffective
                obtain rfl := Option.some.inj (hentry.symm.trans hother)
                rw [hseverity] at heffective ⊢
                rw [effectiveSeverity_downgraded heffective]
                exact ⟨rfl, rfl, rfl⟩

theorem reports_finish (c : Dispatch) (answer : Bool) : Reports c (d.finish c answer) := by
  refine ⟨rfl, rfl, fun n hn => ?_, fun e he => ?_⟩
  · simp only [Dispatcher.finish, Option.mem_def] at hn
    split at hn
    · unfold notification at hn
      split at hn
      · obtain rfl := Option.some.inj hn
        rfl
      · split at hn
        · obtain rfl := Option.some.inj hn
          rfl
        · cases hn
    · cases hn
  · simp only [Dispatcher.finish, Option.mem_def] at he
    split at he
    · obtain rfl := Option.some.inj he
      exact ⟨rfl, rfl⟩
    · cases he

theorem safe_step {a : Action} (h : Synced w) (hstep : d.step w a = some w') : Safe d w a w' := by
  cases a with
  | policySync serverId policies etag => exact Option.some.inj hstep ▸ ⟨rfl, rfl⟩
  | capabilitySync capabilities => exact Option.some.inj hstep ▸ ⟨rfl, rfl⟩
  | violation v now =>
      simp only [Dispatcher.step, Option.ite_none_left_eq_some, Option.some.injEq] at hstep
      obtain ⟨hnone, rfl⟩ := hstep
      exact safe_violation h (by simpa using hnone) v now
  | resume answer =>
      obtain ⟨c, hc, rfl⟩ := Option.map_eq_some_iff.mp hstep
      exact ⟨rfl, c, _, hc, reports_finish c answer, rfl⟩

/-- **Auto-kill is safe** in every run of syncs and ticks. -/
theorem gated_run {w : World} (d : Dispatcher) (hw : Fresh w) (as : List Action) :
    Along d.step (Safe d) w as := by
  have hinit : Synced w := by
    intro key
    have hnone : w.agent.capabilities.get? key = none := by
      rw [Dict.get?_eq_none_iff, hw.1]
      exact fun _ he => absurd he List.not_mem_nil
    rw [hnone, lastMention, hw.2]
    rfl
  exact along_of_invariant (fun _ _ _ hs _ ht => ⟨synced_step hs ht, safe_step hs ht⟩) hinit
    (meets_true w as)

/-- A mock agent that no sync has reached. -/
def freshWorld : World :=
  { agent := (freshPump []).agent, pending := .empty, current := none, results := [], mentions := [] }

/-- The dispatcher of server 1, with the callbacks of the agent's main program. -/
def mainDispatcher : Dispatcher :=
  { serverId := 1, hasNotify := false, hasKill := true, hasViolationEvent := true }

/-- A process occupies a GPU that somebody else has booked. -/
def preemption : Violation :=
  { policyKey := "preempt_others_reservation", serverId := 1, gpuIdLocal := 0
    linuxUsername := some "bob", pid := some 4242, linkedUserIds := [42], payload := .empty }

/-- The policy kills after ten seconds. -/
def killAfterTen : PolicyEntry :=
  { key := "preempt_others_reservation", enabled := true, severity := "auto_kill"
    thresholdValue := none, gracePeriodSeconds := some 10, notifyAdmin := true }

/-- The violation is warned about, then killed once the capability is switched on. -/
def switchedOn : List Action :=
  [.policySync 1 [killAfterTen] "a", .violation preemption 0, .violation preemption (11 * secondMicros),
   .resume true, .capabilitySync [("gpu.kill_process", true)],
   .violation preemption (12 * secondMicros), .capabilitySync [("gpu.kill_process", false)],
   .resume true]

theorem gated_run_switchedOn :
    ((exec mainDispatcher.step freshWorld switchedOn).map fun w => w.results.map fun r =>
        (r.returned, r.event.map fun e => (e.severity, e.actionTaken, e.downgradedFrom))) =
      some [("deferred", none), ("warn", some ("warn", "warn", some "auto_kill")),
        ("auto_kill", some ("auto_kill", "kill", none))] ∧
    Along mainDispatcher.step (Safe mainDispatcher) freshWorld switchedOn :=
  ⟨by decide +kernel, gated_run mainDispatcher ⟨rfl, rfl⟩ switchedOn⟩

end PolicyDispatch

end CoreLab
