import CoreLab.AgentRpc
import CoreLab.PolicyDispatch

/-!
# CoreLab.ProcessKiller

`kill_pid` on a host whose processes come and go: whom its signals reach, when the pid of a
request may be another user's by the time it is used.

* `killPid_fst` — the signals are those of `AgentHost.killPid`;
* `hitsOnly_iff` — a kill spares all other users exactly when the pid is not theirs at any
  moment at which a signal is sent.
-/

namespace CoreLab

open AgentHost Loops

namespace ProcessKiller

/-! ## the host -/

/-- The owners of the processes, by pid. -/
abbrev ProcessTable := Dict Int String

/-- What the agent may do to processes; `refusal` is what `sudo -n` answers where the sudoers
do not let the agent run `kill`. -/
structure Os where
  host : Host
  permitted : String → Bool
  refusal : Option CommandResult
  refused : ∀ r ∈ refusal, r.returncode ≠ 0

/-- The processes at the calls of `kill_pid`: they may all have changed from one to the next. -/
structure Moments where
  term : ProcessTable
  termSudo : ProcessTable
  probe : ProcessTable
  kill : ProcessTable
  killSudo : ProcessTable

/-- `os.kill`. -/
def osKill (os : Os) (table : ProcessTable) (pid : Int) : Except Fault Unit :=
  match table.get? pid with
  | none => .error (.os .processLookup "[Errno 3] No such process")
  | some owner =>
    if os.permitted owner then .ok ()
    else .error (.os .permission "[Errno 1] Operation not permitted")

/-- `sudo -n kill`, which reaches the processes of every user. -/
def sudoKill (os : Os) (table : ProcessTable) (pid : Int) : CommandResult :=
  match os.refusal with
  | some r => r
  | none =>
    match table.get? pid with
    | none => { returncode := 1, stderr := "kill: No such process" }
    | some _ => { returncode := 0 }

/-- The agent may run `kill` as root. -/
def Os.sudoWorks (os : Os) : Bool :=
  (os.host.which "sudo").isSome && os.host.killBin.isSome && os.refusal.isNone

/-- The owner of the process that a signal reaches, through `os.kill` or later through `sudo`. -/
def reached (os : Os) (direct viaSudo : ProcessTable) (pid : Int) : Option String :=
  match direct.get? pid with
  | none => none
  | some owner =>
    if os.permitted owner then some owner else if os.sudoWorks then viaSudo.get? pid else none

/-- The host at the call of `sudo`. -/
def Os.at (os : Os) (table : ProcessTable) (pid : Int) : Host :=
  { os.host with run := fun _ => .ok (sudoKill os table pid) }

/-! ## the kill -/

/-- `_send_signal`, with the owner of the process that it reached. -/
def sendSignal (os : Os) (direct viaSudo : ProcessTable) (pid : Int) (flag : String) :
    Except Exc (SignalAttempt × List String) :=
  (AgentHost.sendSignal (os.at viaSudo pid) pid flag (osKill os direct pid)).map fun attempt =>
    (attempt, (reached os direct viaSudo pid).toList)

/-- The result where a signal was refused. -/
def deniedResult (text : String) (pid : Int) (attempt : SignalAttempt) : KillResult :=
  { ok := false, error := some (text ++ toString pid ++ ": " ++ attempt.error.getD "None") }

/-- `kill_pid`, with the owners of the processes that its signals reached. -/
def killPid (a : Agent) (os : Os) (m : Moments) (pid : Int) :
    Except Exc (KillResult × List String) := do
  if !a.isEnabled "gpu.kill_process" false then
    .ok ({ ok := false, error := some "gpu.kill_process capability is disabled" }, [])
  else if a.mockMode then
    .ok ({ ok := true, killed := true
           mockWarning := some "MOCK-MAC-NO-KILL: no process was signalled" }, [])
  else
    let (term, hits) ← sendSignal os m.term m.termSudo pid "-TERM"
    if term.missing then
      .ok ({ ok := true, killed := false, error := some "process not found (already exited)" }, hits)
    else if !term.ok then
      .ok (deniedResult "permission denied signalling pid " pid term, hits)
    else if ← alive { os.host with probe := osKill os m.probe pid } then
      let (kill, more) ← sendSignal os m.kill m.killSudo pid "-KILL"
      if !kill.ok && !kill.missing then
        .ok (deniedResult "SIGKILL permission denied for pid " pid kill, hits ++ more)
      else .ok ({ ok := true, killed := true }, hits ++ more)
    else .ok ({ ok := true, killed := true }, hits)

/-- The host as `AgentHost.killPid` meets it. -/
def Os.during (os : Os) (m : Moments) (pid : Int) : Host :=
  { os.host with
    sigterm := osKill os m.term pid
    probe := osKill os m.probe pid
    sigkill := osKill os m.kill pid
    run := fun command =>
      .ok (sudoKill os (if command[3]? = some "-KILL" then m.killSudo else m.termSudo) pid) }

/-! ## one signal -/

section Signal

variable {a : Agent} {os : Os} {m : Moments} {pid : Int}

theorem osKill_of_none {table : ProcessTable} (h : table.get? pid = none) :
    osKill os table pid = .error (.os .processLookup "[Errno 3] No such process") := by
  rw [osKill, h]

theorem osKill_of_some {table : ProcessTable} {owner : String} (h : table.get? pid = some owner) :
    osKill os table pid = if os.permitted owner then .ok () else
      .error (.os .permission "[Errno 1] Operation not permitted") := by
  rw [osKill, h]

/-- The answer of `sudo` is read by its exit code. -/
theorem sudoSignal_of_run (h : Host) (flag : String) {sudoBin killBin : String} {r : CommandResult}
    (hsudo : h.which "sudo" = some sudoBin) (hkill : h.killBin = some killBin)
    (hrun : h.run [sudoBin, "-n", killBin, flag, toString pid] = .ok r) :
    ∃ attempt, sudoSignal h pid flag = .ok attempt ∧
      ((attempt.ok = true ∧ attempt.missing = false) ↔ r.returncode = 0) := by
  let error := orElse (stripped (orElse r.stderr r.stdout))
    ("sudo kill exited " ++ toString r.returncode)
  have hvalue : sudoSignal h pid flag = if r.returncode = 0 then .ok { ok := true }
      else if looksMissing error then .ok { ok := true, missing := true, error := some error }
      else .ok { ok := false, error := some error } := by
    rw [sudoSignal, hsudo, hkill]
    dsimp only
    rw [hrun]
    rfl
  rw [hvalue]
  split
  · next hzero => exact ⟨_, rfl, by simp [hzero]⟩
  · next hzero =>
      split
      · exact ⟨_, rfl, by simp [hzero]⟩
      · exact ⟨_, rfl, by simp [hzero]⟩

theorem returncode_sudoKill (os : Os) (table : ProcessTable) (pid : Int) :
    (sudoKill os table pid).returncode = 0 ↔
      os.refusal.isNone = true ∧ (table.get? pid).isSome = true := by
  unfold sudoKill
  cases hrefusal : os.refusal with
  | some r => simp [os.refused r hrefusal]
  | none => cases table.get? pid <;> simp

/-- `sudo` answers, and it says that it signalled when there was a process that it may signal. -/
theorem sudoSignal_at (os : Os) (table : ProcessTable) (pid : Int) (flag : String) :
    ∃ attempt, sudoSignal (os.at table pid) pid flag = .ok attempt ∧
      ((attempt.ok = true ∧ attempt.missing = false) ↔
        os.sudoWorks = true ∧ (table.get? pid).isSome = true) := by
  cases hsudo : os.host.which "sudo" with
  | none =>
      refine ⟨{ ok := false, error := some "sudo not found" }, ?_, by simp [Os.sudoWorks, hsudo]⟩
      simp [sudoSignal, Os.at, hsudo]
  | some sudoBin =>
      cases hkill : os.host.killBin with
      | none =>
          refine ⟨{ ok := false, error := some "kill binary not found" }, ?_,
            by simp [Os.sudoWorks, hkill]⟩
          simp [sudoSignal, Os.at, hsudo, hkill]
      | some killBin =>
          obtain ⟨attempt, hattempt, hiff⟩ :=
            sudoSignal_of_run (os.at table pid) flag hsudo hkill rfl
          refine ⟨attempt, hattempt, hiff.trans ?_⟩
          rw [returncode_sudoKill]
          simp [Os.sudoWorks, hsudo, hkill]

/-- A signal is reported as sent when it has reached a process. -/
theorem sendSignal_eq (os : Os) (direct viaSudo : ProcessTable) (pid : Int) (flag : String) :
    ∃ attempt, sendSignal os direct viaSudo pid flag =
        .ok (attempt, (reached os direct viaSudo pid).toList) ∧
      ((attempt.ok = true ∧ attempt.missing = false) ↔
        (reached os direct viaSudo pid).isSome = true) := by
  unfold sendSignal
  cases hget : direct.get? pid with
  | none =>
      refine ⟨{ ok := true, missing := true }, ?_, by simp [reached, hget]⟩
      rw [osKill_of_none hget]
      rfl
  | some owner =>
      rw [osKill_of_some hget]
      cases hmay : os.permitted owner with
      | true => exact ⟨{ ok := true }, rfl, by simp [reached, hget, hmay]⟩
      | false =>
          obtain ⟨attempt, hattempt, hiff⟩ := sudoSignal_at os viaSudo pid flag
          have hreached : (reached os direct viaSudo pid).isSome = true ↔
              os.sudoWorks = true ∧ (viaSudo.get? pid).isSome = true := by
            cases hworks : os.sudoWorks <;> simp [reached, hget, hmay, hworks]
          let failed : SignalAttempt :=
            { ok := false
              error := some ("permission denied; sudo fallback failed: " ++
                orElse (attempt.error.getD "") "[Errno 1] Operation not permitted") }
          have hvalue : AgentHost.sendSignal (os.at viaSudo pid) pid flag
              (.error (.os .permission "[Errno 1] Operation not permitted")) =
                if attempt.ok then .ok attempt else .ok failed := by
            rw [AgentHost.sendSignal, hattempt]
            rfl
          rw [if_neg Bool.false_ne_true, hvalue, hreached, ← hiff]
          cases hok : attempt.ok with
          | true => exact ⟨attempt, rfl, by simp [hok]⟩
          | false => exact ⟨failed, rfl, by simp [failed]⟩

/-- A process that cannot be signalled is alive too. -/
theorem alive_probe (os : Os) (h : Host) (table : ProcessTable) (pid : Int) :
    alive { h with probe := osKill os table pid } = .ok (table.get? pid).isSome := by
  cases hget : table.get? pid with
  | none => simp [alive, osKill, hget]
  | some owner => cases hmay : os.permitted owner <;> simp [alive, osKill, hget, hmay]

end Signal

/-! ## the whole kill -/

section Kill

variable {a : Agent} {os : Os} {m : Moments} {pid : Int}

/-- Whom the signals of an enabled agent reach: `SIGKILL` follows if the pid is still there. -/
def hits (os : Os) (m : Moments) (pid : Int) : List String :=
  match reached os m.term m.termSudo pid with
  | none => []
  | some owner => owner ::
      if (m.probe.get? pid).isSome then (reached os m.kill m.killSudo pid).toList else []

theorem killPid_disabled (hoff : a.isEnabled "gpu.kill_process" false = false) :
    killPid a os m pid =
      .ok ({ ok := false, error := some "gpu.kill_process capability is disabled" }, []) := by
  simp [killPid, hoff]

theorem killPid_mock (hon : a.isEnabled "gpu.kill_process" false = true)
    (hmock : a.mockMode = true) :
    killPid a os m pid = .ok
      ({ ok := true, killed := true
         mockWarning := some "MOCK-MAC-NO-KILL: no process was signalled" }, []) := by
  simp [killPid, hon, hmock]

/-- A kill is reported only if the first signal has reached a process. -/
theorem killPid_linux (hon : a.isEnabled "gpu.kill_process" false = true)
    (hlinux : a.mockMode = false) :
    ∃ r, killPid a os m pid = .ok (r, hits os m pid) ∧ (r.killed = true → hits os m pid ≠ []) := by
  obtain ⟨term, hterm, hsent⟩ := sendSignal_eq os m.term m.termSudo pid "-TERM"
  obtain ⟨kill, hkill, -⟩ := sendSignal_eq os m.kill m.killSudo pid "-KILL"
  have halive := alive_probe os os.host m.probe pid
  unfold killPid hits
  simp only [hon, hlinux, Bool.not_true, Bool.false_eq_true, if_false]
  cases hreached : reached os m.term m.termSudo pid with
  | none =>
      -- the first signal has failed, or found no process
      rw [hreached] at hterm hsent
      cases hmissing : term.missing with
      | true =>
          refine ⟨{ ok := true, killed := false, error := some "process not found (already exited)" },
            bind_eq_ok_iff.mpr ⟨_, hterm, ?_⟩, by simp⟩
          simp [hmissing]
      | false =>
          have hok : term.ok = false := by simpa [hmissing] using hsent
          refine ⟨deniedResult "permission denied signalling pid " pid term,
            bind_eq_ok_iff.mpr ⟨_, hterm, ?_⟩, by simp [deniedResult]⟩
          simp [hmissing, hok]
  | some owner =>
      rw [hreached] at hterm hsent
      obtain ⟨hok, hmissing⟩ := hsent.mpr rfl
      cases hprobe : (m.probe.get? pid).isSome with
      | false =>
          rw [hprobe] at halive
          refine ⟨{ ok := true, killed := true }, bind_eq_ok_iff.mpr ⟨_, hterm, ?_⟩, by simp⟩
          simp only [hmissing, hok, Bool.not_true, Bool.false_eq_true, if_false]
          exact bind_eq_ok_iff.mpr ⟨_, halive, rfl⟩
      | true =>
          rw [hprobe] at halive
          let last : KillResult := if !kill.ok && !kill.missing then
            deniedResult "SIGKILL permission denied for pid " pid kill
            else { ok := true, killed := true }
          refine ⟨last, bind_eq_ok_iff.mpr ⟨_, hterm, ?_⟩, by simp⟩
          simp only [hmissing, hok, Bool.not_true, Bool.false_eq_true, if_false]
          refine bind_eq_ok_iff.mpr ⟨_, halive, ?_⟩
          simp only [if_true]
          refine bind_eq_ok_iff.mpr ⟨_, hkill, ?_⟩
          dsimp only [last]
          split <;> rfl

theorem sudoSignal_during (os : Os) (m : Moments) (pid : Int) (flag : String) :
    sudoSignal (os.during m pid) pid flag =
      sudoSignal (os.at (if flag = "-KILL" then m.killSudo else m.termSudo) pid) pid flag := by
  unfold sudoSignal
  cases hsudo : os.host.which "sudo" with
  | none => simp [Os.during, Os.at, hsudo]
  | some sudoBin =>
      cases hkill : os.host.killBin with
      | none => simp [Os.during, Os.at, hsudo, hkill]
      | some killBin => simp [Os.during, Os.at, hsudo, hkill]

theorem sendSignal_during (os : Os) (m : Moments) (pid : Int) (flag : String)
    (answer : Except Fault Unit) :
    AgentHost.sendSignal (os.during m pid) pid flag answer =
      AgentHost.sendSignal (os.at (if flag = "-KILL" then m.killSudo else m.termSudo) pid) pid flag
        answer := by
  unfold AgentHost.sendSignal
  split
  · rfl
  · rfl
  · rw [sudoSignal_during]
  · rfl

/-- The signals are those of the agent's `kill_pid`, on a host that answers as the processes of
each moment let it. -/
theorem killPid_fst (a : Agent) (os : Os) (m : Moments) (pid : Int) :
    (killPid a os m pid).map Prod.fst = AgentHost.killPid a (os.during m pid) pid := by
  have hterm : AgentHost.sendSignal (os.during m pid) pid "-TERM" (os.during m pid).sigterm =
      AgentHost.sendSignal (os.at m.termSudo pid) pid "-TERM" (osKill os m.term pid) :=
    sendSignal_during os m pid "-TERM" _
  have hkill : AgentHost.sendSignal (os.during m pid) pid "-KILL" (os.during m pid).sigkill =
      AgentHost.sendSignal (os.at m.killSudo pid) pid "-KILL" (osKill os m.kill pid) :=
    sendSignal_during os m pid "-KILL" _
  have halive : alive (os.during m pid) = alive { os.host with probe := osKill os m.probe pid } := rfl
  unfold killPid AgentHost.killPid sendSignal
  rw [hterm, hkill, halive]
  cases a.isEnabled "gpu.kill_process" false with
  | false => rfl
  | true =>
      cases a.mockMode with
      | true => rfl
      | false =>
          cases AgentHost.sendSignal (os.at m.termSudo pid) pid "-TERM" (osKill os m.term pid) with
          | error e => rfl
          | ok term =>
              obtain ⟨ok, missing, error⟩ := term
              cases missing with
              | true => rfl
              | false =>
                  cases ok with
                  | false => rfl
                  | true =>
                      rw [alive_probe]
                      cases (m.probe.get? pid).isSome with
                      | false => rfl
                      | true =>
                          cases AgentHost.sendSignal (os.at m.killSudo pid) pid "-KILL"
                            (osKill os m.kill pid) with
                          | error e => rfl
                          | ok kill =>
                              obtain ⟨ok', missing', error'⟩ := kill
                              cases ok' <;> cases missing' <;> rfl

end Kill

/-! ## requests and policies -/

/-- What an alert says of a process. -/
structure AlertPayload where
  linuxPid : Option Int
  linuxUsername : Option String

/-- `GpuKillProcessRequest`; its reason is only logged. -/
structure GpuKillProcessRequest where
  pid : Int
  linuxUsername : Option String

/-- The request of a manual kill; an alert without a pid is refused. -/
def killRequest (payload : AlertPayload) : Option GpuKillProcessRequest :=
  payload.linuxPid.map fun pid => { pid := pid, linuxUsername := payload.linuxUsername }

/-- What a kill reports, and the owners of the processes that it signalled. -/
structure Outcome where
  killed : Bool
  hits : List String
deriving DecidableEq, Repr

/-- The handler of a request, which does not look at the user. -/
def onKillRequest (a : Agent) (os : Os) (m : Moments) (req : GpuKillProcessRequest) :
    Except Exc Outcome :=
  (killPid a os m req.pid).map fun r => { killed := r.1.killed, hits := r.2 }

/-- `kill_process_for_policy`, of a violation's pid. -/
def killProcessForPolicy (a : Agent) (os : Os) (m : Moments) (pid : Int) : Except Exc Outcome :=
  (killPid a os m pid).map fun r => { killed := r.1.ok && r.1.killed, hits := r.2 }

/-- A kill in the name of a user signals no one else's process, and where it signals none it
reports a kill only of a process of the user. -/
def HitsOnly (m : Moments) (pid : Int) (username : Option String) (o : Outcome) : Prop :=
  ∀ u ∈ username, (∀ owner ∈ o.hits, owner = u) ∧
    (o.killed = true → o.hits = [] → m.term.get? pid = some u)

/-- Whenever a signal reaches a process, that is the user's. -/
structure OwnedBy (os : Os) (m : Moments) (pid : Int) (u : String) : Prop where
  term : ∀ owner ∈ reached os m.term m.termSudo pid, owner = u
  kill : (reached os m.term m.termSudo pid).isSome → (m.probe.get? pid).isSome →
    ∀ owner ∈ reached os m.kill m.killSudo pid, owner = u

/-- The pid is the user's when it matters; to an agent without the capability it never does. -/
def Owned (a : Agent) (os : Os) (m : Moments) (pid : Int) (username : Option String) : Prop :=
  ∀ u ∈ username, a.isEnabled "gpu.kill_process" false = true →
    (a.mockMode = true → m.term.get? pid = some u) ∧ (a.mockMode = false → OwnedBy os m pid u)

section Requests

variable {a : Agent} {os : Os} {m : Moments} {pid : Int}

theorem hits_owned_iff {u : String} :
    (∀ owner ∈ hits os m pid, owner = u) ↔ OwnedBy os m pid u := by
  cases hterm : reached os m.term m.termSudo pid with
  | none =>
      refine ⟨fun _ => ⟨by simp [hterm], by simp [hterm]⟩, fun _ => by simp [hits, hterm]⟩
  | some owner =>
      cases hprobe : (m.probe.get? pid).isSome with
      | false =>
          refine ⟨fun h => ⟨by simpa [hits, hterm, hprobe] using h, by simp [hprobe]⟩, fun h => ?_⟩
          simpa [hits, hterm, hprobe] using h.term
      | true =>
          simp only [hits, hterm, hprobe, if_true, List.forall_mem_cons, Option.mem_toList]
          refine ⟨fun h => ⟨by simpa [hterm] using h.1, fun _ _ => h.2⟩, fun h => ⟨?_, ?_⟩⟩
          · exact h.term owner hterm
          · exact h.kill (by rw [hterm]; rfl) hprobe

/-- Both callers report no kill that `kill_pid` does not report. -/
theorem exists_hitsOnly_iff (report : KillResult → Bool)
    (hkilled : ∀ r, report r = true → r.killed = true)
    (hreport : ∀ r, r.ok = true → r.killed = true → report r = true) (username : Option String) :
    (∃ o, (killPid a os m pid).map (fun r => { killed := report r.1, hits := r.2 : Outcome }) =
      .ok o ∧ HitsOnly m pid username o) ↔ Owned a os m pid username := by
  cases hon : a.isEnabled "gpu.kill_process" false with
  | false =>
      refine ⟨fun _ u _ hon' => ?_, fun _ => ?_⟩
      · rw [hon] at hon'
        cases hon'
      · rw [killPid_disabled hon]
        refine ⟨_, rfl, fun u _ => ⟨by simp, fun hk _ => ?_⟩⟩
        cases hkilled _ hk
  | true =>
      cases hmode : a.mockMode with
      | true =>
          rw [killPid_mock hon hmode]
          constructor
          · rintro ⟨o, ho, h⟩ u hu -
            obtain rfl := Except.ok.inj ho
            exact ⟨fun _ => (h u hu).2 (hreport _ rfl rfl) rfl, fun hreal => by simp [hmode] at hreal⟩
          · intro h
            exact ⟨_, rfl, fun u hu => ⟨by simp, fun _ _ => (h u hu hon).1 hmode⟩⟩
      | false =>
          obtain ⟨r, hr, hsignalled⟩ : ∃ r, killPid a os m pid = .ok (r, hits os m pid) ∧
              (r.killed = true → hits os m pid ≠ []) := killPid_linux hon hmode
          rw [hr]
          constructor
          · rintro ⟨o, ho, h⟩ u hu -
            obtain rfl := Except.ok.inj ho
            exact ⟨fun hmock => by simp [hmode] at hmock, fun _ => hits_owned_iff.mp (h u hu).1⟩
          · intro h
            refine ⟨_, rfl, fun u hu => ⟨?_, fun hk hnone => ?_⟩⟩
            · exact hits_owned_iff.mpr ((h u hu hon).2 hmode)
            · exact absurd hnone (hsignalled (hkilled r hk))

/-- **A kill spares other users** exactly when the pid is its user's at each moment at which a
signal is sent: neither the request's username nor the violation's is looked at. -/
theorem hitsOnly_iff (a : Agent) (os : Os) (m : Moments) (pid : Int) (username : Option String) :
    ((∃ o, onKillRequest a os m { pid := pid, linuxUsername := username } = .ok o ∧
        HitsOnly m pid username o) ↔ Owned a os m pid username) ∧
      ((∃ o, killProcessForPolicy a os m pid = .ok o ∧ HitsOnly m pid username o) ↔
        Owned a os m pid username) :=
  ⟨exists_hitsOnly_iff (·.killed) (fun _ h => h) (fun _ _ h => h) username,
    exists_hitsOnly_iff (fun r => r.ok && r.killed) (fun r h => by simp_all) (fun r _ _ => by simp_all)
      username⟩

end Requests

/-- A Linux agent that may signal its own processes, and others' through `sudo`. -/
def linuxAgent : Agent :=
  { (AgentRpc.freshPump [("gpu.kill_process", true)]).agent with mockMode := false }

def sudoerOs : Os where
  host := { AgentRpc.quietHost with
    which := fun _ => some "/usr/bin/sudo", killBin := some "/bin/kill" }
  permitted owner := owner = "corelab-agent"
  refusal := none
  refused _ h := by cases h

/-- The pid has become a process of bob. -/
def reused : ProcessTable := Dict.empty.set 4242 "bob"

/-- The alert was about a process of alice, which is gone; bob's has its pid and is killed. -/
theorem not_hitsOnly : ¬ ∀ (a : Agent) (os : Os) (m : Moments) (payload : AlertPayload)
    (req : GpuKillProcessRequest), killRequest payload = some req →
      ∃ o, onKillRequest a os m req = .ok o ∧ HitsOnly m req.pid payload.linuxUsername o := by
  intro h
  obtain ⟨o, ho, honly⟩ := h linuxAgent sudoerOs ⟨reused, reused, reused, reused, reused⟩
    { linuxPid := some 4242, linuxUsername := some "alice" } _ rfl
  obtain rfl : { killed := true, hits := ["bob", "bob"] } = o := Except.ok.inj ho
  have halice := (honly "alice" rfl).1 "bob" List.mem_cons_self
  exact absurd halice (by decide)

end ProcessKiller

end CoreLab
