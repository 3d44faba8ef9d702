import CoreLab.LockWatch
import CoreLab.Lib.Transition

/-!
# CoreLab.SshLock

The two endpoints on which a user spends an SSH challenge, and the failure lock that they
share: `verify` asks it and reports to it on some of its exits, the upgrade of a declared
link does neither.  What the challenge store, the database and the agent have to say to a
request is any.

* `heldOff_run` — the runs in which three failures keep the user from the agent.
-/

namespace CoreLab

open Transition

namespace RateLimit

namespace SshLock

/-! ## one request -/

/-- What `load_link_in_lab` and the checks after it come to. -/
inductive LinkCheck where
  | upgradable | notFound | notOwner | notDeclared
deriving DecidableEq, Repr

/-- What `ssh_challenge.consume` comes to; `sameAccount` compares the context's account
with that of the link. -/
inductive Consumed where
  | context (sameAccount : Bool)
  | expiredOrUsed
  | actorMismatch
  | redisUnavailable
deriving DecidableEq, Repr

/-- What `agent_rpc.request_response` comes to. -/
inductive AgentAnswer where
  | notWired
  | offline
  | timeout
  | unexpectedType
  | result (ok : Bool)
deriving DecidableEq, Repr

/-- What a request meets. -/
structure Surroundings where
  link : LinkCheck
  consumed : Consumed
  accountExists : Bool
  agent : AgentAnswer
  /-- The link can be established, or the declared one replaced. -/
  linkable : Bool
deriving DecidableEq, Repr

/-- How a request ends. -/
inductive Exit where
  /-- 429 -/
  | locked
  /-- 404, 403 and 409 of the upgrade -/
  | noSuchLink | notOwner | notDeclared
  /-- 410, 403 and 503 -/
  | challengeExpiredOrUsed | actorMismatch | redisUnavailable
  /-- 400 and 404 -/
  | challengePaMismatch | accountGone
  /-- 503, 503, 504 and 500 -/
  | rpcNotImplemented | agentOffline | agentTimeout | unexpectedResponse
  /-- 401 -/
  | signatureVerificationFailed
  /-- 409 -/
  | linkConflict
  | verified
deriving DecidableEq, Repr

/-- The agent was asked to verify. -/
def Exit.asked : Exit → Bool
  | agentTimeout | unexpectedResponse | signatureVerificationFailed | linkConflict | verified => true
  | _ => false

/-- The verification failed: the challenge was refused, or no good signature came of asking. -/
def Exit.failed : Exit → Bool
  | challengeExpiredOrUsed | actorMismatch | agentTimeout | unexpectedResponse
  | signatureVerificationFailed => true
  | _ => false

/-- Both endpoints from the physical account on. -/
def askAgent (o : Surroundings) : Exit :=
  if o.accountExists then
    match o.agent with
    | .notWired => .rpcNotImplemented
    | .offline => .agentOffline
    | .timeout => .agentTimeout
    | .unexpectedType => .unexpectedResponse
    | .result false => .signatureVerificationFailed
    | .result true => if o.linkable then .verified else .linkConflict
  else .accountGone

/-- `verify_challenge`. -/
def verifyChallenge (s : Store) (userId : Nat) (o : Surroundings) (nowMs : Nat) : Store × Exit :=
  let (s, locked) := sshChallengeLockManager.isLocked s (toString userId) nowMs
  if locked then (s, .locked)
  else
    match o.consumed with
    | .expiredOrUsed =>
      ((sshChallengeLockManager.recordFailure s (toString userId) nowMs).1, .challengeExpiredOrUsed)
    | .actorMismatch =>
      ((sshChallengeLockManager.recordFailure s (toString userId) nowMs).1, .actorMismatch)
    | .redisUnavailable => (s, .redisUnavailable)
    | .context _ => (s, askAgent o)

/-- `upgrade_via_challenge`. -/
def upgradeViaChallenge (o : Surroundings) : Exit :=
  match o.link with
  | .notFound => .noSuchLink
  | .notOwner => .notOwner
  | .notDeclared => .notDeclared
  | .upgradable =>
    match o.consumed with
    | .expiredOrUsed => .challengeExpiredOrUsed
    | .actorMismatch => .actorMismatch
    | .redisUnavailable => .redisUnavailable
    | .context false => .challengePaMismatch
    | .context true => askAgent o

/-! ## runs -/

inductive Endpoint where
  | verify | upgrade
deriving DecidableEq, Repr

/-- A request of the user. -/
structure Request where
  nowMs : Nat
  endpoint : Endpoint
  surroundings : Surroundings
deriving DecidableEq, Repr

/-- A request that has been answered. -/
structure Entry where
  nowMs : Nat
  exit : Exit
deriving DecidableEq, Repr

structure World where
  store : Store
  nowMs : Nat
  log : List Entry

/-- A new backend; with a Redis that keeps a key in the millisecond of its expiry or not, or
without one. -/
def World.start (backend : Option Bool) : World := ⟨.start backend, 0, []⟩

/-- The answer to a request; time does not run backwards. -/
def step (userId : Nat) (w : World) (q : Request) : Option World :=
  if w.nowMs ≤ q.nowMs then
    match q.endpoint with
    | .verify =>
      let (store, exit) := verifyChallenge w.store userId q.surroundings q.nowMs
      some ⟨store, q.nowMs, w.log ++ [⟨q.nowMs, exit⟩]⟩
    | .upgrade =>
      some ⟨w.store, q.nowMs, w.log ++ [⟨q.nowMs, upgradeViaChallenge q.surroundings⟩]⟩
  else none

/-! ## what is promised -/

/-- What an answer is to the lock. -/
def Entry.event (e : Entry) : Event :=
  ⟨e.nowMs, if e.exit.failed then .failure else if e.exit = .verified then .success else .other⟩

/-- Within the lock time after three failures in five minutes the agent is not asked. -/
def HeldOff (log : List Entry) : Prop :=
  ∀ before e after, log = before ++ e :: after →
    InForce sshChallengeLockManager (before.map Entry.event) e.nowMs → e.exit.asked = false

/-- The challenge is refused. -/
def Consumed.refused : Consumed → Bool
  | expiredOrUsed | actorMismatch => true
  | _ => false

/-- A request that gets as far as the agent gets an answer. -/
def Surroundings.reaches (o : Surroundings) : Bool :=
  o.accountExists && decide (o.agent ≠ .notWired) && decide (o.agent ≠ .offline)

/-- The agent is asked without a good signature coming of it. -/
def Surroundings.unsigned (o : Surroundings) : Bool :=
  o.reaches && decide (o.agent ≠ .result true)

/-- The condition on a request: a `verify` that is not locked out and reaches the agent has a
good signature; an upgrade of a declared link brings a challenge that is not refused, has a good
signature if it reaches the agent, and then finds the lock open. -/
def Reported (userId : Nat) (w : World) (q : Request) : Prop :=
  match q.endpoint with
  | .verify =>
    ∀ same, q.surroundings.consumed = .context same → q.surroundings.unsigned = true →
      (sshChallengeLockManager.isLocked w.store (toString userId) q.nowMs).2 = true
  | .upgrade =>
    q.surroundings.link = .upgradable →
      q.surroundings.consumed.refused = false ∧
        (q.surroundings.consumed = .context true →
          q.surroundings.unsigned = false ∧
            (q.surroundings.reaches = true →
              (sshChallengeLockManager.isLocked w.store (toString userId) q.nowMs).2 = false))

instance (userId : Nat) (w : World) : ∀ q, Decidable (Reported userId w q)
  | ⟨_, .verify, _⟩ => inferInstanceAs (Decidable (∀ _ : Bool, _ → _))
  | ⟨_, .upgrade, _⟩ => inferInstanceAs (Decidable (_ → _))

/-! ## exits -/

theorem askAgent_failed (o : Surroundings) : (askAgent o).failed = o.unsigned := by
  obtain ⟨link, consumed, accountExists, agent, linkable⟩ := o
  rcases agent with _ | _ | _ | _ | (_ | _) <;> cases accountExists <;> cases linkable <;> rfl

theorem askAgent_asked (o : Surroundings) : (askAgent o).asked = o.reaches := by
  obtain ⟨link, consumed, accountExists, agent, linkable⟩ := o
  rcases agent with _ | _ | _ | _ | (_ | _) <;> cases accountExists <;> cases linkable <;> rfl

/-- An upgrade that meets the condition does not fail, and asks the agent only with the lock
open. -/
theorem upgrade_of_reported {userId : Nat} {w : World} {nowMs : Nat} {o : Surroundings}
    (h : Reported userId w ⟨nowMs, .upgrade, o⟩) :
    (upgradeViaChallenge o).failed = false ∧
      ((sshChallengeLockManager.isLocked w.store (toString userId) nowMs).2 = true →
        (upgradeViaChallenge o).asked = false) := by
  simp only [Reported] at h
  cases hlink : o.link with
  | upgradable =>
      obtain ⟨hrefused, hcontext⟩ := h hlink
      cases hconsumed : o.consumed with
      | context same =>
          cases same with
          | false => simp [upgradeViaChallenge, hlink, hconsumed, Exit.failed, Exit.asked]
          | true =>
              obtain ⟨hsigned, hopen⟩ := hcontext hconsumed
              simp only [upgradeViaChallenge, hlink, hconsumed, askAgent_failed, askAgent_asked]
              refine ⟨hsigned, fun hlocked => ?_⟩
              by_cases hreaches : o.reaches = true
              · rw [hopen hreaches] at hlocked
                exact absurd hlocked Bool.false_ne_true
              · simpa using hreaches
      | expiredOrUsed => simp [hconsumed, Consumed.refused] at hrefused
      | actorMismatch => simp [hconsumed, Consumed.refused] at hrefused
      | redisUnavailable => simp [upgradeViaChallenge, hlink, hconsumed, Exit.failed, Exit.asked]
  | notFound => simp [upgradeViaChallenge, hlink, Exit.failed, Exit.asked]
  | notOwner => simp [upgradeViaChallenge, hlink, Exit.failed, Exit.asked]
  | notDeclared => simp [upgradeViaChallenge, hlink, Exit.failed, Exit.asked]

/-! ## runs of requests -/

theorem Entry.event_of_failed {nowMs : Nat} {exit : Exit} (h : exit.failed = true) :
    Entry.event ⟨nowMs, exit⟩ = ⟨nowMs, .failure⟩ := by
  simp [Entry.event, h]

theorem Entry.event_of_quiet (nowMs : Nat) {exit : Exit} (h : exit.failed = false) :
    ∃ seen, seen ≠ .failure ∧ Entry.event ⟨nowMs, exit⟩ = ⟨nowMs, seen⟩ := by
  refine ⟨_, ?_, rfl⟩
  simp only [h, Bool.false_eq_true, if_false]
  split <;> simp

/-- What a run keeps: the lock has counted, and the agent has been held off. -/
structure Invariant (backend : Option Bool) (userId : Nat) (w : World) : Prop where
  kept : Kept sshChallengeLockManager backend (toString userId) w.nowMs (w.log.map Entry.event) w.store
  heldOff : HeldOff w.log

section Invariant

variable {backend : Option Bool} {userId nowMs : Nat} {w w' : World} {store : Store} {exit : Exit}

/-- An answer that leaves the agent alone while a lock is in force keeps the invariant. -/
theorem Invariant.answer (h : Invariant backend userId w)
    (hkept : Kept sshChallengeLockManager backend (toString userId) nowMs
      (w.log.map Entry.event ++ [Entry.event ⟨nowMs, exit⟩]) store)
    (hasked : InForce sshChallengeLockManager (w.log.map Entry.event) nowMs → exit.asked = false) :
    Invariant backend userId ⟨store, nowMs, w.log ++ [⟨nowMs, exit⟩]⟩ := by
  refine ⟨by simpa using hkept, fun before e after heq hforce => ?_⟩
  rcases concat_eq_append_cons heq with ⟨rfl, rfl⟩ | ⟨rest, hlog⟩
  · exact hasked hforce
  · exact h.heldOff before e rest hlog hforce

section Kept

variable {events : List Event} {o : Surroundings}
  (hkept : Kept sshChallengeLockManager backend (toString userId) nowMs events store)
include hkept

theorem kept_failed (hexit : exit.failed = true) :
    Kept sshChallengeLockManager backend (toString userId) nowMs
      (events ++ [Entry.event ⟨nowMs, exit⟩])
      (sshChallengeLockManager.recordFailure store (toString userId) nowMs).1 := by
  rw [Entry.event_of_failed hexit]
  exact hkept.recordFailure_seen

theorem kept_quiet (hexit : exit.failed = false) :
    Kept sshChallengeLockManager backend (toString userId) nowMs
      (events ++ [Entry.event ⟨nowMs, exit⟩]) store := by
  obtain ⟨seen, hseen, hevent⟩ := Entry.event_of_quiet nowMs hexit
  rw [hevent]
  exact hkept.quiet hseen

/-- `verify` is reported, and refused while a lock is in force. -/
theorem verifyChallenge_spec
    (hok : ∀ same, o.consumed = .context same → o.unsigned = true →
      (sshChallengeLockManager.isLocked store (toString userId) nowMs).2 = true) :
    Kept sshChallengeLockManager backend (toString userId) nowMs
        (events ++ [Entry.event ⟨nowMs, (verifyChallenge store userId o nowMs).2⟩])
        (verifyChallenge store userId o nowMs).1 ∧
      (InForce sshChallengeLockManager events nowMs →
        (verifyChallenge store userId o nowMs).2.asked = false) := by
  have hasked := hkept.isLocked (toString userId)
  have hclosed := hkept.locked
  rcases hresult : sshChallengeLockManager.isLocked store (toString userId) nowMs with ⟨s', locked⟩
  rw [hresult] at hasked hclosed hok
  rw [verifyChallenge, hresult]
  cases locked with
  | true => exact ⟨kept_quiet hasked rfl, fun _ => rfl⟩
  | false =>
      refine ⟨?_, fun hforce => absurd (hclosed hforce) Bool.false_ne_true⟩
      cases hconsumed : o.consumed with
      | expiredOrUsed => exact kept_failed hasked rfl
      | actorMismatch => exact kept_failed hasked rfl
      | redisUnavailable => exact kept_quiet hasked rfl
      | context same =>
          have hsigned : o.unsigned = false := by
            by_contra hunsigned
            exact Bool.false_ne_true (hok same hconsumed (by simpa using hunsigned))
          exact kept_quiet hasked ((askAgent_failed o).trans hsigned)

end Kept

/-- **A request** that meets the condition keeps the invariant. -/
theorem invariant_step {q : Request} (h : Invariant backend userId w) (hok : Reported userId w q)
    (hstep : step userId w q = some w') : Invariant backend userId w' := by
  obtain ⟨now, endpoint, o⟩ := q
  by_cases hle : w.nowMs ≤ now
  · have hkept := h.kept.later hle
    rw [step, if_pos hle] at hstep
    cases endpoint with
    | verify =>
        obtain ⟨hkept', hasked⟩ := verifyChallenge_spec hkept hok
        obtain rfl := Option.some.inj hstep
        exact h.answer hkept' hasked
    | upgrade =>
        obtain ⟨hfailed, hasked⟩ := upgrade_of_reported hok
        obtain rfl := Option.some.inj hstep
        exact h.answer (kept_quiet hkept hfailed) fun hforce => hasked (hkept.locked hforce)
  · simp [step, hle] at hstep

/-- **Three failures within five minutes keep the user from the agent** for the lock time, in
every run whose requests meet the condition. -/
theorem heldOff_run {qs : List Request}
    (hok : Meets (step userId) (Reported userId) (World.start backend) qs)
    (h : exec (step userId) (World.start backend) qs = some w) : HeldOff w.log := by
  have hinv : Invariant backend userId w :=
    exec_invariant (fun s a t hs hok ht => invariant_step hs hok ht)
      ⟨kept_start _ _ _, by simp [HeldOff, World.start]⟩ hok h
  exact hinv.heldOff

end Invariant

/-- A link to upgrade, a challenge to spend and an account; the agent answers `ok`. -/
def meeting (ok : Bool) : Surroundings := ⟨.upgradable, .context true, true, .result ok, true⟩

/-- Three challenges that have run out, and a good signature in time for the lock. -/
theorem heldOff_expired :
    ((exec (step 7) (World.start (some false))
      [⟨0, .verify, { meeting true with consumed := .expiredOrUsed }⟩,
        ⟨1000, .verify, { meeting true with consumed := .expiredOrUsed }⟩,
        ⟨2000, .verify, { meeting true with consumed := .expiredOrUsed }⟩,
        ⟨3000, .verify, meeting true⟩]).map (·.log.map (·.exit)) =
      some [.challengeExpiredOrUsed, .challengeExpiredOrUsed, .challengeExpiredOrUsed, .locked]) ∧
    ∀ w ∈ exec (step 7) (World.start (some false))
      [⟨0, .verify, { meeting true with consumed := .expiredOrUsed }⟩,
        ⟨1000, .verify, { meeting true with consumed := .expiredOrUsed }⟩,
        ⟨2000, .verify, { meeting true with consumed := .expiredOrUsed }⟩,
        ⟨3000, .verify, meeting true⟩], HeldOff w.log := by
  exact ⟨by decide +kernel, fun w hw => heldOff_run (by decide +kernel) hw⟩

/-- Three bad signatures, and the agent is asked for a fourth time. -/
theorem not_heldOff : ¬ ∀ (backend : Option Bool) (userId : Nat) (qs : List Request) (w : World),
    exec (step userId) (World.start backend) qs = some w → HeldOff w.log := by
  intro hall
  have hrun : (exec (step 7) (World.start (some false))
      [⟨0, .verify, meeting false⟩, ⟨1000, .verify, meeting false⟩, ⟨2000, .verify, meeting false⟩,
        ⟨3000, .verify, meeting true⟩]).map (·.log) =
      some [⟨0, .signatureVerificationFailed⟩, ⟨1000, .signatureVerificationFailed⟩,
        ⟨2000, .signatureVerificationFailed⟩, ⟨3000, .verified⟩] := by
    decide +kernel
  obtain ⟨w, hw, hlog⟩ := Option.map_eq_some_iff.mp hrun
  have hheld := hall _ _ _ w hw
  rw [hlog] at hheld
  have hforce : InForce sshChallengeLockManager
      [⟨0, .failure⟩, ⟨1000, .failure⟩, ⟨2000, .failure⟩] 3000 :=
    ⟨2000, ⟨[⟨0, .failure⟩, ⟨1000, .failure⟩], [], rfl, by decide⟩, by decide⟩
  have hasked := hheld [⟨0, .signatureVerificationFailed⟩, ⟨1000, .signatureVerificationFailed⟩,
    ⟨2000, .signatureVerificationFailed⟩] ⟨3000, .verified⟩ [] rfl hforce
  exact absurd hasked (by decide)

end SshLock

end RateLimit

end CoreLab
