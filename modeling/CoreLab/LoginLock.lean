import CoreLab.LockWatch
import CoreLab.Lib.Transition

/-!
# CoreLab.LoginLock

`authenticate` asks and reports to a failure lock on the identifier as it was typed and the
client's address, and checks the password of the account that the identifier resolves to.

* `guessBound_run` — the runs in which the lock bounds the guesses on an account.
-/

namespace CoreLab

open SlidingWindow Transition

namespace RateLimit

namespace LoginLock

/-! ## one attempt -/

/-- The columns of `user` that a login reads. -/
structure User where
  id : Nat
  username : String
  email : String
  passwordHash : Option String
  isActive : Bool
deriving DecidableEq, Repr

structure LoginRequest where
  username : String
  password : String
deriving DecidableEq, Repr

/-- An attempt, and the users of that moment. -/
structure Attempt where
  nowMs : Nat
  payload : LoginRequest
  requestIp : Option String
  users : List User
deriving DecidableEq, Repr

structure Host where
  /-- `bcrypt.checkpw`; `none` for a `ValueError`. -/
  checkpw : String → String → Option Bool
  /-- The database takes the two texts for the same. -/
  collates : String → String → Bool

/-- `verify_password`. -/
def verifyPassword (h : Host) (plaintext passwordHash : String) : Bool :=
  if passwordHash = "" then false else (h.checkpw plaintext passwordHash).getD false

/-- `lock_subject`. -/
def lockSubject (username : String) (requestIp : Option String) : String :=
  username ++ ":" ++
    match requestIp with
    | some ip => if ip = "" then "noip" else ip
    | none => "noip"

/-- How an attempt ends. -/
inductive Outcome where
  | accountLocked
  | multipleResultsFound
  /-- With the account whose password was wrong, if there was one to check. -/
  | invalidCredentials (checked : Option Nat)
  | accountDisabled (userId : Nat)
  | loggedIn (userId : Nat)
deriving DecidableEq, Repr

/-- The users with that name or address. -/
def Attempt.matching (h : Host) (q : Attempt) : List User :=
  q.users.filter fun u =>
    h.collates u.username q.payload.username || h.collates u.email q.payload.username

/-- `authenticate`. -/
def authenticate (h : Host) (s : Store) (q : Attempt) : Store × Outcome :=
  let subject := lockSubject q.payload.username q.requestIp
  let (s, locked) := loginLockManager.isLocked s subject q.nowMs
  if locked then (s, .accountLocked)
  else
    match q.matching h with
    | [] => ((loginLockManager.recordFailure s subject q.nowMs).1, .invalidCredentials none)
    | [user] =>
      match user.passwordHash with
      | none => ((loginLockManager.recordFailure s subject q.nowMs).1, .invalidCredentials none)
      | some passwordHash =>
        if verifyPassword h q.payload.password passwordHash then
          if user.isActive then (loginLockManager.recordSuccess s subject, .loggedIn user.id)
          else (s, .accountDisabled user.id)
        else
          ((loginLockManager.recordFailure s subject q.nowMs).1, .invalidCredentials (some user.id))
    | _ => (s, .multipleResultsFound)

/-! ## runs -/

/-- An attempt that has been answered. -/
structure Entry where
  nowMs : Nat
  username : String
  requestIp : Option String
  outcome : Outcome
deriving DecidableEq, Repr

structure World where
  store : Store
  nowMs : Nat
  log : List Entry

/-- A new backend; with a Redis that keeps a key in the millisecond of its expiry or not, or
without one. -/
def World.start (backend : Option Bool) : World := ⟨.start backend, 0, []⟩

/-- The answer to an attempt; time does not run backwards. -/
def step (h : Host) (w : World) (q : Attempt) : Option World :=
  if w.nowMs ≤ q.nowMs then
    let (store, outcome) := authenticate h w.store q
    some ⟨store, q.nowMs, w.log ++ [⟨q.nowMs, q.payload.username, q.requestIp, outcome⟩]⟩
  else none

/-! ## what is promised -/

/-- The account whose password was checked. -/
def Outcome.checked : Outcome → Option Nat
  | accountLocked | multipleResultsFound => none
  | invalidCredentials checked => checked
  | accountDisabled userId | loggedIn userId => some userId

/-- The password of the account was checked for the address. -/
def Entry.checks (userId : Nat) (ip : Option String) (e : Entry) : Bool :=
  decide (e.requestIp = ip) && decide (e.outcome.checked = some userId)

/-- What an attempt is to the account and the address. -/
def Entry.seen (userId : Nat) (ip : Option String) (e : Entry) : Seen :=
  if e.checks userId ip then
    match e.outcome with
    | .invalidCredentials _ => .failure
    | .loggedIn _ => .success
    | _ => .other
  else .other

def Entry.event (userId : Nat) (ip : Option String) (e : Entry) : Event :=
  ⟨e.nowMs, e.seen userId ip⟩

/-- The guesses on an account from an address are bounded. -/
structure GuessBound (userId : Nat) (ip : Option String) (log : List Entry) : Prop where
  /-- With a wrong password there are at most three of them in five minutes and since the last
  success. -/
  few : ∀ before e after, log = before ++ e :: after → e.seen userId ip = .failure →
    windowCount loginLockManager (failuresOf (before.map (Entry.event userId ip))) e.nowMs + 1 ≤
      loginLockManager.threshold
  /-- No password is checked while the lock that the third puts in force holds. -/
  heldOff : ∀ before e after, log = before ++ e :: after →
    InForce loginLockManager (before.map (Entry.event userId ip)) e.nowMs →
      e.checks userId ip = false

/-- The condition on an attempt that gets as far as a password: if it is one on the account from
the address, the wrong passwords that may still count were given to the same identifier; if it
is another one that logs in, they were given under another lock. -/
def Unaliased (h : Host) (userId : Nat) (ip : Option String) (w : World) (q : Attempt) : Prop :=
  ∀ user ∈ q.matching h, q.matching h = [user] → ∀ passwordHash ∈ user.passwordHash,
    ∀ e ∈ w.log, e.seen userId ip = .failure →
      q.nowMs < e.nowMs + loginLockManager.lockMs + loginLockManager.windowMs →
        if q.requestIp = ip ∧ user.id = userId then e.username = q.payload.username
        else verifyPassword h q.payload.password passwordHash = true → user.isActive = true →
          lockSubject e.username e.requestIp ≠ lockSubject q.payload.username q.requestIp

instance (h : Host) (userId : Nat) (ip : Option String) (w : World) (q : Attempt) :
    Decidable (Unaliased h userId ip w q) :=
  inferInstanceAs (Decidable (∀ _ ∈ _, _))

/-! ## one identifier -/

/-- What an attempt is to the account and the address, if only the failures of one identifier
are looked at. -/
def Entry.seenUnder (text : String) (userId : Nat) (ip : Option String) (e : Entry) : Seen :=
  if e.seen userId ip = .failure ∧ e.username ≠ text then .other else e.seen userId ip

def Entry.eventUnder (text : String) (userId : Nat) (ip : Option String) (e : Entry) : Event :=
  ⟨e.nowMs, e.seenUnder text userId ip⟩

section Text

variable {userId now : Nat} {ip : Option String} {text : String} {log : List Entry} {e : Entry}

theorem seen_eq_failure_iff :
    e.seen userId ip = .failure ↔ e.requestIp = ip ∧ e.outcome = .invalidCredentials (some userId) := by
  rw [Entry.seen, Entry.checks]
  cases e.outcome <;> by_cases hip : e.requestIp = ip <;> simp [Outcome.checked, hip] <;> grind

theorem seen_eq_success_iff :
    e.seen userId ip = .success ↔ e.requestIp = ip ∧ e.outcome = .loggedIn userId := by
  rw [Entry.seen, Entry.checks]
  cases e.outcome with
  | loggedIn v => by_cases hip : e.requestIp = ip <;> simp [Outcome.checked, hip]
  | _ => grind

theorem seenUnder_eq_failure_iff :
    e.seenUnder text userId ip = .failure ↔ e.seen userId ip = .failure ∧ e.username = text := by
  by_cases hother : e.seen userId ip = .failure ∧ e.username ≠ text
  · simp [Entry.seenUnder, hother]
  · rw [Entry.seenUnder, if_neg hother]
    exact ⟨fun h => ⟨h, by simpa [h] using hother⟩, fun h => h.1⟩

theorem eventUnder_of_username (h : e.seen userId ip = .failure → e.username = text) :
    e.eventUnder text userId ip = e.event userId ip := by
  have hsame : ¬ (e.seen userId ip = .failure ∧ e.username ≠ text) := fun hother =>
    hother.2 (h hother.1)
  rw [Entry.eventUnder, Entry.seenUnder, if_neg hsame]
  rfl

/-- A further attempt counts for both of two lists of failures. -/
theorem windowCount_failuresAfter_mono {ts us : List Nat} {d : Event}
    (h : windowCount loginLockManager ts now ≤ windowCount loginLockManager us now) :
    windowCount loginLockManager (failuresAfter ts d) now ≤
      windowCount loginLockManager (failuresAfter us d) now := by
  obtain ⟨nowMs, seen⟩ := d
  cases seen with
  | failure =>
      simp only [failuresAfter, windowCount, List.countP_cons] at h ⊢
      omega
  | success => exact Nat.le_refl _
  | other => exact h

/-- Where the failures in the window have the identifier, no other one is counted. -/
theorem windowCount_under (h : ∀ e ∈ log, e.seen userId ip = .failure →
      recent loginLockManager.windowMs now e.nowMs = true → e.username = text) :
    windowCount loginLockManager (failuresOf (log.map (Entry.event userId ip))) now ≤
      windowCount loginLockManager (failuresOf (log.map (Entry.eventUnder text userId ip))) now := by
  induction log using List.reverseRecOn with
  | nil => exact Nat.le_refl _
  | append_singleton log e ih =>
      have hlog := ih fun d hd => h d (List.mem_append_left _ hd)
      have he := h e (by simp)
      rw [List.map_append, List.map_append, List.map_singleton, List.map_singleton,
        failuresOf_concat, failuresOf_concat]
      by_cases husername : e.seen userId ip = .failure → e.username = text
      · rw [eventUnder_of_username husername]
        exact windowCount_failuresAfter_mono hlog
      · -- a failure under another identifier, too old to be counted
        rw [Classical.not_imp] at husername
        obtain ⟨hfailure, hother⟩ := husername
        have hold : recent loginLockManager.windowMs now e.nowMs = false := by
          by_contra hrecent
          exact hother (he hfailure (by simpa using hrecent))
        have hunder : e.eventUnder text userId ip = ⟨e.nowMs, .other⟩ := by
          simp [Entry.eventUnder, Entry.seenUnder, hfailure, hother]
        have hevent : e.event userId ip = ⟨e.nowMs, .failure⟩ := by
          rw [Entry.event, hfailure]
        rw [hunder, hevent]
        simpa [failuresAfter, windowCount, List.countP_cons, hold] using hlog

/-- A lock that is in force is one on the identifier, where the failures that may still count
have it. -/
theorem inForce_under (h : ∀ e ∈ log, e.seen userId ip = .failure →
      now < e.nowMs + loginLockManager.lockMs + loginLockManager.windowMs → e.username = text)
    (hforce : InForce loginLockManager (log.map (Entry.event userId ip)) now) :
    InForce loginLockManager (log.map (Entry.eventUnder text userId ip)) now := by
  obtain ⟨t, ⟨before, after, heq, hfull⟩, hlate⟩ := hforce
  obtain ⟨log₁, rest, rfl, rfl, hrest⟩ := List.map_eq_append_iff.mp heq
  obtain ⟨e, log₂, rfl, he, rfl⟩ := List.map_eq_cons_iff.mp hrest
  have hseen : e.seen userId ip = .failure := congrArg Event.seen he
  obtain rfl : e.nowMs = t := congrArg Event.nowMs he
  refine ⟨e.nowMs, ⟨log₁.map (Entry.eventUnder text userId ip),
    log₂.map (Entry.eventUnder text userId ip), ?_, ?_⟩, hlate⟩
  · have husername : e.username = text := h e (by simp) hseen (by omega)
    rw [List.map_append, List.map_cons, eventUnder_of_username fun _ => husername, he]
  · have hrecent : ∀ d ∈ log₁, d.seen userId ip = .failure →
        recent loginLockManager.windowMs e.nowMs d.nowMs = true → d.username = text := by
      intro d hd hfailure hrecent
      simp only [recent, decide_eq_true_eq] at hrecent
      exact h d (by simp [hd]) hfailure (by omega)
    have hcount := windowCount_under hrecent
    omega

end Text

/-! ## the lock behind an attempt -/

section Kept

variable {backend : Option Bool} {userId now : Nat} {ip : Option String} {text : String}
  {log : List Entry} {e : Entry} {s : Store}
  (hkept : Kept loginLockManager backend (lockSubject text ip) e.nowMs
    (log.map (Entry.eventUnder text userId ip)) s)
include hkept

theorem kept_quiet (h : ¬ (e.seen userId ip = .failure ∧ e.username = text)) :
    Kept loginLockManager backend (lockSubject text ip) e.nowMs
      (log.map (Entry.eventUnder text userId ip) ++ [e.eventUnder text userId ip]) s :=
  hkept.quiet fun hfailure => h (seenUnder_eq_failure_iff.mp hfailure)

/-- A failure is recorded, be it one of those looked at or not. -/
theorem kept_recordFailure :
    Kept loginLockManager backend (lockSubject text ip) e.nowMs
      (log.map (Entry.eventUnder text userId ip) ++ [e.eventUnder text userId ip])
      (loginLockManager.recordFailure s (lockSubject e.username e.requestIp) e.nowMs).1 := by
  by_cases hown : e.seen userId ip = .failure ∧ e.username = text
  · have hevent : e.eventUnder text userId ip = ⟨e.nowMs, .failure⟩ := by
      rw [Entry.eventUnder, seenUnder_eq_failure_iff.mpr hown]
    rw [hevent, hown.2, (seen_eq_failure_iff.mp hown.1).1]
    exact hkept.recordFailure_seen
  · exact kept_quiet (hkept.recordFailure _) hown

/-- A success clears a lock that is open, on which no failure of the account from the address
may still count if it is not a success on that account from there. -/
theorem kept_recordSuccess (hquiet : e.seen userId ip ≠ .failure)
    (hopen : lockSubject e.username e.requestIp = lockSubject text ip →
      ¬ InForce loginLockManager (log.map (Entry.eventUnder text userId ip)) e.nowMs)
    (hclear : e.seen userId ip ≠ .success → ∀ d ∈ log, d.seen userId ip = .failure →
      e.nowMs < d.nowMs + loginLockManager.lockMs + loginLockManager.windowMs →
        lockSubject d.username d.requestIp ≠ lockSubject e.username e.requestIp) :
    Kept loginLockManager backend (lockSubject text ip) e.nowMs
      (log.map (Entry.eventUnder text userId ip) ++ [e.eventUnder text userId ip])
      (loginLockManager.recordSuccess s (lockSubject e.username e.requestIp)) := by
  have hseen : e.seenUnder text userId ip = e.seen userId ip := by
    simp [Entry.seenUnder, hquiet]
  refine (kept_quiet hkept fun h => hquiet h.1).recordSuccess _ fun hsubject => ⟨?_, ?_⟩
  · intro t ht
    rw [failuresOf_concat] at ht
    by_cases hsuccess : e.seen userId ip = .success
    · simp [failuresAfter, Entry.eventUnder, hseen, hsuccess] at ht
    · by_contra hrecent
      have hother : failuresAfter (failuresOf (log.map (Entry.eventUnder text userId ip)))
          (e.eventUnder text userId ip) = failuresOf (log.map (Entry.eventUnder text userId ip)) := by
        cases hcase : e.seen userId ip with
        | failure => exact absurd hcase hquiet
        | success => exact absurd hcase hsuccess
        | other => simp [failuresAfter, Entry.eventUnder, hseen, hcase]
      rw [hother] at ht
      obtain ⟨d, hd, hevent⟩ := List.mem_map.mp (mem_of_mem_failuresOf ht)
      have hnow : d.nowMs = t := congrArg Event.nowMs hevent
      obtain ⟨hfailure, husername⟩ := seenUnder_eq_failure_iff.mp (congrArg Event.seen hevent)
      refine hclear hsuccess d hd hfailure ?_ ?_
      · simp only [Bool.not_eq_false, recent, decide_eq_true_eq] at hrecent
        omega
      · rw [husername, (seen_eq_failure_iff.mp hfailure).1, hsubject]
  · have hevent : (e.eventUnder text userId ip).seen ≠ .failure := fun h =>
      hquiet (seenUnder_eq_failure_iff.mp h).1
    exact fun hforce => hopen hsubject (inForce_of_concat hevent hforce)

end Kept

/-! ## runs of attempts -/

/-- The answer to an attempt as an entry of the log. -/
def Attempt.entry (q : Attempt) (outcome : Outcome) : Entry :=
  ⟨q.nowMs, q.payload.username, q.requestIp, outcome⟩

/-- What a run keeps: each identifier's lock has counted, and the guesses are bounded. -/
structure Invariant (backend : Option Bool) (userId : Nat) (ip : Option String) (w : World) :
    Prop where
  kept : ∀ text, Kept loginLockManager backend (lockSubject text ip) w.nowMs
    (w.log.map (Entry.eventUnder text userId ip)) w.store
  sorted : w.log.Pairwise fun d e => d.nowMs ≤ e.nowMs
  past : ∀ e ∈ w.log, e.nowMs ≤ w.nowMs
  bound : GuessBound userId ip w.log

section Invariant

variable {h : Host} {backend : Option Bool} {userId : Nat} {ip : Option String} {w w' : World}
  {q : Attempt}

/-- A password that is checked is that of the one account found, with the lock open. -/
theorem authenticate_checked {s : Store}
    (hchecked : (authenticate h s q).2.checked = some userId) :
    (loginLockManager.isLocked s (lockSubject q.payload.username q.requestIp) q.nowMs).2 = false ∧
      ∃ user passwordHash, q.matching h = [user] ∧ user.passwordHash = some passwordHash ∧
        user.id = userId := by
  rcases hresult : loginLockManager.isLocked s (lockSubject q.payload.username q.requestIp) q.nowMs
    with ⟨s', locked⟩
  rw [authenticate, hresult] at hchecked
  cases locked with
  | true => simp [Outcome.checked] at hchecked
  | false =>
      refine ⟨rfl, ?_⟩
      cases hmatching : q.matching h with
      | nil => simp [hmatching, Outcome.checked] at hchecked
      | cons user others =>
          cases others with
          | cons _ _ => simp [hmatching, Outcome.checked] at hchecked
          | nil =>
              cases hhash : user.passwordHash with
              | none => simp [hmatching, hhash, Outcome.checked] at hchecked
              | some passwordHash =>
                  refine ⟨user, passwordHash, rfl, hhash, ?_⟩
                  simp only [hmatching, hhash] at hchecked
                  by_cases hright : verifyPassword h q.payload.password passwordHash = true
                  · by_cases hactive : user.isActive = true <;>
                      simpa [hright, hactive, Outcome.checked] using hchecked
                  · simpa [hright, Outcome.checked] using hchecked

/-- What `authenticate` keeps. -/
theorem authenticate_kept {text : String} {s : Store} {log : List Entry}
    (hkept : Kept loginLockManager backend (lockSubject text ip) q.nowMs
      (log.map (Entry.eventUnder text userId ip)) s)
    (hok : ∀ user, q.matching h = [user] → ∀ passwordHash ∈ user.passwordHash,
      verifyPassword h q.payload.password passwordHash = true → user.isActive = true →
      ¬ (q.requestIp = ip ∧ user.id = userId) → ∀ e ∈ log, e.seen userId ip = .failure →
        q.nowMs < e.nowMs + loginLockManager.lockMs + loginLockManager.windowMs →
          lockSubject e.username e.requestIp ≠ lockSubject q.payload.username q.requestIp) :
    Kept loginLockManager backend (lockSubject text ip) q.nowMs
      (log.map (Entry.eventUnder text userId ip) ++
        [(q.entry (authenticate h s q).2).eventUnder text userId ip]) (authenticate h s q).1 := by
  have hasked := hkept.isLocked (lockSubject q.payload.username q.requestIp)
  have hclosed : lockSubject q.payload.username q.requestIp = lockSubject text ip →
      InForce loginLockManager (log.map (Entry.eventUnder text userId ip)) q.nowMs →
      (loginLockManager.isLocked s (lockSubject q.payload.username q.requestIp) q.nowMs).2 = true :=
    fun hsubject hforce => hsubject ▸ hkept.locked hforce
  rcases hresult : loginLockManager.isLocked s (lockSubject q.payload.username q.requestIp) q.nowMs
    with ⟨s', locked⟩
  rw [hresult] at hasked hclosed
  rw [authenticate, hresult]
  cases locked with
  | true => exact kept_quiet (e := q.entry _) hasked (by simp [seen_eq_failure_iff, Attempt.entry])
  | false =>
      cases hmatching : q.matching h with
      | nil => exact kept_recordFailure (e := q.entry _) hasked
      | cons user others =>
          cases others with
          | cons _ _ =>
              exact kept_quiet (e := q.entry _) hasked (by simp [seen_eq_failure_iff, Attempt.entry])
          | nil =>
              cases hhash : user.passwordHash with
              | none =>
                  simp only [hhash]
                  exact kept_recordFailure (e := q.entry _) hasked
              | some passwordHash =>
                  simp only [hhash]
                  by_cases hright : verifyPassword h q.payload.password passwordHash = true
                  · by_cases hactive : user.isActive = true
                    · simp only [hright, hactive, if_true]
                      refine kept_recordSuccess (e := q.entry (.loggedIn user.id)) hasked
                        (by simp [seen_eq_failure_iff, Attempt.entry])
                        (fun hsubject hforce => Bool.false_ne_true (hclosed hsubject hforce)) ?_
                      intro hother
                      refine hok user hmatching passwordHash hhash hright hactive fun hown => hother ?_
                      exact seen_eq_success_iff.mpr ⟨hown.1, by rw [hown.2]; rfl⟩
                    · simp only [hright, hactive, if_true]
                      exact kept_quiet (e := q.entry _) hasked
                        (by simp [seen_eq_failure_iff, Attempt.entry])
                  · simp only [hright]
                    exact kept_recordFailure (e := q.entry _) hasked

/-- **While a lock is in force** no password of the account is checked for the address. -/
theorem authenticate_heldOff {s : Store} {log : List Entry}
    (hkept : Kept loginLockManager backend (lockSubject q.payload.username ip) q.nowMs
      (log.map (Entry.eventUnder q.payload.username userId ip)) s)
    (hok : ∀ user, q.matching h = [user] → ∀ passwordHash ∈ user.passwordHash,
      q.requestIp = ip ∧ user.id = userId → ∀ e ∈ log, e.seen userId ip = .failure →
        q.nowMs < e.nowMs + loginLockManager.lockMs + loginLockManager.windowMs →
          e.username = q.payload.username)
    (hforce : InForce loginLockManager (log.map (Entry.event userId ip)) q.nowMs) :
    (q.entry (authenticate h s q).2).checks userId ip = false := by
  by_contra hchecks
  simp only [Entry.checks, Bool.and_eq_false_iff, not_or, Bool.not_eq_false, decide_eq_true_eq]
    at hchecks
  obtain ⟨hip, hchecked⟩ := hchecks
  obtain ⟨hopen, user, passwordHash, hmatching, hhash, huser⟩ := authenticate_checked hchecked
  have hunder := inForce_under (hok user hmatching passwordHash hhash ⟨hip, huser⟩) hforce
  have hlocked := hkept.locked hunder
  rw [← hip] at hlocked
  exact Bool.false_ne_true (hopen.symm.trans hlocked)

/-- **An attempt** that meets the condition keeps the invariant. -/
theorem invariant_step (hinv : Invariant backend userId ip w) (hok : Unaliased h userId ip w q)
    (hstep : step h w q = some w') : Invariant backend userId ip w' := by
  by_cases hle : w.nowMs ≤ q.nowMs
  · rw [step, if_pos hle] at hstep
    obtain rfl : w' = ⟨(authenticate h w.store q).1, q.nowMs,
      w.log ++ [q.entry (authenticate h w.store q).2]⟩ := (Option.some.inj hstep).symm
    have hkept : ∀ text, Kept loginLockManager backend (lockSubject text ip) q.nowMs
        (w.log.map (Entry.eventUnder text userId ip)) w.store :=
      fun text => (hinv.kept text).later hle
    have hpast : ∀ e ∈ w.log, e.nowMs ≤ q.nowMs := fun e he => Nat.le_trans (hinv.past e he) hle
    have hheld : InForce loginLockManager (w.log.map (Entry.event userId ip)) q.nowMs →
        (q.entry (authenticate h w.store q).2).checks userId ip = false :=
      authenticate_heldOff (hkept _) fun user hmatching hash hhash hown e he hfailure hlate => by
        have hclean := hok user (by simp [hmatching]) hmatching hash hhash e he hfailure hlate
        rwa [if_pos hown] at hclean
    refine ⟨fun text => ?_, ?_, ?_, ⟨?_, ?_⟩⟩
    · have hnext := authenticate_kept (h := h) (hkept text)
        fun user hmatching hash hhash hright hactive hother e he hfailure hlate => by
          have hclean := hok user (by simp [hmatching]) hmatching hash hhash e he hfailure hlate
          rw [if_neg hother] at hclean
          exact hclean hright hactive
      rwa [List.map_append, List.map_singleton]
    · simpa [List.pairwise_append, hinv.sorted, Attempt.entry] using hpast
    · simpa [or_imp, forall_and, Attempt.entry] using hpast
    · intro before e after heq hfailure
      rcases concat_eq_append_cons heq with ⟨rfl, rfl⟩ | ⟨rest, hlog⟩
      · refine windowCount_lt_of_not_inForce (by decide) (by decide) ?_ ?_ fun hforce => ?_
        · simpa [List.pairwise_map, Entry.event] using hinv.sorted
        · simpa [Entry.event, Attempt.entry] using hpast
        · simp [Entry.seen, hheld hforce] at hfailure
      · exact hinv.bound.few before e rest hlog hfailure
    · intro before e after heq hforce
      rcases concat_eq_append_cons heq with ⟨rfl, rfl⟩ | ⟨rest, hlog⟩
      · exact hheld hforce
      · exact hinv.bound.heldOff before e rest hlog hforce
  · simp [step, hle] at hstep

/-- **The guesses on an account from an address are bounded** in every run whose attempts meet
the condition. -/
theorem guessBound_run {qs : List Attempt}
    (hok : Meets (step h) (Unaliased h userId ip) (World.start backend) qs)
    (hrun : exec (step h) (World.start backend) qs = some w) : GuessBound userId ip w.log := by
  have hinv : Invariant backend userId ip w :=
    exec_invariant (fun s a t hs hok ht => invariant_step hs hok ht)
      ⟨fun text => kept_start _ _ _, .nil, by simp [World.start],
        by simp [World.start], by simp [World.start]⟩ hok hrun
  exact hinv.bound

end Invariant

/-- A host on which a hash is the password itself and texts are compared as they are. -/
def plainHost : Host := ⟨fun plaintext hash => some (decide (plaintext = hash)), fun a b => a = b⟩

/-- `alice`, from one address. -/
def attempt (nowMs : Nat) (username password : String) : Attempt :=
  ⟨nowMs, ⟨username, password⟩, some "10.0.0.1",
    [⟨1, "alice", "alice@example.org", some "secret", true⟩]⟩

/-- Three wrong passwords, and the right one in time for the lock. -/
theorem guessBound_locked :
    (exec (step plainHost) (World.start (some false))
      [attempt 0 "alice" "a", attempt 1000 "alice" "b", attempt 2000 "alice" "c",
        attempt 3000 "alice" "secret"]).map (·.log.map (·.outcome)) =
      some [.invalidCredentials (some 1), .invalidCredentials (some 1),
        .invalidCredentials (some 1), .accountLocked] ∧
    ∀ w ∈ exec (step plainHost) (World.start (some false))
      [attempt 0 "alice" "a", attempt 1000 "alice" "b", attempt 2000 "alice" "c",
        attempt 3000 "alice" "secret"], GuessBound 1 (some "10.0.0.1") w.log := by
  exact ⟨by decide +kernel, fun w hw => guessBound_run (by decide +kernel) hw⟩

/-- Three wrong passwords for the name, and a fourth for the mail address. -/
theorem not_guessBound : ¬ ∀ (h : Host) (backend : Option Bool) (userId : Nat) (ip : Option String)
    (qs : List Attempt) (w : World), exec (step h) (World.start backend) qs = some w →
      GuessBound userId ip w.log := by
  intro hall
  have hrun : (exec (step plainHost) (World.start (some false))
      [attempt 0 "alice" "a", attempt 1000 "alice" "b", attempt 2000 "alice" "c",
        attempt 3000 "alice@example.org" "d"]).map (·.log) =
      some [⟨0, "alice", some "10.0.0.1", .invalidCredentials (some 1)⟩,
        ⟨1000, "alice", some "10.0.0.1", .invalidCredentials (some 1)⟩,
        ⟨2000, "alice", some "10.0.0.1", .invalidCredentials (some 1)⟩,
        ⟨3000, "alice@example.org", some "10.0.0.1", .invalidCredentials (some 1)⟩] := by
    decide +kernel
  obtain ⟨w, hw, hlog⟩ := Option.map_eq_some_iff.mp hrun
  have hbound := hall plainHost (some false) 1 (some "10.0.0.1") _ w hw
  rw [hlog] at hbound
  have hfew := hbound.few [⟨0, "alice", some "10.0.0.1", .invalidCredentials (some 1)⟩,
    ⟨1000, "alice", some "10.0.0.1", .invalidCredentials (some 1)⟩,
    ⟨2000, "alice", some "10.0.0.1", .invalidCredentials (some 1)⟩] _ [] rfl (by decide)
  exact absurd hfew (by decide)

end LoginLock

end RateLimit

end CoreLab
