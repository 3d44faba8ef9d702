import CoreLab.Lib.Dict
import CoreLab.Lib.SlidingWindow

/-!
# CoreLab.RateLimit

The counters of the rate-limit middleware: a request budget per key and a lock after
repeated failures, both on Redis where it is configured and in the process otherwise.
A call happens at one reading of the clock, in milliseconds.

* `bucketCountAfterHit`, `slidingWindowHit` — the budget's window, on either store;
* `recordFailure`, `isLocked`, `recordSuccess` — the failure lock, on either store.
-/

namespace CoreLab

open SlidingWindow

namespace RateLimit

/-! ## in-process fallback storage -/

/-- `_InProcessSlidingWindow`. -/
structure InProcess where
  buckets : Dict String (List Nat)
  locksUntilMs : Dict String Nat

namespace InProcess

def empty : InProcess := ⟨.empty, .empty⟩

/-- The times of a key's hits. -/
def bucket (s : InProcess) (key : String) : List Nat := (s.buckets.get? key).getD []

/-- `_bucket_count_after_hit`. -/
def bucketCountAfterHit (s : InProcess) (key : String) (windowSeconds : Nat) (nowMs : Nat) :
    InProcess × Nat :=
  let cutoffMs : Int := nowMs - windowSeconds * 1000
  let timestampsMs := (s.bucket key).filter (fun ts : Nat => decide (cutoffMs < ts)) ++ [nowMs]
  ({ s with buckets := s.buckets.set key timestampsMs }, timestampsMs.length)

/-- `hit`: whether it is allowed, and how many are left. -/
def hit (s : InProcess) (key : String) (maxRequests windowSeconds : Nat) (nowMs : Nat) :
    InProcess × Bool × Nat :=
  let (s, count) := s.bucketCountAfterHit key windowSeconds nowMs
  (s, decide (count ≤ maxRequests), maxRequests - count)

/-- `failure_hit`. -/
def failureHit (s : InProcess) (countKey lockKey : String)
    (threshold windowSeconds lockSeconds : Nat) (nowMs : Nat) : InProcess × Bool :=
  let (s, count) := s.bucketCountAfterHit countKey windowSeconds nowMs
  if threshold ≤ count then
    ({ s with locksUntilMs := s.locksUntilMs.set lockKey (nowMs + lockSeconds * 1000) }, true)
  else (s, false)

/-- `is_locked`: a lock that has run out is dropped. -/
def isLocked (s : InProcess) (key : String) (nowMs : Nat) : InProcess × Bool :=
  match s.locksUntilMs.get? key with
  | none => (s, false)
  | some expiresAt =>
    if expiresAt ≤ nowMs then ({ s with locksUntilMs := s.locksUntilMs.erase key }, false)
    else (s, true)

/-- `clear_failure`. -/
def clearFailure (s : InProcess) (countKey lockKey : String) : InProcess :=
  ⟨s.buckets.erase countKey, s.locksUntilMs.erase lockKey⟩

/-- What one more hit makes of a bucket. -/
theorem bucketCountAfterHit_eq (p : InProcess) (key : String) (w : Nat) (now : Nat) :
    p.bucketCountAfterHit key w now =
      ({ p with buckets := p.buckets.set key ((p.bucket key).filter (recent (w * 1000) now) ++ [now]) },
        ((p.bucket key).filter (recent (w * 1000) now)).length + 1) := by
  have hfilter : (p.bucket key).filter (fun ts : Nat => decide ((now : Int) - w * 1000 < ts)) =
      (p.bucket key).filter (recent (w * 1000) now) := by
    refine List.filter_congr fun t _ => ?_
    rw [recent, decide_eq_decide]
    omega
  simp [InProcess.bucketCountAfterHit, hfilter]

theorem bucket_set (p : InProcess) (key : String) (ts : List Nat) (j : String) :
    ({ p with buckets := p.buckets.set key ts } : InProcess).bucket j =
      if j = key then ts else p.bucket j := by
  simp only [InProcess.bucket, Dict.get?_set]
  split <;> rfl

end InProcess

/-! ## Redis -/

inductive RedisValue where
  | number (n : Nat)
  | text (s : String)
  /-- Members with their scores. -/
  | sortedSet (members : List (String × Nat))

structure RedisEntry where
  value : RedisValue
  expiresAt : Option Nat

/-- A Redis server.  `edge` says whether a key is still there in the very millisecond at
which it expires, which its documentation leaves open. -/
structure Redis where
  keys : Dict String RedisEntry
  edge : Bool

namespace Redis

def empty (edge : Bool) : Redis := ⟨.empty, edge⟩

/-- The time of expiry has not come. -/
def live (edge : Bool) (expiresAt : Option Nat) (nowMs : Nat) : Bool :=
  expiresAt.all fun t => decide (nowMs < t) || (edge && decide (nowMs = t))

/-- The entry of a key that has not expired. -/
def find? (r : Redis) (key : String) (nowMs : Nat) : Option RedisEntry :=
  (r.keys.get? key).filter fun e => live r.edge e.expiresAt nowMs

def put (r : Redis) (key : String) (e : RedisEntry) : Redis :=
  { r with keys := r.keys.set key e }

/-- `DEL`. -/
def delete (r : Redis) (key : String) : Redis := { r with keys := r.keys.erase key }

/-- `EXISTS`. -/
def exists? (r : Redis) (key : String) (nowMs : Nat) : Bool := (r.find? key nowMs).isSome

/-- `EXPIRE`; a time that is not in the future deletes the key. -/
def expire (r : Redis) (key : String) (seconds : Nat) (nowMs : Nat) : Redis :=
  match r.find? key nowMs with
  | none => r
  | some e =>
    if seconds = 0 then r.delete key
    else r.put key { e with expiresAt := some (nowMs + seconds * 1000) }

/-- `SETEX`. -/
def setex (r : Redis) (key : String) (seconds : Nat) (s : String) (nowMs : Nat) : Redis :=
  r.put key ⟨.text s, some (nowMs + seconds * 1000)⟩

/-- `INCR`; `none` where the value is no number. -/
def incr (r : Redis) (key : String) (nowMs : Nat) : Option (Redis × Nat) :=
  match r.find? key nowMs with
  | none => some (r.put key ⟨.number 1, none⟩, 1)
  | some ⟨.number n, expiresAt⟩ => some (r.put key ⟨.number (n + 1), expiresAt⟩, n + 1)
  | some _ => none

/-- The sorted set under a key; `none` where the value is something else. -/
def members (r : Redis) (key : String) (nowMs : Nat) : Option (List (String × Nat)) :=
  match r.find? key nowMs with
  | none => some []
  | some ⟨.sortedSet ms, _⟩ => some ms
  | some _ => none

/-- A sorted set is written back under its expiry; an empty one is no key. -/
def putMembers (r : Redis) (key : String) (ms : List (String × Nat)) (nowMs : Nat) : Redis :=
  if ms = [] then r.delete key
  else r.put key ⟨.sortedSet ms, (r.find? key nowMs).bind (·.expiresAt)⟩

/-- `ZREMRANGEBYSCORE`. -/
def zremrangebyscore (r : Redis) (key : String) (low high : Int) (nowMs : Nat) : Option Redis :=
  (r.members key nowMs).map fun ms =>
    r.putMembers key (ms.filter fun m => !(decide (low ≤ m.2) && decide ((m.2 : Int) ≤ high))) nowMs

/-- `ZADD` of one member: its score is set. -/
def zadd (r : Redis) (key : String) (member : String) (score : Nat) (nowMs : Nat) :
    Option Redis :=
  (r.members key nowMs).map fun ms =>
    r.putMembers key (ms.filter (fun m => m.1 ≠ member) ++ [(member, score)]) nowMs

/-- `ZCARD`. -/
def zcard (r : Redis) (key : String) (nowMs : Nat) : Option Nat :=
  (r.members key nowMs).map List.length

section Find

variable {r : Redis} {key : String} {now : Nat}

theorem find?_put (r : Redis) (key : String) (e : RedisEntry) (j : String) (now : Nat) :
    (r.put key e).find? j now =
      if j = key then (some e).filter fun e => live r.edge e.expiresAt now else r.find? j now := by
  rw [find?, put, Dict.get?_set, find?]
  split <;> rfl

theorem find?_delete (r : Redis) (key j : String) (now : Nat) :
    (r.delete key).find? j now = if j = key then none else r.find? j now := by
  rw [find?, delete, Dict.get?_erase, find?]
  split <;> rfl

/-- What was live stays so within the call. -/
theorem live_of_find? {e : RedisEntry} (h : r.find? key now = some e) :
    live r.edge e.expiresAt now = true := by
  rw [find?, Option.filter_eq_some_iff] at h
  exact h.2

theorem find?_put_live {e : RedisEntry} (h : live r.edge e.expiresAt now = true) :
    (r.put key e).find? key now = some e := by
  simp [find?_put, h]

/-- An expiry that is carried over has not come. -/
theorem live_carried (r : Redis) (key : String) (now : Nat) :
    live r.edge ((r.find? key now).bind (·.expiresAt)) now = true := by
  cases hfind : r.find? key now with
  | none => rfl
  | some e => exact live_of_find? hfind

end Find

end Redis

/-! ## the request budget -/

/-- `_sliding_window_hit` on Redis: one transaction; `none` where a command fails. -/
def redisHit (r : Redis) (key member : String) (maxRequests windowSeconds : Nat) (nowMs : Nat) :
    Option (Redis × Bool × Nat) := do
  let windowStartMs : Int := nowMs - windowSeconds * 1000
  let r ← r.zremrangebyscore key 0 windowStartMs nowMs
  let r ← r.zadd key member nowMs nowMs
  let count ← r.zcard key nowMs
  let r := r.expire key (windowSeconds + 60) nowMs
  return (r, decide (count ≤ maxRequests), maxRequests - count)

/-- What the calls work on: `get_redis_client()`, if it is configured, and `_in_process`. -/
structure Store where
  client : Option Redis
  inProcess : InProcess

/-- No counter is kept in the process. -/
def Store.ofProcess (s : InProcess) : Store := ⟨none, s⟩

/-- `_sliding_window_hit`; `member` is the `uuid4` of the call. -/
def slidingWindowHit (s : Store) (key member : String) (maxRequests windowSeconds : Nat)
    (nowMs : Nat) : Store × Bool × Nat :=
  let fallback : Store × Bool × Nat :=
    let (p, result) := s.inProcess.hit key maxRequests windowSeconds nowMs
    ({ s with inProcess := p }, result)
  match s.client with
  | none => fallback
  | some r =>
    match redisHit r key member maxRequests windowSeconds nowMs with
    | none => fallback
    | some (r, result) => ({ s with client := some r }, result)

/-! ## the failure lock -/

/-- `_FailureLockManager`. -/
structure FailureLockManager where
  keyPrefix : String
  threshold : Nat
  window : Nat
  lock : Nat
  window_pos : 0 < window
  lock_pos : 0 < lock

namespace FailureLockManager

variable (m : FailureLockManager)

/-- `_count_key`. -/
def countKey (subject : String) : String := m.keyPrefix ++ ":fails:" ++ subject

/-- `_lock_key`. -/
def lockKey (subject : String) : String := m.keyPrefix ++ ":lock:" ++ subject

/-- `is_locked`. -/
def isLocked (s : Store) (subject : String) (nowMs : Nat) : Store × Bool :=
  match s.client with
  | none =>
    let (p, locked) := s.inProcess.isLocked (m.lockKey subject) nowMs
    ({ s with inProcess := p }, locked)
  | some r => (s, r.exists? (m.lockKey subject) nowMs)

/-- `record_failure`: whether this failure tripped the lock. -/
def recordFailure (s : Store) (subject : String) (nowMs : Nat) : Store × Bool :=
  match s.client with
  | none =>
    let (p, tripped) := s.inProcess.failureHit (m.countKey subject) (m.lockKey subject)
      m.threshold m.window m.lock nowMs
    ({ s with inProcess := p }, tripped)
  | some r =>
    match r.incr (m.countKey subject) nowMs with
    | none => (s, false)
    | some (r, count) =>
      let r := r.expire (m.countKey subject) m.window nowMs
      if m.threshold ≤ count then
        ({ s with client := some (r.setex (m.lockKey subject) m.lock "1" nowMs) }, true)
      else ({ s with client := some r }, false)

/-- `record_success`: clear the failure counter after a successful attempt. -/
def recordSuccess (s : Store) (subject : String) : Store :=
  match s.client with
  | none => { s with inProcess := s.inProcess.clearFailure (m.countKey subject) (m.lockKey subject) }
  | some r => { s with client := some ((r.delete (m.countKey subject)).delete (m.lockKey subject)) }

end FailureLockManager

/-- `LOGIN_FAILURE_THRESHOLD`, `LOGIN_FAILURE_WINDOW_SECONDS`, `LOGIN_LOCK_SECONDS`. -/
def loginFailureThreshold : Nat := 3
def loginFailureWindowSeconds : Nat := 300
def loginLockSeconds : Nat := 300

/-- A manager with the default parameters. -/
def defaultManager (keyPrefix : String) : FailureLockManager :=
  { keyPrefix := keyPrefix, threshold := loginFailureThreshold, window := loginFailureWindowSeconds
    lock := loginLockSeconds, window_pos := by decide, lock_pos := by decide }

/-- `LoginLockManager`. -/
def loginLockManager : FailureLockManager := defaultManager "rate_limit:login"

/-- `SshChallengeLockManager`. -/
def sshChallengeLockManager : FailureLockManager := defaultManager "rate_limit:ssh_challenge"

end RateLimit

end CoreLab
