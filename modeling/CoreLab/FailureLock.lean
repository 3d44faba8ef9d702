import CoreLab.RateLimit
import Mathlib.Order.Nat

/-!
# CoreLab.FailureLock

The failure lock over any timed sequence of calls, on Redis and in the process, against
what it is for: a failure trips the lock when it completes `threshold` failures in the
window, and the lock holds for `lock` seconds.

* `results_inProcess` — the process counts the failures in the window;
* `results_redis` — Redis counts those of a chain without a gap of a window;
* `storesAgree_iff` — the sequences that this makes no difference to.
-/

namespace CoreLab

open SlidingWindow

namespace RateLimit

/-! ## calls -/

inductive Call where
  | recordFailure (subject : String)
  | recordSuccess (subject : String)
  | isLocked (subject : String)
deriving DecidableEq, Repr

structure TimedCall where
  nowMs : Nat
  call : Call
deriving DecidableEq, Repr

/-- One call; a success answers nothing. -/
def perform (m : FailureLockManager) (s : Store) (c : TimedCall) : Store × Option Bool :=
  match c.call with
  | .recordFailure subject =>
    let (s, tripped) := m.recordFailure s subject c.nowMs
    (s, some tripped)
  | .recordSuccess subject => (m.recordSuccess s subject, none)
  | .isLocked subject =>
    let (s, locked) := m.isLocked s subject c.nowMs
    (s, some locked)

/-- What one call after another returns. -/
def results (m : FailureLockManager) (s : Store) : List TimedCall → List (Option Bool)
  | [] => []
  | c :: cs =>
    let (s, result) := perform m s c
    result :: results m s cs

/-! ## what the lock is for -/

/-- A subject since its last success: its failures, the latest one first, and the last
of them that tripped the lock. -/
structure Record where
  failures : List Nat
  trip : Option Nat

namespace FailureLockManager

def windowMs (m : FailureLockManager) : Nat := m.window * 1000

def lockMs (m : FailureLockManager) : Nat := m.lock * 1000

end FailureLockManager

/-- A way to count the failures that are held against a subject, before a further one. -/
abbrev Count := List Nat → Nat → Nat

/-- The failures in the window that ends now. -/
def windowCount (m : FailureLockManager) : Count := fun failures now =>
  failures.countP (recent m.windowMs now)

/-- The failures of the last chain, in which each comes before the one before it has been
forgotten; `edge` says whether it is forgotten only after the window. -/
def chainCount (m : FailureLockManager) (edge : Bool) : Count
  | [], _ => 0
  | t :: ts, now =>
    if Redis.live edge (some (t + m.windowMs)) now then chainCount m edge ts t + 1 else 0

/-- A failure now would trip the lock. -/
def trips (m : FailureLockManager) (count : Count) (r : Record) (now : Nat) : Bool :=
  decide (m.threshold ≤ count r.failures now + 1)

/-- The lock holds. -/
def locked (m : FailureLockManager) (edge : Bool) (r : Record) (now : Nat) : Bool :=
  r.trip.any fun t => Redis.live edge (some (t + m.lockMs)) now

/-- The record of a subject after a call. -/
def Record.step (m : FailureLockManager) (count : Count) (subject : String) (r : Record)
    (c : TimedCall) : Record :=
  match c.call with
  | .recordFailure other =>
    if other = subject then
      { failures := c.nowMs :: r.failures
        trip := if trips m count r c.nowMs then some c.nowMs else r.trip }
    else r
  | .recordSuccess other => if other = subject then ⟨[], none⟩ else r
  | .isLocked _ => r

/-- The record of a subject after some calls. -/
def record (m : FailureLockManager) (count : Count) (before : List TimedCall) (subject : String) :
    Record :=
  before.foldl (Record.step m count subject) ⟨[], none⟩

/-- What a call returns by the record. -/
def expectedResult (m : FailureLockManager) (count : Count) (edge : Bool) (before : List TimedCall)
    (c : TimedCall) : Option Bool :=
  match c.call with
  | .recordFailure subject => some (trips m count (record m count before subject) c.nowMs)
  | .recordSuccess _ => none
  | .isLocked subject => some (locked m edge (record m count before subject) c.nowMs)

def expectedResults (m : FailureLockManager) (count : Count) (edge : Bool)
    (before : List TimedCall) : List TimedCall → List (Option Bool)
  | [] => []
  | c :: cs =>
    expectedResult m count edge before c :: expectedResults m count edge (before ++ [c]) cs

/-- Both stores return what the lock is for: a failure trips it exactly when it is at least
the `threshold`-th in the window since the last success, and it holds for `lock` seconds. -/
structure Agree (m : FailureLockManager) (edge : Bool) (cs : List TimedCall) : Prop where
  inProcess : results m (.ofProcess .empty) cs = expectedResults m (windowCount m) false [] cs
  redis : results m ⟨some (.empty edge), .empty⟩ cs = expectedResults m (windowCount m) false [] cs

/-- The counting makes no difference to a call: a failure that completes a chain of `threshold`
completes as many in the window, and the lock is not asked for in the millisecond it ends. -/
def ClearAt (m : FailureLockManager) (edge : Bool) (before : List TimedCall) (c : TimedCall) : Prop :=
  match c.call with
  | .recordFailure subject =>
    trips m (chainCount m edge) (record m (windowCount m) before subject) c.nowMs = true →
      trips m (windowCount m) (record m (windowCount m) before subject) c.nowMs = true
  | .recordSuccess _ => True
  | .isLocked subject =>
    edge = true → ∀ t ∈ (record m (windowCount m) before subject).trip, c.nowMs ≠ t + m.lockMs

/-- It makes none to any call of the sequence. -/
def Clear (m : FailureLockManager) (edge : Bool) (cs : List TimedCall) : Prop :=
  ∀ before c after, cs = before ++ c :: after → ClearAt m edge before c

instance (m : FailureLockManager) (edge : Bool) (before : List TimedCall) :
    ∀ c, Decidable (ClearAt m edge before c)
  | ⟨_, .recordFailure _⟩ => inferInstanceAs (Decidable (_ → _))
  | ⟨_, .recordSuccess _⟩ => inferInstanceAs (Decidable True)
  | ⟨_, .isLocked _⟩ => inferInstanceAs (Decidable (_ → _))

theorem clear_iff_forall_fin (m : FailureLockManager) (edge : Bool) (cs : List TimedCall) :
    Clear m edge cs ↔ ∀ i : Fin cs.length, ClearAt m edge (cs.take i) (cs.get i) := by
  constructor
  · intro h i
    exact h (cs.take i) (cs.get i) (cs.drop (i + 1)) (by simp)
  · rintro h before c after rfl
    have hc := h ⟨before.length, by simp⟩
    simpa using hc

instance (m : FailureLockManager) (edge : Bool) (cs : List TimedCall) :
    Decidable (Clear m edge cs) :=
  decidable_of_iff _ (clear_iff_forall_fin m edge cs).symm

variable {m : FailureLockManager}

theorem record_concat (count : Count) (before : List TimedCall) (c : TimedCall) (subject : String) :
    record m count (before ++ [c]) subject = (record m count before subject).step m count subject c := by
  simp [record]

/-! ## keys -/

namespace FailureLockManager

theorem append_left_inj {p a b : String} : p ++ a = p ++ b ↔ a = b := by
  constructor
  · intro h
    have hlist := congrArg String.toList h
    rw [String.toList_append, String.toList_append, List.append_cancel_left_eq] at hlist
    exact String.toList_inj.mp hlist
  · exact fun h => h ▸ rfl

@[simp] theorem countKey_inj {s t : String} : m.countKey s = m.countKey t ↔ s = t :=
  append_left_inj

@[simp] theorem lockKey_inj {s t : String} : m.lockKey s = m.lockKey t ↔ s = t :=
  append_left_inj

theorem countKey_ne_lockKey (s t : String) : m.countKey s ≠ m.lockKey t := by
  intro h
  have hlist := congrArg String.toList h
  simp [countKey, lockKey, String.toList_append] at hlist

end FailureLockManager

/-! ## in the process -/

/-- The buckets and the locks stand for the records. -/
structure ProcessRecords (m : FailureLockManager) (last : Nat) (p : InProcess)
    (recs : String → Record) : Prop where
  failures : ∀ subject,
    StandsFor m.windowMs last (p.bucket (m.countKey subject)) (recs subject).failures.reverse
  trip : ∀ subject now, last ≤ now →
    ((p.locksUntilMs.get? (m.lockKey subject)).any fun t => decide (now < t)) =
      locked m false (recs subject) now

theorem ProcessRecords.later {last now : Nat} {p : InProcess} {recs : String → Record}
    (h : ProcessRecords m last p recs) (hle : last ≤ now) : ProcessRecords m now p recs :=
  ⟨fun subject => (h.failures subject).later hle,
    fun subject later hlater => h.trip subject later (Nat.le_trans hle hlater)⟩

theorem bucket_clearFailure (p : InProcess) (countKey lockKey key : String) :
    (p.clearFailure countKey lockKey).bucket key = if key = countKey then [] else p.bucket key := by
  simp only [InProcess.bucket, InProcess.clearFailure, Dict.get?_erase]
  split <;> rfl

theorem locked_false (r : Record) (now : Nat) :
    locked m false r now = r.trip.any fun t => decide (now < t + m.lockMs) := by
  simp [locked, Redis.live]

theorem record_recordFailure (count : Count) (before : List TimedCall) (now : Nat)
    (subject other : String) :
    record m count (before ++ [⟨now, .recordFailure subject⟩]) other =
      if subject = other then
        { failures := now :: (record m count before other).failures
          trip := if trips m count (record m count before other) now then some now
            else (record m count before other).trip }
      else record m count before other := by
  rw [record_concat]
  rfl

theorem record_recordSuccess (count : Count) (before : List TimedCall) (now : Nat)
    (subject other : String) :
    record m count (before ++ [⟨now, .recordSuccess subject⟩]) other =
      if subject = other then ⟨[], none⟩ else record m count before other := by
  rw [record_concat]
  rfl

@[simp] theorem record_isLocked (count : Count) (before : List TimedCall) (now : Nat)
    (subject : String) :
    record m count (before ++ [⟨now, .isLocked subject⟩]) = record m count before := by
  funext other
  rw [record_concat]
  rfl

section Process

variable {last now : Nat} {p : InProcess} {before : List TimedCall}

/-- **A failure in the process** trips by the window. -/
theorem inProcess_recordFailure (hinv : ProcessRecords m last p (record m (windowCount m) before))
    (hle : last ≤ now) (subject : String) :
    ∃ p', p.failureHit (m.countKey subject) (m.lockKey subject) m.threshold m.window m.lock now =
        (p', trips m (windowCount m) (record m (windowCount m) before subject) now) ∧
      ProcessRecords m now p'
        (record m (windowCount m) (before ++ [⟨now, .recordFailure subject⟩])) := by
  have hcount := (hinv.failures subject).length_filter hle
  rw [List.countP_reverse] at hcount
  let kept := (p.bucket (m.countKey subject)).filter (recent m.windowMs now)
  let p₁ : InProcess := { p with buckets := p.buckets.set (m.countKey subject) (kept ++ [now]) }
  have hbuckets : ∀ other, StandsFor m.windowMs now (p₁.bucket (m.countKey other))
      (record m (windowCount m) (before ++ [⟨now, .recordFailure subject⟩]) other).failures.reverse := by
    intro other
    rw [InProcess.bucket_set, record_recordFailure]
    by_cases hother : subject = other
    · subst hother
      rw [if_pos rfl, if_pos rfl, List.reverse_cons]
      exact ((hinv.failures subject).prune hle).append _
    · rw [if_neg (by simpa using Ne.symm hother), if_neg hother]
      exact (hinv.failures other).later hle
  have hhit : p.failureHit (m.countKey subject) (m.lockKey subject) m.threshold m.window m.lock now =
      if trips m (windowCount m) (record m (windowCount m) before subject) now then
        ({ p₁ with locksUntilMs := p₁.locksUntilMs.set (m.lockKey subject) (now + m.lock * 1000) }, true)
      else (p₁, false) := by
    rw [InProcess.failureHit, InProcess.bucketCountAfterHit_eq, trips, windowCount, ← hcount]
    simp only [decide_eq_true_eq]
    rfl
  rw [hhit]
  cases htrips : trips m (windowCount m) (record m (windowCount m) before subject) now with
  | true =>
      refine ⟨_, rfl, hbuckets, fun other later hlater => ?_⟩
      rw [locked_false, Dict.get?_set, record_recordFailure]
      by_cases hother : subject = other
      · subst hother
        rw [if_pos rfl, if_pos rfl, if_pos htrips]
        rfl
      · rw [if_neg (by simpa using Ne.symm hother), if_neg hother, ← locked_false]
        exact hinv.trip other later (Nat.le_trans hle hlater)
  | false =>
      refine ⟨_, rfl, hbuckets, fun other later hlater => ?_⟩
      have hsame := hinv.trip other later (Nat.le_trans hle hlater)
      rw [locked_false] at hsame ⊢
      rw [record_recordFailure]
      by_cases hother : subject = other
      · subst hother
        rw [if_pos rfl, if_neg (by rw [htrips]; exact Bool.false_ne_true)]
        exact hsame
      · rw [if_neg hother]
        exact hsame

/-- **A success in the process** forgets the subject. -/
theorem inProcess_recordSuccess (hinv : ProcessRecords m last p (record m (windowCount m) before))
    (hle : last ≤ now) (subject : String) :
    ProcessRecords m now (p.clearFailure (m.countKey subject) (m.lockKey subject))
      (record m (windowCount m) (before ++ [⟨now, .recordSuccess subject⟩])) := by
  refine ⟨fun other => ?_, fun other later hlater => ?_⟩
  · rw [bucket_clearFailure, record_recordSuccess]
    by_cases hother : subject = other
    · subst hother
      rw [if_pos rfl, if_pos rfl]
      exact standsFor_refl _ _ _
    · rw [if_neg (by simpa using Ne.symm hother), if_neg hother]
      exact (hinv.failures other).later hle
  · rw [InProcess.clearFailure, Dict.get?_erase, record_recordSuccess]
    by_cases hother : subject = other
    · subst hother
      rw [if_pos rfl, if_pos rfl]
      rfl
    · rw [if_neg (by simpa using Ne.symm hother), if_neg hother]
      exact hinv.trip other later (Nat.le_trans hle hlater)

/-- **Asking the process** drops at most a lock that has run out. -/
theorem inProcess_isLocked (hinv : ProcessRecords m last p (record m (windowCount m) before))
    (hle : last ≤ now) (subject : String) :
    ∃ p', p.isLocked (m.lockKey subject) now =
        (p', locked m false (record m (windowCount m) before subject) now) ∧
      ProcessRecords m now p' (record m (windowCount m) before) := by
  have hsubject := hinv.trip subject now hle
  cases hlock : p.locksUntilMs.get? (m.lockKey subject) with
  | none =>
      rw [hlock, Option.any_none] at hsubject
      exact ⟨p, by rw [InProcess.isLocked, hlock, ← hsubject], hinv.later hle⟩
  | some expiresAt =>
      rw [hlock, Option.any_some] at hsubject
      by_cases hexpired : expiresAt ≤ now
      · refine ⟨{ p with locksUntilMs := p.locksUntilMs.erase (m.lockKey subject) }, ?_, ?_⟩
        · rw [InProcess.isLocked, hlock, ← hsubject, decide_eq_false (by omega)]
          exact if_pos hexpired
        · refine ⟨(hinv.later hle).failures, fun other later hlater => ?_⟩
          have hother := hinv.trip other later (Nat.le_trans hle hlater)
          rw [← hother, Dict.get?_erase]
          split
          · next hkey =>
              rw [hkey, hlock, Option.any_none, Option.any_some, decide_eq_false (by omega)]
          · rfl
      · refine ⟨p, ?_, hinv.later hle⟩
        rw [InProcess.isLocked, hlock, ← hsubject, decide_eq_true (by omega)]
        exact if_neg hexpired

theorem inProcess_perform {c : TimedCall}
    (hinv : ProcessRecords m last p (record m (windowCount m) before)) (hle : last ≤ c.nowMs) :
    ∃ p', perform m (.ofProcess p) c =
        (.ofProcess p', expectedResult m (windowCount m) false before c) ∧
      ProcessRecords m c.nowMs p' (record m (windowCount m) (before ++ [c])) := by
  obtain ⟨now, call⟩ := c
  cases call with
  | recordFailure subject =>
      obtain ⟨p', hhit, hinv'⟩ := inProcess_recordFailure hinv hle subject
      refine ⟨p', ?_, hinv'⟩
      simp [perform, FailureLockManager.recordFailure, Store.ofProcess, hhit, expectedResult]
  | recordSuccess subject => exact ⟨_, rfl, inProcess_recordSuccess hinv hle subject⟩
  | isLocked subject =>
      obtain ⟨p', hlocked, hinv'⟩ := inProcess_isLocked hinv hle subject
      refine ⟨p', ?_, by rwa [record_isLocked]⟩
      simp [perform, FailureLockManager.isLocked, Store.ofProcess, hlocked, expectedResult]

theorem results_of_processRecords {cs : List TimedCall}
    (hinv : ProcessRecords m last p (record m (windowCount m) before))
    (hsorted : cs.Pairwise fun c d => c.nowMs ≤ d.nowMs) (hlast : ∀ c ∈ cs, last ≤ c.nowMs) :
    results m (.ofProcess p) cs = expectedResults m (windowCount m) false before cs := by
  induction cs generalizing p last before with
  | nil => rfl
  | cons c cs ih =>
      rw [List.pairwise_cons] at hsorted
      obtain ⟨p', hperform, hinv'⟩ := inProcess_perform hinv (hlast c List.mem_cons_self)
      rw [results, hperform, expectedResults]
      exact congrArg _ (ih hinv' hsorted.2 hsorted.1)

/-- **The process** counts the failures in the window. -/
theorem results_inProcess {cs : List TimedCall}
    (hsorted : cs.Pairwise fun c d => c.nowMs ≤ d.nowMs) :
    results m (.ofProcess .empty) cs = expectedResults m (windowCount m) false [] cs :=
  results_of_processRecords ⟨fun _ => standsFor_refl _ _ _, fun _ _ _ => rfl⟩ hsorted
    fun _ _ => Nat.zero_le _

end Process

/-! ## on Redis -/

/-- The keys of a subject: the length of its chain, which expires with the window after its
last failure, and the lock. -/
structure RedisRecord (m : FailureLockManager) (edge : Bool) (r : Redis) (subject : String)
    (rec : Record) : Prop where
  count : r.keys.get? (m.countKey subject) = rec.failures.head?.map fun t =>
    ⟨.number (chainCount m edge rec.failures.tail t + 1), some (t + m.windowMs)⟩
  lock : r.keys.get? (m.lockKey subject) = rec.trip.map fun t => ⟨.text "1", some (t + m.lockMs)⟩

section OnRedis

variable {edge : Bool} {now : Nat} {r : Redis} {before : List TimedCall}

/-- The records are on Redis. -/
structure RedisRecords (m : FailureLockManager) (edge : Bool) (r : Redis)
    (recs : String → Record) : Prop where
  edge_eq : r.edge = edge
  subjects : ∀ subject, RedisRecord m edge r subject (recs subject)

/-- A count that is not forgotten is that of the chain. -/
theorem find?_countKey {rec : Record} {subject : String} (hedge : r.edge = edge)
    (h : RedisRecord m edge r subject rec) (now : Nat) :
    r.find? (m.countKey subject) now =
      if chainCount m edge rec.failures now = 0 then none
      else rec.failures.head?.map fun t =>
        ⟨.number (chainCount m edge rec.failures now), some (t + m.windowMs)⟩ := by
  rw [Redis.find?, h.count]
  cases hfailures : rec.failures with
  | nil => rfl
  | cons t ts =>
      simp only [List.head?_cons, List.tail_cons, Option.map_some, chainCount, hedge]
      by_cases hlive : Redis.live edge (some (t + m.windowMs)) now = true
      · simp [hlive]
      · simp [hlive]

/-- `INCR` goes on with the chain. -/
theorem incr_countKey {rec : Record} {subject : String} (hedge : r.edge = edge)
    (h : RedisRecord m edge r subject rec) (now : Nat) :
    ∃ expiresAt, Redis.live r.edge expiresAt now = true ∧
      r.incr (m.countKey subject) now =
        some (r.put (m.countKey subject) ⟨.number (chainCount m edge rec.failures now + 1), expiresAt⟩,
          chainCount m edge rec.failures now + 1) := by
  have hfind := find?_countKey hedge h now
  by_cases hzero : chainCount m edge rec.failures now = 0
  · rw [if_pos hzero] at hfind
    exact ⟨none, rfl, by rw [Redis.incr, hfind, hzero]⟩
  · rw [if_neg hzero] at hfind
    cases hfailures : rec.failures with
    | nil => exact absurd (by rw [hfailures, chainCount]) hzero
    | cons t ts =>
        rw [hfailures, List.head?_cons, Option.map_some] at hfind
        exact ⟨some (t + m.windowMs), Redis.live_of_find? hfind, by rw [Redis.incr, hfind]⟩

/-- The count after one more failure, which expires a window later. -/
theorem expire_countKey (m : FailureLockManager) (key : String) (value : RedisValue)
    {expiresAt : Option Nat} (hlive : Redis.live r.edge expiresAt now = true) :
    ∃ r', (r.put key ⟨value, expiresAt⟩).expire key m.window now = r' ∧ r'.edge = r.edge ∧
      ∀ other, r'.keys.get? other =
        if other = key then some ⟨value, some (now + m.windowMs)⟩ else r.keys.get? other := by
  refine ⟨_, rfl, ?_, fun other => ?_⟩
  · rw [Redis.expire, Redis.find?_put_live hlive]
    dsimp only
    rw [if_neg m.window_pos.ne']
    rfl
  · rw [Redis.expire, Redis.find?_put_live hlive]
    dsimp only
    rw [if_neg m.window_pos.ne', Redis.put, Redis.put, Dict.get?_set, Dict.get?_set]
    split <;> rfl

/-- **A failure on Redis** trips by the chain. -/
theorem redis_recordFailure (p : InProcess) (now : Nat)
    (hinv : RedisRecords m edge r (record m (chainCount m edge) before)) (subject : String) :
    ∃ r', m.recordFailure ⟨some r, p⟩ subject now =
        (⟨some r', p⟩,
          trips m (chainCount m edge) (record m (chainCount m edge) before subject) now) ∧
      RedisRecords m edge r'
        (record m (chainCount m edge) (before ++ [⟨now, .recordFailure subject⟩])) := by
  have hsubject := hinv.subjects subject
  obtain ⟨expiresAt, hlive, hincr⟩ := incr_countKey hinv.edge_eq hsubject now
  obtain ⟨r₁, hexpire, hedge, hkeys⟩ := expire_countKey m (m.countKey subject)
    (.number (chainCount m edge (record m (chainCount m edge) before subject).failures now + 1)) hlive
  have hcounts : ∀ other, r₁.keys.get? (m.countKey other) =
      (record m (chainCount m edge)
        (before ++ [⟨now, .recordFailure subject⟩]) other).failures.head?.map fun t =>
          ⟨.number (chainCount m edge (record m (chainCount m edge)
            (before ++ [⟨now, .recordFailure subject⟩]) other).failures.tail t + 1),
              some (t + m.windowMs)⟩ := by
    intro other
    rw [hkeys, record_recordFailure]
    by_cases hother : subject = other
    · subst hother
      rw [if_pos rfl, if_pos rfl]
      rfl
    · rw [if_neg (by simpa using Ne.symm hother), if_neg hother]
      exact (hinv.subjects other).count
  have hlocks : ∀ other, r₁.keys.get? (m.lockKey other) =
      (record m (chainCount m edge) before other).trip.map fun t =>
        ⟨.text "1", some (t + m.lockMs)⟩ := by
    intro other
    rw [hkeys, if_neg (m.countKey_ne_lockKey subject other).symm]
    exact (hinv.subjects other).lock
  have hfailure : m.recordFailure ⟨some r, p⟩ subject now =
      if trips m (chainCount m edge) (record m (chainCount m edge) before subject) now then
        (⟨some (r₁.setex (m.lockKey subject) m.lock "1" now), p⟩, true)
      else (⟨some r₁, p⟩, false) := by
    simp only [FailureLockManager.recordFailure, hincr, hexpire, trips, decide_eq_true_eq]
  rw [hfailure]
  cases htrips : trips m (chainCount m edge) (record m (chainCount m edge) before subject) now with
  | true =>
      refine ⟨_, rfl, hedge.trans hinv.edge_eq, fun other => ⟨?_, ?_⟩⟩
      · rw [Redis.setex, Redis.put, Dict.get?_set, if_neg (m.countKey_ne_lockKey other subject)]
        exact hcounts other
      · rw [Redis.setex, Redis.put, Dict.get?_set, record_recordFailure]
        by_cases hother : subject = other
        · subst hother
          rw [if_pos rfl, if_pos rfl, if_pos htrips]
          rfl
        · rw [if_neg (by simpa using Ne.symm hother), if_neg hother]
          exact hlocks other
  | false =>
      refine ⟨_, rfl, hedge.trans hinv.edge_eq, fun other => ⟨hcounts other, ?_⟩⟩
      rw [hlocks, record_recordFailure]
      by_cases hother : subject = other
      · subst hother
        rw [if_pos rfl, if_neg (by rw [htrips]; exact Bool.false_ne_true)]
      · rw [if_neg hother]

/-- **A success on Redis** forgets the subject. -/
theorem redis_recordSuccess (hinv : RedisRecords m edge r (record m (chainCount m edge) before))
    (now : Nat) (subject : String) :
    RedisRecords m edge ((r.delete (m.countKey subject)).delete (m.lockKey subject))
      (record m (chainCount m edge) (before ++ [⟨now, .recordSuccess subject⟩])) := by
  refine ⟨hinv.edge_eq, fun other => ⟨?_, ?_⟩⟩
  · rw [Redis.delete, Dict.get?_erase, if_neg (m.countKey_ne_lockKey other subject), Redis.delete,
      Dict.get?_erase, record_recordSuccess]
    by_cases hother : subject = other
    · subst hother
      rw [if_pos rfl, if_pos rfl]
      rfl
    · rw [if_neg (by simpa using Ne.symm hother), if_neg hother]
      exact (hinv.subjects other).count
  · rw [Redis.delete, Dict.get?_erase, record_recordSuccess]
    by_cases hother : subject = other
    · subst hother
      rw [if_pos rfl, if_pos rfl]
      rfl
    · rw [if_neg (by simpa using Ne.symm hother), if_neg hother, Redis.delete, Dict.get?_erase,
        if_neg (m.countKey_ne_lockKey subject other).symm]
      exact (hinv.subjects other).lock

theorem exists?_lockKey (hinv : RedisRecords m edge r (record m (chainCount m edge) before))
    (subject : String) (now : Nat) :
    r.exists? (m.lockKey subject) now =
      locked m edge (record m (chainCount m edge) before subject) now := by
  rw [Redis.exists?, Redis.find?, (hinv.subjects subject).lock, locked, hinv.edge_eq]
  cases (record m (chainCount m edge) before subject).trip with
  | none => rfl
  | some t =>
      rw [Option.map_some, Option.any_some, Option.isSome_filter]
      rfl

theorem redis_perform (p : InProcess) (c : TimedCall)
    (hinv : RedisRecords m edge r (record m (chainCount m edge) before)) :
    ∃ r', perform m ⟨some r, p⟩ c = (⟨some r', p⟩, expectedResult m (chainCount m edge) edge before c) ∧
      RedisRecords m edge r' (record m (chainCount m edge) (before ++ [c])) := by
  obtain ⟨now, call⟩ := c
  cases call with
  | recordFailure subject =>
      obtain ⟨r', hfailure, hinv'⟩ := redis_recordFailure p now hinv subject
      exact ⟨r', by simp only [perform, hfailure, expectedResult], hinv'⟩
  | recordSuccess subject => exact ⟨_, rfl, redis_recordSuccess hinv now subject⟩
  | isLocked subject =>
      refine ⟨r, ?_, by rwa [record_isLocked]⟩
      simp only [perform, FailureLockManager.isLocked, expectedResult, exists?_lockKey hinv]

theorem results_of_redisRecords {p : InProcess}
    (hinv : RedisRecords m edge r (record m (chainCount m edge) before)) (cs : List TimedCall) :
    results m ⟨some r, p⟩ cs = expectedResults m (chainCount m edge) edge before cs := by
  induction cs generalizing r before with
  | nil => rfl
  | cons c cs ih =>
      obtain ⟨r', hperform, hinv'⟩ := redis_perform p c hinv
      rw [results, hperform, expectedResults]
      exact congrArg _ (ih hinv')

/-- **Redis** counts the failures of a chain. -/
theorem results_redis (m : FailureLockManager) (edge : Bool) (cs : List TimedCall) :
    results m ⟨some (.empty edge), .empty⟩ cs =
      expectedResults m (chainCount m edge) edge [] cs :=
  results_of_redisRecords ⟨rfl, fun _ => ⟨rfl, rfl⟩⟩ cs

end OnRedis

/-! ## windows and chains -/

/-- The failures of a record are times of calls, the latest one first. -/
theorem failures_sublist (count : Count) (before : List TimedCall) (subject : String) :
    (record m count before subject).failures.Sublist (before.map (·.nowMs)).reverse := by
  induction before using List.reverseRecOn with
  | nil => exact List.Sublist.refl _
  | append_singleton before c ih =>
      rw [record_concat, List.map_append, List.map_singleton, List.reverse_append,
        List.reverse_singleton, List.singleton_append, Record.step]
      split
      · split
        · exact ih.cons_cons _
        · exact ih.cons _
      · split
        · exact List.nil_sublist _
        · exact ih.cons _
      · exact ih.cons _

/-- A chain misses no failure of the window. -/
theorem windowCount_le_chainCount (edge : Bool) {failures : List Nat} {now : Nat}
    (hsorted : (now :: failures).Pairwise (· ≥ ·)) :
    windowCount m failures now ≤ chainCount m edge failures now := by
  induction failures generalizing now with
  | nil => exact Nat.le_refl _
  | cons t ts ih =>
      rw [List.pairwise_cons] at hsorted
      obtain ⟨hnow, hts⟩ := hsorted
      have hlast : t ≤ now := hnow t List.mem_cons_self
      rw [windowCount, List.countP_cons]
      by_cases hrecent : recent m.windowMs now t = true
      · have hlive : Redis.live edge (some (t + m.windowMs)) now = true := by
          simp only [recent, decide_eq_true_eq] at hrecent
          simp [Redis.live, hrecent]
        have hmono : ts.countP (recent m.windowMs now) ≤ ts.countP (recent m.windowMs t) :=
          List.countP_mono_left fun u _ hu => recent_mono hlast hu
        have hchain := ih hts
        rw [windowCount] at hchain
        rw [if_pos hrecent, chainCount, if_pos hlive]
        omega
      · -- what came before is even older
        have hnone : ts.countP (recent m.windowMs now) = 0 := by
          rw [List.countP_eq_zero]
          intro u hu
          have hle : u ≤ t := (List.pairwise_cons.mp hts).1 u hu
          simp only [recent, decide_eq_true_eq] at hrecent ⊢
          omega
        rw [if_neg hrecent, hnone]
        exact Nat.zero_le _

theorem trips_chainCount_of_windowCount (edge : Bool) {before : List TimedCall} {now : Nat}
    {subject : String} {count : Count}
    (hsorted : (before.map (·.nowMs) ++ [now]).Pairwise (· ≤ ·))
    (h : trips m (windowCount m) (record m count before subject) now = true) :
    trips m (chainCount m edge) (record m count before subject) now = true := by
  have hfailures : (now :: (record m count before subject).failures).Pairwise (· ≥ ·) := by
    have hreverse := List.pairwise_reverse.mpr hsorted
    rw [List.reverse_append, List.reverse_singleton, List.singleton_append] at hreverse
    exact hreverse.sublist ((failures_sublist count before subject).cons_cons now)
  have hle := windowCount_le_chainCount (m := m) edge hfailures
  simp only [trips, decide_eq_true_eq] at h ⊢
  omega

/-! ## either store -/

/-- A new store: on Redis, which keeps a key in the millisecond of its expiry or not, or in the
process. -/
def Store.start : Option Bool → Store
  | none => .ofProcess .empty
  | some edge => ⟨some (.empty edge), .empty⟩

/-- How the failures are counted. -/
def countOf (m : FailureLockManager) : Option Bool → Count
  | none => windowCount m
  | some edge => chainCount m edge

/-- The store has the records of the calls so far. -/
def Holds (m : FailureLockManager) (backend : Option Bool) (last : Nat) (before : List TimedCall)
    (s : Store) : Prop :=
  match backend with
  | none => ∃ p, s = .ofProcess p ∧ ProcessRecords m last p (record m (windowCount m) before)
  | some edge => ∃ r p, s = ⟨some r, p⟩ ∧ RedisRecords m edge r (record m (chainCount m edge) before)

theorem holds_start (m : FailureLockManager) (backend : Option Bool) :
    Holds m backend 0 [] (.start backend) := by
  cases backend with
  | none => exact ⟨_, rfl, fun _ => standsFor_refl _ _ _, fun _ _ _ => rfl⟩
  | some edge => exact ⟨_, _, rfl, rfl, fun _ => ⟨rfl, rfl⟩⟩

theorem Holds.later {backend : Option Bool} {last now : Nat} {before : List TimedCall} {s : Store}
    (h : Holds m backend last before s) (hle : last ≤ now) : Holds m backend now before s := by
  cases backend with
  | none =>
      obtain ⟨p, hs, hrecords⟩ := h
      exact ⟨p, hs, hrecords.later hle⟩
  | some edge => exact h

/-- **A call on either store** goes by the record. -/
theorem Holds.perform {backend : Option Bool} {last : Nat} {before : List TimedCall} {s : Store}
    (h : Holds m backend last before s) {c : TimedCall} (hle : last ≤ c.nowMs) :
    ∃ s', RateLimit.perform m s c =
        (s', expectedResult m (countOf m backend) (backend.getD false) before c) ∧
      Holds m backend c.nowMs (before ++ [c]) s' := by
  cases backend with
  | none =>
      obtain ⟨p, rfl, hrecords⟩ := h
      obtain ⟨p', hperform, hrecords'⟩ := inProcess_perform hrecords hle
      exact ⟨_, hperform, p', rfl, hrecords'⟩
  | some edge =>
      obtain ⟨r, p, rfl, hrecords⟩ := h
      obtain ⟨r', hperform, hrecords'⟩ := redis_perform p c hrecords
      exact ⟨_, hperform, r', p, rfl, hrecords'⟩

/-- **A failure that completes a window** trips the lock on either store. -/
theorem trips_countOf (backend : Option Bool) {before : List TimedCall} {now : Nat}
    {subject : String} {count : Count}
    (hsorted : (before.map (·.nowMs) ++ [now]).Pairwise (· ≤ ·))
    (h : trips m (windowCount m) (record m count before subject) now = true) :
    trips m (countOf m backend) (record m count before subject) now = true := by
  cases backend with
  | none => exact h
  | some edge => exact trips_chainCount_of_windowCount edge hsorted h

/-- A lock that was tripped lately holds on either store. -/
theorem locked_of_trip {edge : Bool} {r : Record} {t now : Nat} (htrip : r.trip = some t)
    (hlate : now < t + m.lockMs) : locked m edge r now = true := by
  simp [locked, htrip, Redis.live, hlate]

/-! ## where they agree -/

theorem locked_eq_iff (m : FailureLockManager) (edge : Bool) (r : Record) (now : Nat) :
    locked m edge r now = locked m false r now ↔
      (edge = true → ∀ t ∈ r.trip, now ≠ t + m.lockMs) := by
  rw [locked_false, locked]
  cases r.trip with
  | none => simp
  | some t =>
      cases edge with
      | false => simp [Redis.live]
      | true =>
          simp only [Redis.live, Option.any_some, Option.all_some, Bool.true_and]
          rw [Bool.eq_iff_iff]
          simp only [Bool.or_eq_true, decide_eq_true_eq, forall_const, Option.mem_def,
            Option.some.injEq, forall_eq']
          omega

/-- **One call** returns the same exactly where the counting makes no difference. -/
theorem expectedResult_eq_iff (edge : Bool) {before : List TimedCall} {c : TimedCall}
    (hrecords : record m (chainCount m edge) before = record m (windowCount m) before)
    (hsorted : ((before ++ [c]).map (·.nowMs)).Pairwise (· ≤ ·)) :
    expectedResult m (chainCount m edge) edge before c =
        expectedResult m (windowCount m) false before c ↔ ClearAt m edge before c := by
  obtain ⟨now, call⟩ := c
  rw [List.map_append] at hsorted
  cases call with
  | recordFailure subject =>
      simp only [expectedResult, ClearAt, hrecords, Option.some.injEq]
      rw [Bool.eq_iff_iff]
      exact ⟨fun h => h.mp, fun h => ⟨h, trips_chainCount_of_windowCount edge hsorted⟩⟩
  | recordSuccess subject => simp [expectedResult, ClearAt]
  | isLocked subject =>
      simp only [expectedResult, ClearAt, hrecords, Option.some.injEq]
      exact locked_eq_iff m edge _ now

/-- The records go on alike after such a call. -/
theorem record_eq_of_clearAt (edge : Bool) {before : List TimedCall} {c : TimedCall}
    (hrecords : record m (chainCount m edge) before = record m (windowCount m) before)
    (hsorted : ((before ++ [c]).map (·.nowMs)).Pairwise (· ≤ ·)) (hclear : ClearAt m edge before c) :
    record m (chainCount m edge) (before ++ [c]) = record m (windowCount m) (before ++ [c]) := by
  have hresult := (expectedResult_eq_iff edge hrecords hsorted).mpr hclear
  obtain ⟨now, call⟩ := c
  funext other
  cases call with
  | recordFailure subject =>
      rw [record_recordFailure, record_recordFailure, hrecords]
      by_cases hother : subject = other
      · subst hother
        simp only [expectedResult, hrecords, Option.some.injEq] at hresult
        rw [hresult]
      · rw [if_neg hother, if_neg hother]
  | recordSuccess subject => rw [record_recordSuccess, record_recordSuccess, hrecords]
  | isLocked subject => rw [record_isLocked, record_isLocked, hrecords]

theorem expectedResults_eq_iff (edge : Bool) {before cs : List TimedCall}
    (hrecords : record m (chainCount m edge) before = record m (windowCount m) before)
    (hsorted : ((before ++ cs).map (·.nowMs)).Pairwise (· ≤ ·)) :
    expectedResults m (chainCount m edge) edge before cs =
        expectedResults m (windowCount m) false before cs ↔
      ∀ pre c post, cs = pre ++ c :: post → ClearAt m edge (before ++ pre) c := by
  induction cs generalizing before with
  | nil => simp [expectedResults]
  | cons c cs ih =>
      have hassoc : before ++ c :: cs = (before ++ [c]) ++ cs := by simp
      rw [hassoc] at hsorted
      have hnow : ((before ++ [c]).map (·.nowMs)).Pairwise (· ≤ ·) := by
        rw [List.map_append] at hsorted
        exact (List.pairwise_append.mp hsorted).1
      have hhead := expectedResult_eq_iff edge hrecords hnow
      rw [expectedResults, expectedResults, List.cons.injEq, hhead]
      constructor
      · rintro ⟨hclear, htail⟩ pre d post heq
        have hrest := (ih (record_eq_of_clearAt edge hrecords hnow hclear) hsorted).mp htail
        cases pre with
        | nil =>
            obtain ⟨rfl, -⟩ := List.cons.inj heq
            rwa [List.append_nil]
        | cons e pre =>
            obtain ⟨rfl, rfl⟩ := List.cons.inj heq
            have hd := hrest pre d post rfl
            rwa [List.append_assoc, List.singleton_append] at hd
      · intro hall
        have hclear := hall [] c cs rfl
        rw [List.append_nil] at hclear
        refine ⟨hclear, (ih (record_eq_of_clearAt edge hrecords hnow hclear) hsorted).mpr ?_⟩
        intro pre d post heq
        rw [List.append_assoc, List.singleton_append]
        exact hall (c :: pre) d post (by rw [heq, List.cons_append])

/-- **The two stores agree** with what the lock is for exactly on the sequences in which every
failure that completes a chain completes a window, and no lock is asked for as it ends. -/
theorem storesAgree_iff (m : FailureLockManager) (edge : Bool) {cs : List TimedCall}
    (hsorted : cs.Pairwise fun c d => c.nowMs ≤ d.nowMs) : Agree m edge cs ↔ Clear m edge cs := by
  have hempty : record m (chainCount m edge) [] = record m (windowCount m) [] := rfl
  have htimes : ((([] : List TimedCall) ++ cs).map (·.nowMs)).Pairwise (· ≤ ·) := by
    rwa [List.nil_append, List.pairwise_map]
  have hclear := expectedResults_eq_iff edge hempty htimes
  rw [← results_redis] at hclear
  exact ⟨fun h => hclear.mp h.redis, fun h => ⟨results_inProcess hsorted, hclear.mpr h⟩⟩

/-- Two failures, a success and a failure. -/
theorem storesAgree_cleared : Agree loginLockManager true
    [⟨0, .recordFailure "alice:ip"⟩, ⟨1000, .recordFailure "alice:ip"⟩,
      ⟨2000, .recordSuccess "alice:ip"⟩, ⟨3000, .recordFailure "alice:ip"⟩] := by
  exact (storesAgree_iff loginLockManager true (by decide)).mpr (by decide +kernel)

/-- Three failures, four minutes apart each: two in any window, one chain. -/
theorem not_storesAgree : ¬ ∀ (m : FailureLockManager) (edge : Bool) (cs : List TimedCall),
    cs.Pairwise (fun c d => c.nowMs ≤ d.nowMs) → Agree m edge cs := by
  intro hall
  have hagree := hall loginLockManager false
    [⟨0, .recordFailure "alice:ip"⟩, ⟨240000, .recordFailure "alice:ip"⟩,
      ⟨480000, .recordFailure "alice:ip"⟩] (by decide)
  have hredis := hagree.redis
  rw [← hagree.inProcess] at hredis
  revert hredis
  decide +kernel

end RateLimit

end CoreLab
