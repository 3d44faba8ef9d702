import CoreLab.RateLimit
import Mathlib.Order.Nat

/-!
# CoreLab.RequestBudget

The request budget over any sequence of hits on any keys, on either store.

* `answers_inProcess`, `answers_redis` — both answer by the number of hits on the key in
  the window that ends at the hit;
* `budget` — no window lets more through than it may, nothing is refused before, and no
  key affects another.
-/

namespace CoreLab

open SlidingWindow

namespace RateLimit

/-! ## hits -/

structure Quota where
  maxRequests : Nat
  windowSeconds : Nat

def Quota.windowMs (q : Quota) : Nat := q.windowSeconds * 1000

/-- One call of `_sliding_window_hit`. -/
structure Hit where
  key : String
  member : String
  nowMs : Nat
deriving DecidableEq, Repr

/-- What `_sliding_window_hit` answers to one hit after another. -/
def answers (quota : String → Quota) (s : Store) : List Hit → List (Bool × Nat)
  | [] => []
  | h :: hs =>
    let (s, answer) := slidingWindowHit s h.key h.member (quota h.key).maxRequests
      (quota h.key).windowSeconds h.nowMs
    answer :: answers quota s hs

/-- The counters after these hits. -/
def storeAfter (quota : String → Quota) (s : Store) : List Hit → Store
  | [] => s
  | h :: hs => storeAfter quota (slidingWindowHit s h.key h.member (quota h.key).maxRequests
      (quota h.key).windowSeconds h.nowMs).1 hs

/-- The times of the hits on a key. -/
def times (hs : List Hit) (key : String) : List Nat :=
  (hs.filter fun h => h.key = key).map (·.nowMs)

/-- The hits on its key in the half-open window that ends at a hit, itself included. -/
def countAt (quota : String → Quota) (before : List Hit) (h : Hit) : Nat :=
  (times before h.key).countP (recent (quota h.key).windowMs h.nowMs) + 1

/-- The answer to a hit with so many in its window. -/
def answerTo (q : Quota) (count : Nat) : Bool × Nat :=
  (decide (count ≤ q.maxRequests), q.maxRequests - count)

/-- The answers by the windows. -/
def expected (quota : String → Quota) (before : List Hit) : List Hit → List (Bool × Nat)
  | [] => []
  | h :: hs => answerTo (quota h.key) (countAt quota before h) :: expected quota (before ++ [h]) hs

/-- What is promised of the answers to some hits. -/
structure Budget (quota : String → Quota) (s : Store) (hs : List Hit) : Prop where
  bounded : ∀ key a, (hs.zip (answers quota s hs)).countP (fun p =>
    decide (p.1.key = key) && (p.2.1 && within (quota key).windowMs a p.1.nowMs)) ≤
      (quota key).maxRequests
  refused : ∀ before h after left, hs = before ++ h :: after →
    (answers quota s hs)[before.length]? = some (false, left) →
      (quota h.key).maxRequests < countAt quota before h
  separate : ∀ key, answers quota s (hs.filter fun h => h.key = key) =
    ((hs.zip (answers quota s hs)).filter fun p => p.1.key = key).map (·.2)

/-- The hits come one after another, each with a member of its own. -/
structure InOrder (hs : List Hit) : Prop where
  sorted : hs.Pairwise fun g h => g.nowMs ≤ h.nowMs
  distinct : (hs.map (·.member)).Nodup

variable {quota : String → Quota}

theorem times_concat (hs : List Hit) (h : Hit) (key : String) :
    times (hs ++ [h]) key = times hs key ++ if h.key = key then [h.nowMs] else [] := by
  unfold times
  by_cases hk : h.key = key <;> simp [hk]

/-! ## in the process -/

/-- The buckets stand for the hits so far. -/
def ProcessInv (quota : String → Quota) (last : Nat) (p : InProcess) (before : List Hit) : Prop :=
  ∀ key, StandsFor (quota key).windowMs last (p.bucket key) (times before key)

theorem processInv_empty : ProcessInv quota 0 .empty [] := fun _ => standsFor_refl _ _ _

/-- **A hit in the process** is answered by its window. -/
theorem inProcess_hit {p : InProcess} {last : Nat} {before : List Hit} {h : Hit}
    (hinv : ProcessInv quota last p before) (hle : last ≤ h.nowMs) :
    ∃ p', p.hit h.key (quota h.key).maxRequests (quota h.key).windowSeconds h.nowMs =
        (p', answerTo (quota h.key) (countAt quota before h)) ∧
      ProcessInv quota h.nowMs p' (before ++ [h]) := by
  have hcount := (hinv h.key).length_filter hle
  let kept := (p.bucket h.key).filter (recent (quota h.key).windowMs h.nowMs)
  refine ⟨{ p with buckets := p.buckets.set h.key (kept ++ [h.nowMs]) }, ?_, fun key => ?_⟩
  · rw [InProcess.hit, InProcess.bucketCountAfterHit_eq, countAt, ← hcount]
    rfl
  · rw [InProcess.bucket_set, times_concat]
    split
    · next hk =>
        subst hk
        rw [if_pos rfl]
        exact ((hinv h.key).prune hle).append _
    · next hk =>
        rw [if_neg (Ne.symm hk), List.append_nil]
        exact (hinv key).later hle

theorem answers_of_processInv {p : InProcess} {last : Nat} {before hs : List Hit}
    (hinv : ProcessInv quota last p before)
    (hsorted : hs.Pairwise fun g h => g.nowMs ≤ h.nowMs) (hlast : ∀ h ∈ hs, last ≤ h.nowMs) :
    answers quota (.ofProcess p) hs = expected quota before hs := by
  induction hs generalizing p last before with
  | nil => rfl
  | cons h hs ih =>
      rw [List.pairwise_cons] at hsorted
      obtain ⟨p', hhit, hinv'⟩ := inProcess_hit hinv (hlast h List.mem_cons_self)
      have hstep : slidingWindowHit (.ofProcess p) h.key h.member (quota h.key).maxRequests
          (quota h.key).windowSeconds h.nowMs =
            (.ofProcess p', answerTo (quota h.key) (countAt quota before h)) := by
        simp [slidingWindowHit, Store.ofProcess, hhit]
      rw [answers, hstep, expected]
      exact congrArg _ (ih hinv' hsorted.2 hsorted.1)

/-- **The answers of the process** are those by the windows. -/
theorem answers_inProcess {hs : List Hit} (hsorted : hs.Pairwise fun g h => g.nowMs ≤ h.nowMs) :
    answers quota (.ofProcess .empty) hs = expected quota [] hs :=
  answers_of_processInv processInv_empty hsorted fun _ _ => Nat.zero_le _

/-! ## on Redis -/

namespace Redis

variable {r : Redis} {key : String} {now : Nat}

/-- The set that was written is the one that is read. -/
theorem find?_putMembers (r : Redis) (key : String) {ms : List (String × Nat)} (h : ms ≠ [])
    (now : Nat) : (r.putMembers key ms now).find? key now =
      some ⟨.sortedSet ms, (r.find? key now).bind (·.expiresAt)⟩ := by
  rw [putMembers, if_neg h, find?_put_live (live_carried r key now)]

theorem members_putMembers (r : Redis) (key : String) (ms : List (String × Nat)) (now : Nat) :
    (r.putMembers key ms now).members key now = some ms := by
  by_cases hms : ms = []
  · rw [putMembers, if_pos hms, members, find?_delete, if_pos rfl, hms]
  · rw [members, find?_putMembers r key hms]

/-- The keys but one are left alone. -/
def AgreesBut (key : String) (r r' : Redis) : Prop :=
  r'.edge = r.edge ∧ ∀ j, j ≠ key → r'.keys.get? j = r.keys.get? j

theorem AgreesBut.trans {r' r'' : Redis} (h : AgreesBut key r r') (h' : AgreesBut key r' r'') :
    AgreesBut key r r'' :=
  ⟨h'.1.trans h.1, fun j hj => (h'.2 j hj).trans (h.2 j hj)⟩

theorem agreesBut_put (r : Redis) (key : String) (e : RedisEntry) : AgreesBut key r (r.put key e) :=
  ⟨rfl, fun j hj => by rw [put, Dict.get?_set, if_neg hj]⟩

theorem agreesBut_delete (r : Redis) (key : String) : AgreesBut key r (r.delete key) :=
  ⟨rfl, fun j hj => by rw [delete, Dict.get?_erase, if_neg hj]⟩

theorem agreesBut_putMembers (r : Redis) (key : String) (ms : List (String × Nat)) (now : Nat) :
    AgreesBut key r (r.putMembers key ms now) := by
  unfold putMembers
  split
  · exact agreesBut_delete r key
  · exact agreesBut_put r key _

end Redis

/-- **One transaction** on a key: the set is pruned, grows by the hit and expires later. -/
theorem redisHit_eq {r : Redis} {key member : String} {ms : List (String × Nat)} {now : Nat}
    (hms : r.members key now = some ms) (hnew : ∀ m ∈ ms, m.1 ≠ member) (q : Quota) :
    ∃ r', redisHit r key member q.maxRequests q.windowSeconds now =
        some (r', answerTo q ((ms.filter fun m => recent q.windowMs now m.2).length + 1)) ∧
      Redis.AgreesBut key r r' ∧
      r'.keys.get? key = some
        ⟨.sortedSet ((ms.filter fun m => recent q.windowMs now m.2) ++ [(member, now)]),
          some (now + (q.windowSeconds + 60) * 1000)⟩ := by
  let kept := ms.filter fun m => recent q.windowMs now m.2
  let pruned := r.putMembers key kept now
  let grown := pruned.putMembers key (kept ++ [(member, now)]) now
  have hprune : r.zremrangebyscore key 0 (now - q.windowSeconds * 1000) now = some pruned := by
    have hfilter : ms.filter (fun m => !(decide ((0 : Int) ≤ m.2) &&
        decide ((m.2 : Int) ≤ now - q.windowSeconds * 1000))) = kept := by
      refine List.filter_congr fun m _ => ?_
      rw [recent, Quota.windowMs, Bool.eq_iff_iff]
      simp only [Bool.not_eq_true', Bool.and_eq_false_iff, decide_eq_false_iff_not, decide_eq_true_eq]
      omega
    rw [Redis.zremrangebyscore, hms, Option.map_some, hfilter]
  have hadd : pruned.zadd key member now now = some grown := by
    have hfresh : kept.filter (fun m => m.1 ≠ member) = kept := by
      rw [List.filter_eq_self]
      intro m hm
      simpa using hnew m (List.mem_filter.mp hm).1
    rw [Redis.zadd, Redis.members_putMembers, Option.map_some, hfresh]
  have hcard : grown.zcard key now = some (kept.length + 1) := by
    rw [Redis.zcard, Redis.members_putMembers, Option.map_some, List.length_append]
    rfl
  have hfind : grown.find? key now = some
      ⟨.sortedSet (kept ++ [(member, now)]), (pruned.find? key now).bind (·.expiresAt)⟩ :=
    Redis.find?_putMembers pruned key (by simp) now
  have hexpire : grown.expire key (q.windowSeconds + 60) now = grown.put key
      ⟨.sortedSet (kept ++ [(member, now)]), some (now + (q.windowSeconds + 60) * 1000)⟩ := by
    rw [Redis.expire, hfind]
    exact if_neg (by omega)
  refine ⟨grown.put key
    ⟨.sortedSet (kept ++ [(member, now)]), some (now + (q.windowSeconds + 60) * 1000)⟩, ?_, ?_, ?_⟩
  · simp only [redisHit, hprune, hadd, hcard, hexpire, Option.bind_eq_bind, Option.bind_some]
    rfl
  · exact ((Redis.agreesBut_putMembers r key kept now).trans
      (Redis.agreesBut_putMembers pruned key _ now)).trans (Redis.agreesBut_put grown key _)
  · rw [Redis.put, Dict.get?_set, if_pos rfl]

/-- The sorted sets stand for the hits so far, and expire only when all has left the window. -/
structure RedisInv (quota : String → Quota) (last : Nat) (r : Redis) (before : List Hit)
    (key : String) (ms : List (String × Nat)) : Prop where
  stored : (r.keys.get? key = none ∧ ms = []) ∨
    ∃ exp, r.keys.get? key = some ⟨.sortedSet ms, some exp⟩ ∧
      ∀ m ∈ ms, m.2 + (quota key).windowMs ≤ exp
  stands : StandsFor (quota key).windowMs last (ms.map (·.2)) (times before key)
  members : ∀ m ∈ ms, m.1 ∈ before.map (·.member)
  past : ∀ m ∈ ms, m.2 ≤ last

theorem redisInv_empty (edge : Bool) (key : String) :
    RedisInv quota 0 (.empty edge) [] key [] :=
  ⟨Or.inl ⟨rfl, rfl⟩, standsFor_refl _ _ _, by simp, by simp⟩

/-- What a call finds under a key. -/
theorem RedisInv.found {last now : Nat} {r : Redis} {before : List Hit} {key : String}
    {ms : List (String × Nat)} (h : RedisInv quota last r before key ms) (hle : last ≤ now) :
    ∃ found, r.members key now = some found ∧ found ⊆ ms ∧
      StandsFor (quota key).windowMs now (found.map (·.2)) (times before key) := by
  obtain ⟨hnone, rfl⟩ | ⟨exp, hsome, hexp⟩ := h.stored
  · refine ⟨[], ?_, List.Subset.refl _, h.stands.later hle⟩
    rw [Redis.members, Redis.find?, hnone]
    rfl
  · by_cases hlive : Redis.live r.edge (some exp) now = true
    · refine ⟨ms, ?_, List.Subset.refl _, h.stands.later hle⟩
      have hfind : r.find? key now = some ⟨.sortedSet ms, some exp⟩ := by
        simp [Redis.find?, hsome, hlive]
      rw [Redis.members, hfind]
    · -- the key has expired, and with it only what had left the window
      have hfind : r.find? key now = none := by
        simp [Redis.find?, hsome, hlive]
      refine ⟨[], by rw [Redis.members, hfind], List.nil_subset _, ?_⟩
      refine h.stands.of_expired hle fun t ht => ?_
      obtain ⟨m, hm, rfl⟩ := List.mem_map.mp ht
      have hout := hexp m hm
      have hgone : ¬ now < exp := fun hlt => hlive (by simp [Redis.live, hlt])
      omega

theorem mem_members_concat {before : List Hit} {m : String} (h : m ∈ before.map (·.member))
    (g : Hit) : m ∈ (before ++ [g]).map (·.member) := by
  rw [List.map_append]
  exact List.mem_append_left _ h

/-- **A hit on Redis** is answered by its window. -/
theorem redis_hit {r : Redis} {last : Nat} {before : List Hit} {h : Hit}
    (hinv : ∀ key, ∃ ms, RedisInv quota last r before key ms) (hle : last ≤ h.nowMs)
    (hnew : h.member ∉ before.map (·.member)) :
    ∃ r', redisHit r h.key h.member (quota h.key).maxRequests (quota h.key).windowSeconds h.nowMs =
        some (r', answerTo (quota h.key) (countAt quota before h)) ∧
      ∀ key, ∃ ms, RedisInv quota h.nowMs r' (before ++ [h]) key ms := by
  obtain ⟨ms, hms⟩ := hinv h.key
  obtain ⟨found, hfound, hsub, hstands⟩ := hms.found hle
  have hfresh : ∀ m ∈ found, m.1 ≠ h.member := by
    intro m hm heq
    exact hnew (heq ▸ hms.members m (hsub hm))
  obtain ⟨r', hhit, hbut, hwritten⟩ := redisHit_eq hfound hfresh (quota h.key)
  have hkept : (found.filter fun m => recent (quota h.key).windowMs h.nowMs m.2).map (·.2) =
      (found.map (·.2)).filter (recent (quota h.key).windowMs h.nowMs) := by
    rw [List.filter_map]
    rfl
  have hcount : (found.filter fun m => recent (quota h.key).windowMs h.nowMs m.2).length =
      (times before h.key).countP (recent (quota h.key).windowMs h.nowMs) := by
    rw [← hstands.length_filter (Nat.le_refl _), ← hkept, List.length_map]
  rw [hcount] at hhit
  refine ⟨r', hhit, fun key => ?_⟩
  by_cases hk : key = h.key
  · subst hk
    have hpast : ∀ m ∈ (found.filter fun m => recent (quota h.key).windowMs h.nowMs m.2) ++
        [(h.member, h.nowMs)], m.2 ≤ h.nowMs := by
      intro m hm
      rcases List.mem_append.mp hm with hm | hm
      · exact Nat.le_trans (hms.past m (hsub (List.mem_filter.mp hm).1)) hle
      · obtain rfl := List.mem_singleton.mp hm
        exact Nat.le_refl _
    refine ⟨_, Or.inr ⟨_, hwritten, fun m hm => ?_⟩, ?_, ?_, hpast⟩
    · have hscore := hpast m hm
      rw [Quota.windowMs]
      omega
    · rw [times_concat, if_pos rfl, List.map_append, hkept]
      exact (hstands.prune (Nat.le_refl _)).append _
    · intro m hm
      rcases List.mem_append.mp hm with hm | hm
      · exact mem_members_concat (hms.members m (hsub (List.mem_filter.mp hm).1)) h
      · rw [List.mem_singleton.mp hm]
        simp
  · obtain ⟨ms', hms'⟩ := hinv key
    refine ⟨ms', ?_, ?_, fun m hm => mem_members_concat (hms'.members m hm) h,
      fun m hm => Nat.le_trans (hms'.past m hm) hle⟩
    · rw [hbut.2 key hk]
      exact hms'.stored
    · rw [times_concat, if_neg (Ne.symm hk), List.append_nil]
      exact hms'.stands.later hle

theorem answers_of_redisInv {r : Redis} {p : InProcess} {last : Nat} {before hs : List Hit}
    (hinv : ∀ key, ∃ ms, RedisInv quota last r before key ms)
    (hsorted : hs.Pairwise fun g h => g.nowMs ≤ h.nowMs) (hlast : ∀ h ∈ hs, last ≤ h.nowMs)
    (hdistinct : ((before ++ hs).map (·.member)).Nodup) :
    answers quota ⟨some r, p⟩ hs = expected quota before hs ∧
      (storeAfter quota ⟨some r, p⟩ hs).inProcess = p := by
  induction hs generalizing r last before with
  | nil => exact ⟨rfl, rfl⟩
  | cons h hs ih =>
      rw [List.pairwise_cons] at hsorted
      have hnew : h.member ∉ before.map (·.member) := by
        rw [List.map_append, List.nodup_append'] at hdistinct
        exact fun hmem => hdistinct.2.2 hmem (by simp)
      obtain ⟨r', hhit, hinv'⟩ := redis_hit hinv (hlast h List.mem_cons_self) hnew
      have hstep : slidingWindowHit ⟨some r, p⟩ h.key h.member (quota h.key).maxRequests
          (quota h.key).windowSeconds h.nowMs =
            (⟨some r', p⟩, answerTo (quota h.key) (countAt quota before h)) := by
        simp [slidingWindowHit, hhit]
      rw [List.append_cons] at hdistinct
      obtain ⟨hanswers, hprocess⟩ := ih hinv' hsorted.2 hsorted.1 hdistinct
      rw [answers, storeAfter, hstep, expected]
      exact ⟨congrArg _ hanswers, hprocess⟩

/-- **The answers of Redis** are those by the windows, and no call falls back on the process. -/
theorem answers_redis (edge : Bool) {hs : List Hit} (h : InOrder hs) :
    answers quota ⟨some (.empty edge), .empty⟩ hs = expected quota [] hs ∧
      (storeAfter quota ⟨some (.empty edge), .empty⟩ hs).inProcess = .empty :=
  answers_of_redisInv (fun key => ⟨[], redisInv_empty edge key⟩) h.sorted
    (fun _ _ => Nat.zero_le _) h.distinct

/-! ## the budget -/

theorem length_expected (before hs : List Hit) : (expected quota before hs).length = hs.length := by
  induction hs generalizing before with
  | nil => rfl
  | cons h hs ih => rw [expected, List.length_cons, ih, List.length_cons]

/-- The answer to one of the hits. -/
theorem expected_append (before pre : List Hit) (h : Hit) (post : List Hit) :
    expected quota before (pre ++ h :: post) = expected quota before pre ++
      answerTo (quota h.key) (countAt quota (before ++ pre) h) ::
        expected quota (before ++ pre ++ [h]) post := by
  induction pre generalizing before with
  | nil => simp [expected]
  | cons g pre ih => simp [expected, ih]

theorem times_filter (hs : List Hit) (key : String) :
    times (hs.filter fun h => h.key = key) key = times hs key := by
  simp [times, List.filter_filter]

/-- The hits on other keys do not count. -/
theorem expected_filter (key : String) (before hs : List Hit) :
    expected quota (before.filter fun h => h.key = key) (hs.filter fun h => h.key = key) =
      ((hs.zip (expected quota before hs)).filter fun p => p.1.key = key).map (·.2) := by
  induction hs generalizing before with
  | nil => rfl
  | cons h hs ih =>
      have hbefore := ih (before ++ [h])
      by_cases hk : h.key = key
      · have hcount : countAt quota (before.filter fun g => g.key = key) h = countAt quota before h := by
          rw [countAt, hk, times_filter, countAt, hk]
        simp only [List.filter_append, List.filter_cons, hk, decide_true, if_true, List.filter_nil]
          at hbefore ⊢
        simp only [expected, List.zip_cons_cons]
        simp [hk, hcount, hbefore]
      · simp only [List.filter_append, List.filter_cons, hk, decide_false, Bool.false_eq_true,
          if_false, List.filter_nil, List.append_nil] at hbefore ⊢
        simp only [expected, List.zip_cons_cons]
        simpa [hk] using hbefore

/-- The hits on a key, with their answers. -/
theorem filter_zip_expected (key : String) (hs : List Hit) :
    (hs.zip (expected quota [] hs)).filter (fun p => p.1.key = key) =
      (hs.filter fun h => h.key = key).zip (expected quota [] (hs.filter fun h => h.key = key)) := by
  have hfst : ((hs.zip (expected quota [] hs)).filter fun p => p.1.key = key).map (·.1) =
      hs.filter fun h => h.key = key := by
    have hzip : (hs.zip (expected quota [] hs)).map (·.1) = hs :=
      List.map_fst_zip (length_expected [] hs).ge
    conv_rhs => rw [← hzip, List.filter_map]
    rfl
  have hsnd : expected quota [] (hs.filter fun h => h.key = key) =
      ((hs.zip (expected quota [] hs)).filter fun p => p.1.key = key).map (·.2) := by
    rw [← expected_filter, List.filter_nil]
  exact List.zip_of_prod hfst hsnd.symm

/-- A hit that is let through finds its window not full. -/
theorem countAt_le_of_allowed {hs pre post : List Hit} {as bs : List (Bool × Nat)} {h : Hit}
    {left : Nat} (hhs : hs = pre ++ h :: post) (has : expected quota [] hs = as ++ (true, left) :: bs)
    (hlen : as.length = pre.length) : countAt quota pre h ≤ (quota h.key).maxRequests := by
  rw [hhs, expected_append] at has
  have hpre : (expected quota [] pre).length = as.length := by rw [length_expected, hlen]
  obtain ⟨-, hcons⟩ := List.append_inj has hpre
  have hanswer := (List.cons.inj hcons).1
  simpa [answerTo] using congrArg Prod.fst hanswer

theorem bounded_expected {hs : List Hit} (hsorted : hs.Pairwise fun g h => g.nowMs ≤ h.nowMs)
    (key : String) (a : Nat) :
    (hs.zip (expected quota [] hs)).countP (fun p =>
      decide (p.1.key = key) && (p.2.1 && within (quota key).windowMs a p.1.nowMs)) ≤
        (quota key).maxRequests := by
  let own := hs.filter fun h => h.key = key
  have hown : ∀ h ∈ own, h.key = key := fun h hh => by simpa using (List.mem_filter.mp hh).2
  let es := (own.zip (expected quota [] own)).map fun p => (p.1.nowMs, p.2.1)
  have hcount : (hs.zip (expected quota [] hs)).countP (fun p =>
      decide (p.1.key = key) && (p.2.1 && within (quota key).windowMs a p.1.nowMs)) =
        es.countP fun e => e.2 && within (quota key).windowMs a e.1 := by
    rw [List.countP_map, ← filter_zip_expected, List.countP_filter]
    refine List.countP_congr fun p _ => ?_
    simp [and_comm]
  have hfst : (own.zip (expected quota [] own)).map (·.1) = own :=
    List.map_fst_zip (length_expected [] own).ge
  have hsnd : (own.zip (expected quota [] own)).map (·.2) = expected quota [] own :=
    List.map_snd_zip (length_expected [] own).le
  rw [hcount]
  refine countP_within_le ?_ (fun pre t post heq => ?_) a
  · have hes : es.map (·.1) = own.map (·.nowMs) := by
      rw [List.map_map]
      conv_rhs => rw [← hfst, List.map_map]
      rfl
    have hpairs : (es.map (·.1)).Pairwise (· ≤ ·) := by
      rw [hes, List.pairwise_map]
      exact hsorted.sublist List.filter_sublist
    rwa [List.pairwise_map] at hpairs
  · obtain ⟨as, bs, hzip, rfl, hbs⟩ := List.map_eq_append_iff.mp heq
    obtain ⟨⟨h, ok, left⟩, bs, rfl, hpt, rfl⟩ := List.map_eq_cons_iff.mp hbs
    obtain ⟨rfl, rfl⟩ := Prod.mk.inj hpt
    rw [hzip, List.map_append, List.map_cons] at hfst hsnd
    have hkey : h.key = key := hown h (hfst ▸ by simp)
    have hle := countAt_le_of_allowed hfst.symm hsnd.symm (by simp)
    have htimes : times (as.map (·.1)) h.key = (as.map fun p => (p.1.nowMs, p.2.1)).map (·.1) := by
      have hall : ∀ g ∈ as.map (·.1), g.key = h.key := by
        intro g hg
        rw [hkey]
        exact hown g (hfst ▸ List.mem_append_left _ hg)
      rw [times, List.filter_eq_self.mpr (by simpa using hall), List.map_map, List.map_map]
      rfl
    rw [countAt, htimes, hkey] at hle
    exact hle

/-- **The request budget** holds for every sequence of hits, and the two stores give the same
answers; those of Redis without a counter in the process. -/
theorem budget (quota : String → Quota) (edge : Bool) {hs : List Hit} (h : InOrder hs) :
    Budget quota (.ofProcess .empty) hs ∧
      answers quota ⟨some (.empty edge), .empty⟩ hs = answers quota (.ofProcess .empty) hs ∧
        (storeAfter quota ⟨some (.empty edge), .empty⟩ hs).inProcess = .empty := by
  have hprocess : answers quota (.ofProcess .empty) hs = expected quota [] hs :=
    answers_inProcess h.sorted
  refine ⟨⟨fun key a => ?_, fun before g after left hhs hleft => ?_, fun key => ?_⟩, ?_⟩
  · rw [hprocess]
    exact bounded_expected h.sorted key a
  · rw [hprocess, hhs, expected_append, List.nil_append,
      List.getElem?_append_right (length_expected [] before).le, length_expected, Nat.sub_self,
      List.getElem?_cons_zero, Option.some.injEq, answerTo, Prod.mk.injEq,
      decide_eq_false_iff_not] at hleft
    exact Nat.lt_of_not_le hleft.1
  · have hsorted : (hs.filter fun h => h.key = key).Pairwise fun g h => g.nowMs ≤ h.nowMs :=
      h.sorted.sublist List.filter_sublist
    rw [hprocess, answers_inProcess hsorted]
    exact expected_filter key [] hs
  · rw [hprocess]
    exact answers_redis edge h

/-- Three hits within a second on a key that may have two. -/
theorem budget_three :
    Budget (fun _ => ⟨2, 60⟩) (.ofProcess .empty) [⟨"k", "a", 0⟩, ⟨"k", "b", 500⟩, ⟨"k", "c", 900⟩] ∧
      answers (fun _ => ⟨2, 60⟩) ⟨some (.empty true), .empty⟩
          [⟨"k", "a", 0⟩, ⟨"k", "b", 500⟩, ⟨"k", "c", 900⟩] =
        answers (fun _ => ⟨2, 60⟩) (.ofProcess .empty)
          [⟨"k", "a", 0⟩, ⟨"k", "b", 500⟩, ⟨"k", "c", 900⟩] ∧
      (storeAfter (fun _ => ⟨2, 60⟩) ⟨some (.empty true), .empty⟩
        [⟨"k", "a", 0⟩, ⟨"k", "b", 500⟩, ⟨"k", "c", 900⟩]).inProcess = .empty :=
  budget (fun _ => ⟨2, 60⟩) true ⟨by decide, by decide⟩

end RateLimit

end CoreLab
