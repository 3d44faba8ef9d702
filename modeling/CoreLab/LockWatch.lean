import CoreLab.FailureLock

/-!
# CoreLab.LockWatch

What a failure lock promises to those who look at the attempts and not at its store: a
failure that is the `threshold`-th in the window since the last success puts a lock in
force for `lock` seconds.

* `Kept` — the store has counted at least what was seen;
* `Kept.locked` — then the lock is closed while one is in force.
-/

namespace CoreLab

open SlidingWindow

namespace RateLimit

/-! ## what is seen of the attempts -/

inductive Seen where
  | failure | success | other
deriving DecidableEq, Repr

structure Event where
  nowMs : Nat
  seen : Seen
deriving DecidableEq, Repr

/-- The failures since the last success, the latest one first, after one more attempt. -/
def failuresAfter (ts : List Nat) (e : Event) : List Nat :=
  match e.seen with
  | .failure => e.nowMs :: ts
  | .success => []
  | .other => ts

def failuresOf (events : List Event) : List Nat := events.foldl failuresAfter []

/-- The failure at `t` completes `threshold` of them in the window. -/
def TripsAt (m : FailureLockManager) (events : List Event) (t : Nat) : Prop :=
  ∃ before after, events = before ++ ⟨t, .failure⟩ :: after ∧
    m.threshold ≤ windowCount m (failuresOf before) t + 1

/-- A lock is in force. -/
def InForce (m : FailureLockManager) (events : List Event) (now : Nat) : Prop :=
  ∃ t, TripsAt m events t ∧ now < t + m.lockMs

variable {m : FailureLockManager} {events : List Event}

@[simp] theorem failuresOf_nil : failuresOf [] = [] := rfl

@[simp] theorem failuresOf_concat (events : List Event) (e : Event) :
    failuresOf (events ++ [e]) = failuresAfter (failuresOf events) e := by
  simp [failuresOf]

/-- A list that ends in an element, cut at some element. -/
theorem concat_eq_append_cons {α : Type} {xs before after : List α} {x y : α}
    (h : xs ++ [x] = before ++ y :: after) :
    (before = xs ∧ y = x) ∨ ∃ rest, xs = before ++ y :: rest := by
  rcases List.eq_nil_or_concat after with rfl | ⟨rest, z, rfl⟩
  · obtain ⟨hxs, hlast⟩ := List.append_inj' h rfl
    exact Or.inl ⟨hxs.symm, (List.head_eq_of_cons_eq hlast).symm⟩
  · rw [List.concat_eq_append, ← List.cons_append, ← List.append_assoc] at h
    exact Or.inr ⟨rest, (List.append_inj' h rfl).1⟩

theorem tripsAt_concat {e : Event} {t : Nat} (h : TripsAt m (events ++ [e]) t) :
    TripsAt m events t ∨
      e = ⟨t, .failure⟩ ∧ m.threshold ≤ windowCount m (failuresOf events) t + 1 := by
  obtain ⟨before, after, heq, hfull⟩ := h
  rcases concat_eq_append_cons heq with ⟨rfl, rfl⟩ | ⟨rest, rfl⟩
  · exact Or.inr ⟨rfl, hfull⟩
  · exact Or.inl ⟨before, rest, rfl, hfull⟩

theorem inForce_of_concat {e : Event} {now : Nat} (he : e.seen ≠ .failure)
    (h : InForce m (events ++ [e]) now) : InForce m events now := by
  obtain ⟨t, ht, hlate⟩ := h
  rcases tripsAt_concat ht with ht | ⟨rfl, -⟩
  · exact ⟨t, ht, hlate⟩
  · exact absurd rfl he

theorem TripsAt.mem {t : Nat} (h : TripsAt m events t) : ⟨t, .failure⟩ ∈ events := by
  obtain ⟨before, after, rfl, -⟩ := h
  simp

theorem mem_of_mem_failuresOf {t : Nat} (h : t ∈ failuresOf events) : ⟨t, .failure⟩ ∈ events := by
  induction events using List.reverseRecOn with
  | nil => simp at h
  | append_singleton events e ih =>
      obtain ⟨now, seen⟩ := e
      rw [failuresOf_concat] at h
      rw [List.mem_append]
      cases seen with
      | failure =>
          rcases List.mem_cons.mp h with rfl | h
          · exact Or.inr List.mem_cons_self
          · exact Or.inl (ih h)
      | success => exact absurd h List.not_mem_nil
      | other => exact Or.inl (ih h)

/-- The latest failure since the last success, and the attempts before it. -/
theorem exists_of_failuresOf_eq_cons {t : Nat} {ts : List Nat} (h : failuresOf events = t :: ts) :
    ∃ before after, events = before ++ ⟨t, .failure⟩ :: after ∧ failuresOf before = ts := by
  induction events using List.reverseRecOn with
  | nil => simp at h
  | append_singleton events e ih =>
      obtain ⟨now, seen⟩ := e
      rw [failuresOf_concat] at h
      cases seen with
      | failure =>
          obtain ⟨rfl, rfl⟩ := List.cons.inj h
          exact ⟨events, [], rfl, rfl⟩
      | success => exact absurd h.symm (List.cons_ne_nil _ _)
      | other =>
          obtain ⟨before, after, rfl, hts⟩ := ih h
          exact ⟨before, after ++ [⟨now, .other⟩], by simp, hts⟩

/-- **While no lock is in force** there is room for a failure: fewer than `threshold` lie in the
window, as the lock outlasts it. -/
theorem windowCount_lt_of_not_inForce {now : Nat} (hpos : 0 < m.threshold)
    (hlock : m.windowMs ≤ m.lockMs) (hsorted : events.Pairwise fun d e => d.nowMs ≤ e.nowMs)
    (hpast : ∀ e ∈ events, e.nowMs ≤ now) (h : ¬ InForce m events now) :
    windowCount m (failuresOf events) now < m.threshold := by
  by_contra hfull
  rw [not_lt] at hfull
  cases hfailures : failuresOf events with
  | nil =>
      rw [hfailures] at hfull
      simp [windowCount] at hfull
      omega
  | cons t ts =>
      obtain ⟨before, after, rfl, rfl⟩ := exists_of_failuresOf_eq_cons hfailures
      have hlast : t ≤ now := hpast ⟨t, .failure⟩ (by simp)
      rw [hfailures, windowCount, List.countP_cons] at hfull
      by_cases hrecent : recent m.windowMs now t = true
      · have hmono : (failuresOf before).countP (recent m.windowMs now) ≤
            (failuresOf before).countP (recent m.windowMs t) :=
          List.countP_mono_left fun u _ hu => recent_mono hlast hu
        rw [if_pos hrecent] at hfull
        refine h ⟨t, ⟨before, after, rfl, ?_⟩, ?_⟩
        · rw [windowCount]
          omega
        · simp only [recent, decide_eq_true_eq] at hrecent
          omega
      · -- what came before is even older
        have hnone : (failuresOf before).countP (recent m.windowMs now) = 0 := by
          rw [List.countP_eq_zero]
          intro u hu
          have hle : u ≤ t := (List.pairwise_append.mp hsorted).2.2 ⟨u, .failure⟩
            (mem_of_mem_failuresOf hu) ⟨t, .failure⟩ List.mem_cons_self
          simp only [recent, decide_eq_true_eq] at hrecent ⊢
          omega
        rw [if_neg hrecent, hnone] at hfull
        omega

/-! ## the store behind it -/

/-- The calls under a subject have counted what was seen in the window, or more, and a lock that
is in force was tripped by them. -/
structure Counted (m : FailureLockManager) (backend : Option Bool) (subject : String) (last : Nat)
    (events : List Event) (before : List TimedCall) : Prop where
  sorted : (before.map (·.nowMs)).Pairwise (· ≤ ·)
  called : ∀ c ∈ before, c.nowMs ≤ last
  failures : ((failuresOf events).filter (recent m.windowMs last)).Sublist
    (record m (countOf m backend) before subject).failures
  trips : ∀ t, TripsAt m events t → last < t + m.lockMs →
    ∃ T, t ≤ T ∧ (record m (countOf m backend) before subject).trip = some T

/-- The store stands for such calls. -/
def Kept (m : FailureLockManager) (backend : Option Bool) (subject : String) (last : Nat)
    (events : List Event) (s : Store) : Prop :=
  (∀ e ∈ events, e.nowMs ≤ last) ∧
    ∃ before, Holds m backend last before s ∧ Counted m backend subject last events before

variable {backend : Option Bool} {subject : String} {last now : Nat} {before : List TimedCall}
  {s : Store}

theorem kept_start (m : FailureLockManager) (backend : Option Bool) (subject : String) :
    Kept m backend subject 0 [] (.start backend) :=
  ⟨by simp, [], holds_start _ _, .nil, by simp, by simp, by simp [TripsAt]⟩

theorem Counted.later (h : Counted m backend subject last events before) (hle : last ≤ now) :
    Counted m backend subject now events before := by
  refine ⟨h.sorted, fun c hc => Nat.le_trans (h.called c hc) hle, ?_, fun t ht hlate => ?_⟩
  · have hmono : ((failuresOf events).filter (recent m.windowMs now)).Sublist
        ((failuresOf events).filter (recent m.windowMs last)) :=
      List.monotone_filter_right _ fun t ht => recent_mono hle ht
    exact hmono.trans h.failures
  · exact h.trips t ht (by omega)

theorem Kept.later (h : Kept m backend subject last events s) (hle : last ≤ now) :
    Kept m backend subject now events s := by
  obtain ⟨hpast, before, hholds, hcounted⟩ := h
  exact ⟨fun e he => Nat.le_trans (hpast e he) hle, before, hholds.later hle, hcounted.later hle⟩

/-- What is seen is no failure. -/
theorem Kept.quiet (h : Kept m backend subject now events s) {seen : Seen}
    (hseen : seen ≠ .failure) : Kept m backend subject now (events ++ [⟨now, seen⟩]) s := by
  obtain ⟨hpast, before, hholds, hcounted⟩ := h
  refine ⟨?_, before, hholds, hcounted.sorted, hcounted.called, ?_, fun t ht hlate => ?_⟩
  · simpa [or_imp, forall_and] using hpast
  · rw [failuresOf_concat]
    cases seen with
    | failure => exact absurd rfl hseen
    | success => exact List.nil_sublist _
    | other => exact hcounted.failures
  · rcases tripsAt_concat ht with ht | ⟨heq, -⟩
    · exact hcounted.trips t ht hlate
    · exact absurd (congrArg Event.seen heq) hseen

/-! ## calls -/

/-- A call keeps a store that stands for what was seen, if the record does. -/
theorem Kept.call (h : Kept m backend subject now events s) (call : Call) {events' : List Event}
    (hpast' : ∀ e ∈ events', e.nowMs ≤ now)
    (hrecord : ∀ before, (before.map (·.nowMs) ++ [now]).Pairwise (· ≤ ·) →
      Counted m backend subject now events before →
      ((failuresOf events').filter (recent m.windowMs now)).Sublist
          (record m (countOf m backend) (before ++ [⟨now, call⟩]) subject).failures ∧
        ∀ t, TripsAt m events' t → now < t + m.lockMs → ∃ T, t ≤ T ∧
          (record m (countOf m backend) (before ++ [⟨now, call⟩]) subject).trip = some T) :
    Kept m backend subject now events' (perform m s ⟨now, call⟩).1 := by
  obtain ⟨-, before, hholds, hcounted⟩ := h
  obtain ⟨s', hperform, hholds'⟩ := hholds.perform (c := ⟨now, call⟩) (Nat.le_refl _)
  have hsorted : (before.map (·.nowMs) ++ [now]).Pairwise (· ≤ ·) := by
    simpa [List.pairwise_append, hcounted.sorted] using hcounted.called
  obtain ⟨hfailures, htrips⟩ := hrecord before hsorted hcounted
  refine ⟨hpast', before ++ [⟨now, call⟩], by rwa [hperform], ?_, ?_, hfailures, htrips⟩
  · rwa [List.map_append]
  · simpa [or_imp, forall_and] using hcounted.called

theorem Kept.isLocked (h : Kept m backend subject now events s) (other : String) :
    Kept m backend subject now events (m.isLocked s other now).1 := by
  refine h.call (.isLocked other) h.1 fun before _ hcounted => ?_
  rw [record_isLocked]
  exact ⟨hcounted.failures, hcounted.trips⟩

/-- **The lock is closed** while one is in force. -/
theorem Kept.locked (h : Kept m backend subject now events s) (hforce : InForce m events now) :
    (m.isLocked s subject now).2 = true := by
  obtain ⟨-, before, hholds, hcounted⟩ := h
  obtain ⟨s', hperform, -⟩ := hholds.perform (c := ⟨now, .isLocked subject⟩) (Nat.le_refl _)
  have hlocked := congrArg Prod.snd hperform
  simp only [perform, expectedResult, Option.some.injEq] at hlocked
  obtain ⟨t, ht, hlate⟩ := hforce
  obtain ⟨T, hT, htrip⟩ := hcounted.trips t ht hlate
  rw [hlocked]
  exact locked_of_trip htrip (by omega)

/-- A failure that is not one of those seen. -/
theorem Kept.recordFailure (h : Kept m backend subject now events s) (other : String) :
    Kept m backend subject now events (m.recordFailure s other now).1 := by
  refine h.call (.recordFailure other) h.1 fun before _ hcounted => ?_
  rw [record_recordFailure]
  by_cases hother : other = subject
  · rw [if_pos hother]
    refine ⟨hcounted.failures.cons _, fun t ht hlate => ?_⟩
    obtain ⟨T, hT, htrip⟩ := hcounted.trips t ht hlate
    by_cases htrips : trips m (countOf m backend) (record m (countOf m backend) before subject) now
        = true
    · obtain ⟨e, he, rfl⟩ : ∃ e ∈ events, e.nowMs = t := ⟨_, ht.mem, rfl⟩
      exact ⟨now, h.1 e he, by rw [if_pos htrips]⟩
    · exact ⟨T, hT, by rwa [if_neg htrips]⟩
  · rw [if_neg hother]
    exact ⟨hcounted.failures, hcounted.trips⟩

/-- **A failure that is seen** trips the lock if it completes `threshold`. -/
theorem Kept.recordFailure_seen (h : Kept m backend subject now events s) :
    Kept m backend subject now (events ++ [⟨now, .failure⟩]) (m.recordFailure s subject now).1 := by
  have hpast' : ∀ e ∈ events ++ [⟨now, .failure⟩], e.nowMs ≤ now := by
    simpa [or_imp, forall_and] using h.1
  refine h.call (.recordFailure subject) hpast' fun before hsorted hcounted => ?_
  rw [record_recordFailure, if_pos rfl]
  refine ⟨?_, fun t ht hlate => ?_⟩
  · rw [failuresOf_concat, failuresAfter, List.filter_cons]
    split
    · exact hcounted.failures.cons_cons _
    · exact hcounted.failures.cons _
  · have hle : t ≤ now := hpast' _ ht.mem
    by_cases htrips : trips m (countOf m backend) (record m (countOf m backend) before subject) now
        = true
    · exact ⟨now, hle, by rw [if_pos htrips]⟩
    · rw [if_neg htrips]
      rcases tripsAt_concat ht with ht | ⟨heq, hfull⟩
      · exact hcounted.trips t ht hlate
      · -- what was seen in the window has been counted
        obtain rfl : now = t := congrArg Event.nowMs heq
        refine absurd (trips_countOf backend hsorted ?_) htrips
        have hcount : (failuresOf events).countP (recent m.windowMs now) ≤
            (record m (countOf m backend) before subject).failures.countP (recent m.windowMs now) := by
          have hsub := hcounted.failures.countP_le (p := recent m.windowMs now)
          simpa [List.countP_filter] using hsub
        rw [windowCount] at hfull
        rw [trips, windowCount, decide_eq_true_eq]
        exact Nat.le_trans hfull (Nat.succ_le_succ hcount)

/-- **A success** clears the subject; nothing that was seen may still count, nor a lock be in
force. -/
theorem Kept.recordSuccess (h : Kept m backend subject now events s) (other : String)
    (hclear : other = subject →
      (∀ t ∈ failuresOf events, recent m.windowMs now t = false) ∧ ¬ InForce m events now) :
    Kept m backend subject now events (m.recordSuccess s other) := by
  refine h.call (.recordSuccess other) h.1 fun before _ hcounted => ?_
  rw [record_recordSuccess]
  by_cases hother : other = subject
  · obtain ⟨hold, hopen⟩ := hclear hother
    rw [if_pos hother]
    refine ⟨?_, fun t ht hlate => absurd ⟨t, ht, hlate⟩ hopen⟩
    rw [List.filter_eq_nil_iff.mpr fun t ht => by simp [hold t ht]]
  · rw [if_neg hother]
    exact ⟨hcounted.failures, hcounted.trips⟩

end RateLimit

end CoreLab
