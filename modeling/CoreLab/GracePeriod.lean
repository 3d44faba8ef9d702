import CoreLab.ComplianceMonitor

/-!
# CoreLab.GracePeriod

The grace period of a policy over whole runs of the compliance monitor: its ticks, the
violations that each of them finds, and the syncs in between.

* `acts_iff` — a violation is acted on once some tick found it a grace period ago;
* `persisted_iff` — a violation found early has lasted, unless it was gone in between;
* `actsLate_iff` — the runs in which the dispatcher only acts on violations that have lasted.
-/

namespace CoreLab

open Calendar Schema AgentHost Transition

namespace GracePeriod

open PolicyDispatch (Dispatcher GraceKey record)

/-! ## ticks -/

/-- A tick, with the signatures of the violations it has found. -/
structure Tick where
  now : Time
  produced : List GraceKey

/-- The ticks so far, the newest first; no step reads what they have found. -/
structure World where
  dispatch : PolicyDispatch.World
  ticks : List Tick

/-- One atomic step: a tick begins; it dispatches a violation; the dispatch goes on after its
`await`; or a sync arrives. -/
inductive Action where
  | tick (now : Time)
  | violation (v : PolicyDispatch.Violation)
  | resume (answer : Bool)
  | policySync (serverId : Int) (policies : List PolicyEntry) (etag : String)
  | capabilitySync (capabilities : List (String × Bool))

/-- The newest tick has found the violation. -/
def mark (key : GraceKey) : List Tick → List Tick
  | [] => []
  | t :: ticks => { t with produced := key :: t.produced } :: ticks

/-- A step of the dispatcher. -/
def World.lift (w : World) (dispatch : Option PolicyDispatch.World) : Option World :=
  dispatch.map fun dispatch => { w with dispatch := dispatch }

/-- One step; the clock does not go back, and a tick reads it once. -/
def step (d : Dispatcher) (w : World) : Action → Option World
  | .tick now =>
    if w.dispatch.current.isNone ∧ ∀ t ∈ w.ticks, t.now ≤ now then
      some { w with ticks := ⟨now, []⟩ :: w.ticks }
    else none
  | .violation v =>
    match w.ticks with
    | [] => none
    | t :: _ => World.lift { w with ticks := mark v.graceKey w.ticks }
        (d.step w.dispatch (.violation v t.now))
  | .resume answer => w.lift (d.step w.dispatch (.resume answer))
  | .policySync serverId policies etag =>
    w.lift (d.step w.dispatch (.policySync serverId policies etag))
  | .capabilitySync capabilities => w.lift (d.step w.dispatch (.capabilitySync capabilities))

/-! ## what is promised -/

variable (d : Dispatcher) (policyKey : String) (grace : Int)

/-- A tick found the violation at least a grace period before `now`. -/
def FoundEarly (key : GraceKey) (now : Time) (t : Tick) : Prop :=
  key ∈ t.produced ∧ t.now + grace * secondMicros ≤ now

/-- The violation has been there for the grace period: at every tick within it, and since it
last came back. -/
structure Persisted (key : GraceKey) (now : Time) (ticks : List Tick) : Prop where
  every : ∀ t ∈ ticks, now - grace * secondMicros < t.now → key ∈ t.produced
  again : ∀ newer gap older, ticks = newer ++ gap :: older → key ∉ gap.produced →
    (∃ t ∈ older, key ∈ t.produced) → ∃ t ∈ newer, FoundEarly grace key now t

/-- The dispatcher acts on a violation of the policy only if that has persisted. -/
def ActsLate (_ : World) (a : Action) (w' : World) : Prop :=
  match a with
  | .violation v => v.policyKey = policyKey → w'.dispatch.current.isSome →
      ∀ t ∈ w'.ticks.head?, Persisted grace v.graceKey t.now w'.ticks
  | _ => True

/-- The policy is enabled with this grace period whenever a violation of it is dispatched. -/
def Stays (w : World) (a : Action) : Prop :=
  match a with
  | .violation v => v.policyKey = policyKey →
      ((w.dispatch.agent.policies.get? (d.serverId, policyKey)).any fun entry =>
        entry.enabled && entry.gracePeriodSeconds = some grace) = true
  | _ => True

/-- A violation that a tick had found a grace period ago, and that then was gone at one, has
been back for a grace period. -/
def NoEarlyReturn (w : World) (a : Action) : Prop :=
  match a with
  | .violation v => v.policyKey = policyKey → w.dispatch.current = none →
      ∀ t ∈ w.ticks.head?, ∀ newer gap older, mark v.graceKey w.ticks = newer ++ gap :: older →
        v.graceKey ∉ gap.produced → (∃ t' ∈ older, FoundEarly grace v.graceKey t.now t') →
          ∃ t' ∈ newer, FoundEarly grace v.graceKey t.now t'
  | _ => True

/-- No tick has run, and no violation of the policy is pending. -/
structure Fresh (w : World) : Prop where
  ticks : w.ticks = []
  pending : ∀ key, key.1 = policyKey → w.dispatch.pending.get? key = none

/-! ## when a violation was first found -/

/-- The time of the oldest tick that found it. -/
def firstFound (key : GraceKey) : List Tick → Option Time
  | [] => none
  | t :: ticks => (firstFound key ticks).or (if key ∈ t.produced then some t.now else none)

section FirstFound

variable {key key' : GraceKey} {ticks : List Tick} {t : Tick} {grace : Int}

theorem exists_mem_of_firstFound {f : Time} (h : firstFound key ticks = some f) :
    ∃ t ∈ ticks, key ∈ t.produced ∧ t.now = f := by
  induction ticks with
  | nil => cases h
  | cons t ticks ih =>
      rw [firstFound, Option.or_eq_some_iff] at h
      obtain hold | ⟨-, hnew⟩ := h
      · obtain ⟨t', ht', hfound⟩ := ih hold
        exact ⟨t', List.mem_cons_of_mem t ht', hfound⟩
      · by_cases hkey : key ∈ t.produced
        · exact ⟨t, List.mem_cons_self, hkey, by simpa [hkey] using hnew⟩
        · simp [hkey] at hnew

@[simp] theorem firstFound_mark_self :
    firstFound key (mark key (t :: ticks)) = some ((firstFound key (t :: ticks)).getD t.now) := by
  cases hold : firstFound key ticks with
  | none => by_cases hkey : key ∈ t.produced <;> simp [mark, firstFound, hold, hkey]
  | some f => simp [mark, firstFound, hold]

theorem firstFound_mark_of_ne (h : key' ≠ key) :
    firstFound key' (mark key ticks) = firstFound key' ticks := by
  cases ticks with
  | nil => rfl
  | cons t ticks => simp [mark, firstFound, h]

/-- Some tick found it early exactly when the first one that did was early. -/
theorem exists_foundEarly_iff (hsorted : ticks.Pairwise fun x y => y.now ≤ x.now) {now : Time} :
    (∃ t ∈ ticks, FoundEarly grace key now t) ↔
      ∃ f, firstFound key ticks = some f ∧ f + grace * secondMicros ≤ now := by
  induction ticks with
  | nil => simp [firstFound]
  | cons t ticks ih =>
      obtain ⟨hhead, htail⟩ := List.pairwise_cons.mp hsorted
      simp only [List.mem_cons, exists_eq_or_imp, ih htail]
      cases hold : firstFound key ticks with
      | none => simp [firstFound, hold, FoundEarly]
      | some f =>
          obtain ⟨t', ht', -, rfl⟩ := exists_mem_of_firstFound hold
          have hle : t'.now + grace * secondMicros ≤ t.now + grace * secondMicros :=
            Int.add_le_add_right (hhead t' ht') _
          simp only [firstFound, hold, Option.some_or, Option.some.injEq, exists_eq_left']
          exact ⟨fun h => h.elim (fun hearly => hle.trans hearly.2) id, .inr⟩

/-- The newest tick is not early. -/
theorem exists_foundEarly_mark_iff (hgrace : 0 < grace) :
    (∃ t' ∈ mark key (t :: ticks), FoundEarly grace key t.now t') ↔
      ∃ t' ∈ t :: ticks, FoundEarly grace key t.now t' := by
  have hlate : ¬ t.now + grace * secondMicros ≤ t.now := by
    have hpos : 0 < grace * secondMicros := Int.mul_pos hgrace (by decide)
    exact not_le.mpr (lt_add_of_pos_right _ hpos)
  simp [mark, FoundEarly, hlate]

end FirstFound

/-! ## gaps -/

/-- A violation found early has persisted exactly if it was back early after every gap that it
had been found early before. -/
theorem persisted_iff {key : GraceKey} {ticks : List Tick} {grace : Int} {now : Time}
    (hsorted : ticks.Pairwise fun x y => y.now ≤ x.now) :
    ((∃ t ∈ ticks, FoundEarly grace key now t) → Persisted grace key now ticks) ↔
      ∀ newer gap older, ticks = newer ++ gap :: older → key ∉ gap.produced →
        (∃ t ∈ older, FoundEarly grace key now t) → ∃ t ∈ newer, FoundEarly grace key now t := by
  constructor
  · rintro h newer gap older rfl hgap ⟨t, ht, hearly⟩
    have hmem : t ∈ newer ++ gap :: older := List.mem_append_right _ (List.mem_cons_of_mem _ ht)
    exact (h ⟨t, hmem, hearly⟩).again newer gap older rfl hgap ⟨t, ht, hearly.1⟩
  · rintro h ⟨t, ht, hearly⟩
    -- an early tick is on one side of a gap, and then there is one on the newer side
    have hnewer : ∀ newer gap older, ticks = newer ++ gap :: older → key ∉ gap.produced →
        ∃ t ∈ newer, FoundEarly grace key now t := by
      intro newer gap older hsplit hgap
      rw [hsplit] at ht
      obtain hbefore | hafter := List.mem_append.mp ht
      · exact ⟨t, hbefore, hearly⟩
      · obtain rfl | holder := List.mem_cons.mp hafter
        · exact absurd hearly.1 hgap
        · exact h newer gap older hsplit hgap ⟨t, holder, hearly⟩
    refine ⟨fun gap hmem hwithin => ?_, fun newer gap older hsplit hgap _ =>
      hnewer newer gap older hsplit hgap⟩
    by_contra hgap
    obtain ⟨newer, older, rfl⟩ := List.append_of_mem hmem
    obtain ⟨t', ht', hearly'⟩ := hnewer newer gap older rfl hgap
    have hle : gap.now ≤ t'.now := (List.pairwise_append.mp hsorted).2.2 t' ht' gap List.mem_cons_self
    exact absurd (sub_lt_iff_lt_add.mp hwithin)
      (not_lt.mpr ((Int.add_le_add_right hle _).trans hearly'.2))

/-! ## the dispatcher -/

section Begin

variable {d : Dispatcher} {w : PolicyDispatch.World} {v : PolicyDispatch.Violation} {now : Time}

theorem record_of_none {pending : Dict GraceKey PolicyDispatch.Pending} {key : GraceKey}
    {grace : Int} (hgrace : 0 < grace) (h : pending.get? key = none) :
    record pending key (some grace) now = (pending.set key ⟨now, now⟩, false) := by
  have hne : grace ≠ 0 := by omega
  simp [record, h]

theorem record_of_some {pending : Dict GraceKey PolicyDispatch.Pending} {key : GraceKey}
    {grace : Int} {p : PolicyDispatch.Pending} (hgrace : 0 < grace) (h : pending.get? key = some p) :
    record pending key (some grace) now = (pending.set key { p with lastSeen := now },
      decide (grace * secondMicros ≤ now - p.firstSeen)) := by
  have hne : grace ≠ 0 := by omega
  simp [record, h]

theorem get?_record_of_ne {pending : Dict GraceKey PolicyDispatch.Pending} {key key' : GraceKey}
    {grace : Option Int} (h : key ≠ key') :
    (record pending key' grace now).1.get? key = pending.get? key := by
  unfold record
  split
  · rfl
  · rfl
  · split <;> simp [Dict.get?_set, h]

/-- A dispatch touches the timer of its violation only. -/
theorem get?_begin_of_ne {key : GraceKey} (h : key ≠ v.graceKey) :
    (d.begin w v now).pending.get? key = w.pending.get? key := by
  unfold Dispatcher.begin
  split
  · rfl
  · split
    · rfl
    · dsimp only
      split <;> exact get?_record_of_ne h

/-- A violation of an enabled policy goes by its timer. -/
theorem begin_of_enabled {entry : PolicyEntry}
    (hentry : w.agent.policies.get? (d.serverId, v.policyKey) = some entry)
    (henabled : entry.enabled = true) (hfree : w.current = none) (now : Time) :
    (d.begin w v now).pending = (record w.pending v.graceKey entry.gracePeriodSeconds now).1 ∧
      (d.begin w v now).current.isSome =
        (record w.pending v.graceKey entry.gracePeriodSeconds now).2 := by
  simp only [Dispatcher.begin, hentry, henabled, Bool.true_eq_false, if_false]
  cases hrecord : (record w.pending v.graceKey entry.gracePeriodSeconds now).2 <;> simp [hfree]

end Begin

/-! ## runs -/

/-- The timers of the policy show when their violations were first found. -/
structure Tracked (policyKey : String) (w : World) : Prop where
  sorted : w.ticks.Pairwise fun x y => y.now ≤ x.now
  first : ∀ key, key.1 = policyKey →
    (w.dispatch.pending.get? key).map (·.firstSeen) = firstFound key w.ticks

section Runs

variable {d : Dispatcher} {policyKey : String} {grace : Int} {w w' : World}

theorem lift_eq_some {dispatch : Option PolicyDispatch.World} (h : w.lift dispatch = some w') :
    ∃ u, dispatch = some u ∧ { w with dispatch := u } = w' := Option.map_eq_some_iff.mp h

/-- What the dispatch of a violation does. -/
theorem step_violation {v : PolicyDispatch.Violation} (h : step d w (.violation v) = some w') :
    ∃ t ticks, w.ticks = t :: ticks ∧ w.dispatch.current = none ∧
      w' = { dispatch := d.begin w.dispatch v t.now, ticks := mark v.graceKey w.ticks } := by
  simp only [step] at h
  split at h
  · cases h
  · next t ticks hticks =>
      obtain ⟨dispatch, hdispatch, rfl⟩ := lift_eq_some h
      simp only [Dispatcher.step, Option.ite_none_left_eq_some, Option.some.injEq] at hdispatch
      obtain ⟨hfree, rfl⟩ := hdispatch
      exact ⟨t, ticks, hticks, by simpa using hfree, rfl⟩

/-- The timer of a violation of the policy, and whether the dispatcher acts on it. -/
theorem begin_of_stays {v : PolicyDispatch.Violation} (hgrace : 0 < grace)
    (hstays : Stays d policyKey grace w (.violation v)) (hkey : v.policyKey = policyKey)
    (hfree : w.dispatch.current = none) (now : Time) :
    ((d.begin w.dispatch v now).pending.get? v.graceKey).map (·.firstSeen) =
        some (((w.dispatch.pending.get? v.graceKey).map (·.firstSeen)).getD now) ∧
      ((d.begin w.dispatch v now).current.isSome ↔
        ∃ f, (w.dispatch.pending.get? v.graceKey).map (·.firstSeen) = some f ∧
          f + grace * secondMicros ≤ now) := by
  obtain ⟨entry, hentry, hon⟩ := (Option.any_eq_true ..).mp (hstays hkey)
  rw [Bool.and_eq_true, decide_eq_true_eq] at hon
  obtain ⟨hpending, hcurrent⟩ := begin_of_enabled (hkey ▸ hentry) hon.1 hfree now
  rw [hpending, hcurrent, hon.2]
  cases hget : w.dispatch.pending.get? v.graceKey with
  | none => simp [record_of_none hgrace hget, Dict.get?_set]
  | some p => simp [record_of_some hgrace hget, Dict.get?_set, le_sub_iff_add_le']

theorem tracked_step {a : Action} (hw : Tracked policyKey w) (hgrace : 0 < grace)
    (hstays : Stays d policyKey grace w a) (hstep : step d w a = some w') : Tracked policyKey w' := by
  cases a with
  | tick now =>
      simp only [step, Option.ite_none_right_eq_some, Option.some.injEq] at hstep
      obtain ⟨⟨-, hnow⟩, rfl⟩ := hstep
      refine ⟨List.pairwise_cons.mpr ⟨hnow, hw.sorted⟩, fun key hkey => ?_⟩
      simpa [firstFound] using hw.first key hkey
  | violation v =>
      obtain ⟨t, ticks, hticks, hfree, rfl⟩ := step_violation hstep
      refine ⟨?_, fun key hkey => ?_⟩
      · have hsorted := hw.sorted
        rw [hticks] at hsorted
        simpa [hticks, mark] using hsorted
      · by_cases hv : key = v.graceKey
        · subst hv
          have hfirst := hw.first _ hkey
          dsimp only
          rw [(begin_of_stays hgrace hstays hkey hfree t.now).1, hfirst, hticks, firstFound_mark_self]
        · dsimp only
          rw [get?_begin_of_ne hv, firstFound_mark_of_ne hv]
          exact hw.first key hkey
  | resume answer =>
      obtain ⟨dispatch, hdispatch, rfl⟩ := lift_eq_some hstep
      obtain ⟨c, -, rfl⟩ := Option.map_eq_some_iff.mp hdispatch
      exact ⟨hw.sorted, hw.first⟩
  | policySync serverId policies etag =>
      obtain ⟨dispatch, hdispatch, rfl⟩ := lift_eq_some hstep
      obtain rfl := Option.some.inj hdispatch
      exact ⟨hw.sorted, hw.first⟩
  | capabilitySync capabilities =>
      obtain ⟨dispatch, hdispatch, rfl⟩ := lift_eq_some hstep
      obtain rfl := Option.some.inj hdispatch
      exact ⟨hw.sorted, hw.first⟩

/-- **The grace period is counted from the first finding**: the dispatcher acts on a violation of
the policy when some tick found it a grace period ago. -/
theorem acts_iff {v : PolicyDispatch.Violation} (hw : Tracked policyKey w) (hgrace : 0 < grace)
    (hstays : Stays d policyKey grace w (.violation v)) (hkey : v.policyKey = policyKey)
    (hfree : w.dispatch.current = none) (now : Time) :
    (d.begin w.dispatch v now).current.isSome ↔
      ∃ t ∈ w.ticks, FoundEarly grace v.graceKey now t := by
  rw [(begin_of_stays hgrace hstays hkey hfree now).2, hw.first _ hkey,
    exists_foundEarly_iff hw.sorted]

/-- One dispatch: the dispatcher acts late unless the violation came back too early. -/
theorem actsLate_step {a : Action} (hw : Tracked policyKey w) (hgrace : 0 < grace)
    (hstays : Stays d policyKey grace w a) (hstep : step d w a = some w') :
    ActsLate policyKey grace w a w' ↔ NoEarlyReturn policyKey grace w a := by
  cases a with
  | violation v =>
      have hw' := tracked_step hw hgrace hstays hstep
      obtain ⟨t, ticks, hticks, hfree, rfl⟩ := step_violation hstep
      refine forall_congr' fun hkey => ?_
      have hsorted := hw'.sorted
      rw [acts_iff hw hgrace hstays hkey hfree t.now, hticks] at *
      rw [← exists_foundEarly_mark_iff hgrace]
      simpa [hfree, mark] using persisted_iff hsorted
  | _ => exact Iff.rfl

/-- **The grace period is no continuous violation**: the dispatcher acts only on violations that
have persisted for it exactly in the runs in which none comes back too early. -/
theorem actsLate_iff (hgrace : 0 < grace) {as : List Action} (hfresh : Fresh policyKey w)
    (hstays : Meets (step d) (Stays d policyKey grace) w as) :
    Along (step d) (ActsLate policyKey grace) w as ↔
      Meets (step d) (NoEarlyReturn policyKey grace) w as := by
  have hinit : Tracked policyKey w := by
    refine ⟨by simp [hfresh.ticks], fun key hkey => ?_⟩
    rw [hfresh.pending key hkey, hfresh.ticks]
    rfl
  have hstep : ∀ s a t, Tracked policyKey s → Stays d policyKey grace s a → step d s a = some t →
      Tracked policyKey t ∧ (ActsLate policyKey grace s a t ↔ NoEarlyReturn policyKey grace s a) :=
    fun s a t hs hok ht => ⟨tracked_step hs hgrace hok ht, actsLate_step hs hgrace hok ht⟩
  refine along_iff_meets hstep (fun s a ha => ?_) hinit hstays
  -- what cannot be dispatched is not dispatched early
  cases a with
  | violation v =>
      intro _ hfree t ht
      cases hticks : s.ticks with
      | nil =>
          rw [hticks] at ht
          cases ht
      | cons t' ticks => simp [step, hticks, World.lift, Dispatcher.step, hfree] at ha
  | _ => exact True.intro

/-- The violation has been there at every tick so far. -/
def AlwaysThere (policyKey : String) (w : World) (a : Action) : Prop :=
  match a with
  | .violation v => v.policyKey = policyKey → ∀ t ∈ mark v.graceKey w.ticks, v.graceKey ∈ t.produced
  | _ => True

instance (policyKey : String) (w : World) (a : Action) : Decidable (AlwaysThere policyKey w a) :=
  match a with
  | .violation v => inferInstanceAs (Decidable (v.policyKey = policyKey →
      ∀ t ∈ mark v.graceKey w.ticks, v.graceKey ∈ t.produced))
  | .tick _ | .resume _ | .policySync .. | .capabilitySync _ => .isTrue True.intro

instance (d : Dispatcher) (policyKey : String) (grace : Int) (w : World) (a : Action) :
    Decidable (Stays d policyKey grace w a) :=
  match a with
  | .violation v => inferInstanceAs (Decidable (v.policyKey = policyKey → _ = true))
  | .tick _ | .resume _ | .policySync .. | .capabilitySync _ => .isTrue True.intro

theorem noEarlyReturn_of_alwaysThere {a : Action} (h : AlwaysThere policyKey w a) :
    NoEarlyReturn policyKey grace w a := by
  cases a with
  | violation v =>
      intro hkey _ _ _ newer gap older hsplit hgap _
      have hmem : gap ∈ mark v.graceKey w.ticks := by simp [hsplit]
      exact absurd (h hkey gap hmem) hgap
  | _ => exact True.intro

end Runs

/-- An agent that tolerates 85 degrees, and more of them for 100 seconds. -/
def hotAgent : Agent :=
  AgentRpc.applyPolicies (AgentRpc.freshPump []).agent 1
    [PolicySync.policyEntry .gpuTempHigh
      { severity := .notify, thresholdValue := some (.celsius 85), gracePeriodSeconds := some 100 }]

/-- A GPU with 90 degrees, and what a tick finds there. -/
def hotGpu : ComplianceMonitor.GpuTelemetryEntry :=
  { gpuIndex := 0, utilPct := 50, memoryUsedMb := some 100, temperatureC := some 90, processes := [] }

def hot : PolicyDispatch.Violation :=
  ComplianceMonitor.gpuViolation 1 hotGpu "gpu_temp_high"
    [("temperature_c", .num 90), ("threshold_c", .num 85)]

example : (ComplianceMonitor.runTick hotAgent 1 (fun _ _ => none) 0 [hotGpu] .empty).2 = [hot] := rfl

def notifier : Dispatcher :=
  { serverId := 1, hasNotify := true, hasKill := true, hasViolationEvent := true }

/-- The agent before its first tick. -/
def started : World :=
  { dispatch := { agent := hotAgent, pending := .empty, current := none, results := [], mentions := [] }
    ticks := [] }

/-- The GPU stays hot: the third tick acts. -/
theorem actsLate_stays_hot :
    (exec (step notifier) started [.tick 0, .violation hot, .tick (60 * secondMicros), .violation hot,
      .tick (120 * secondMicros), .violation hot]).map (·.dispatch.current.isSome) = some true ∧
    Along (step notifier) (ActsLate "gpu_temp_high" 100) started [.tick 0, .violation hot,
      .tick (60 * secondMicros), .violation hot, .tick (120 * secondMicros), .violation hot] :=
  ⟨by decide, (actsLate_iff (by decide) ⟨rfl, fun _ _ => rfl⟩ (by decide)).mpr
    (Meets.imp (fun _ _ => noEarlyReturn_of_alwaysThere) (by decide))⟩

/-- It is hot at second 0, not at second 60, and hot again at second 120. -/
def beforeReturn : World :=
  (exec (step notifier) started [.tick 0, .violation hot, .tick (60 * secondMicros),
    .tick (120 * secondMicros)]).get (by decide)

/-- A violation that has just come back is acted on at once. -/
theorem not_actsLate : ¬ ∀ (d : Dispatcher) (policyKey : String) (grace : Int) (w : World)
    (as : List Action), 0 < grace → Fresh policyKey w →
      Meets (step d) (Stays d policyKey grace) w as →
        Along (step d) (ActsLate policyKey grace) w as := by
  intro hall
  have halong := hall notifier "gpu_temp_high" 100 started
    ([.tick 0, .violation hot, .tick (60 * secondMicros), .tick (120 * secondMicros)] ++
      [.violation hot])
    (by decide) ⟨rfl, fun _ _ => rfl⟩ (by decide)
  obtain ⟨w, hw, hacts, hticks⟩ : ∃ w, step notifier beforeReturn (.violation hot) = some w ∧
      w.dispatch.current.isSome = true ∧ w.ticks = [⟨120 * secondMicros, [hot.graceKey]⟩,
        ⟨60 * secondMicros, []⟩, ⟨0, [hot.graceKey]⟩] :=
    ⟨_, rfl, by decide, rfl⟩
  have hpersisted := halong.step_of_exec (Option.some_get _).symm hw rfl hacts
  rw [hticks] at hpersisted
  have hgap := (hpersisted _ rfl).every ⟨60 * secondMicros, []⟩ (by simp) (by decide)
  cases hgap

end GracePeriod

end CoreLab
