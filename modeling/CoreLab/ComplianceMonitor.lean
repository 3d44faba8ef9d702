import CoreLab.Compliance
import CoreLab.PolicyDispatch
import CoreLab.PolicySync
import CoreLab.Lib.Streak

/-!
# CoreLab.ComplianceMonitor

The detection on whole GPUs of the agent's compliance monitor: a GPU that hangs, and one
that is too hot.

* `InForce` — the threshold that counts: the synced one, or the default;
* `utilZeroSince_run` — what the monitor keeps of a GPU is the streak of its own ticks;
* `hang_exact` — a hang is reported exactly when the memory is held and the utilisation
  has been 0 at every tick for as long as the policy says.
-/

namespace CoreLab

open Calendar Schema AgentHost

namespace ComplianceMonitor

/-! ## the evaluation of a GPU -/

/-- What the monitor reads of a `GpuTelemetryEntry`. -/
structure GpuTelemetryEntry where
  gpuIndex : Int
  utilPct : Int
  memoryUsedMb : Option Int
  temperatureC : Option Int
  processes : List GpuProcess

/-- `_MonitorState`: since when the utilisation of a GPU is 0, by server and index. -/
abbrev MonitorState := Dict (Int × Int) (Option Time)

def utilZeroSince (state : MonitorState) (key : Int × Int) : Option Time := (state.get? key).join

/-- The streak of a GPU after a tick. -/
def trackUtil (state : MonitorState) (serverId : Int) (gpu : GpuTelemetryEntry) (now : Time) :
    MonitorState :=
  let key := (serverId, gpu.gpuIndex)
  state.set key (if gpu.utilPct = 0 then some ((utilZeroSince state key).getD now) else none)

/-- `int(value)`; `none` is its `TypeError` or `ValueError`. -/
def toInt : Json → Option Int
  | .bool b => some (if b then 1 else 0)
  | value => CacheFrames.pyInt value

/-- The threshold of a synced policy, where it is a dict. -/
def thresholdFields (a : Agent) (serverId : Int) (policyKey : String) : List (String × Json) :=
  match (a.policies.get? (serverId, policyKey)).bind (·.thresholdValue) with
  | some (.obj fields) => fields
  | _ => []

def thresholdField (a : Agent) (serverId : Int) (policyKey name : String) (default : Int) :
    Option Int :=
  match (thresholdFields a serverId policyKey).lookup name with
  | none => some default
  | some value => toInt value

/-- `threshold_s`, with `_GPU_HANG_DEFAULT_UTIL_ZERO_S`. -/
def utilZeroSeconds (a : Agent) (serverId : Int) : Option Int :=
  thresholdField a serverId "gpu_hang" "util_zero_seconds" 600

/-- `mem_floor_mb`, with `_GPU_HANG_DEFAULT_MEM_FLOOR_MB`. -/
def memFloorMb (a : Agent) (serverId : Int) : Option Int :=
  thresholdField a serverId "gpu_hang" "mem_floor_mb" 1024

/-- `temp_threshold`, with `_GPU_TEMP_HIGH_DEFAULT_C`. -/
def tempThreshold (a : Agent) (serverId : Int) : Option Int :=
  thresholdField a serverId "gpu_temp_high" "value" 85

/-- A violation of a GPU as a whole. -/
def gpuViolation (serverId : Int) (gpu : GpuTelemetryEntry) (policyKey : String)
    (payload : List (String × Json)) : PolicyDispatch.Violation :=
  { policyKey := policyKey, serverId := serverId, gpuIdLocal := gpu.gpuIndex
    linuxUsername := none, pid := none, linkedUserIds := []
    payload := payload.foldl (fun d e => d.set e.1 e.2) .empty }

/-- The memory in use; none reported is 0. -/
def GpuTelemetryEntry.memoryUsed (gpu : GpuTelemetryEntry) : Int := gpu.memoryUsedMb.getD 0

/-- The `gpu_hang` part of `_evaluate_gpu`. -/
def hangViolations (serverId : Int) (gpu : GpuTelemetryEntry) (since : Option Time)
    (thresholdS memFloor : Int) (now : Time) : List PolicyDispatch.Violation :=
  match since with
  | none => []
  | some since =>
    if memFloor ≤ gpu.memoryUsed ∧ thresholdS * secondMicros ≤ now - since then
      [gpuViolation serverId gpu "gpu_hang"
        [("util_zero_for_s", .num ((now - since).tdiv secondMicros)),
         ("memory_used_mb", .num gpu.memoryUsed), ("mem_floor_mb", .num memFloor),
         ("threshold_value_s", .num thresholdS)]]
    else []

/-- The `gpu_temp_high` part. -/
def tempViolations (serverId : Int) (gpu : GpuTelemetryEntry) (threshold : Int) :
    List PolicyDispatch.Violation :=
  let temperatureC := gpu.temperatureC.getD 0
  if threshold < temperatureC then
    [gpuViolation serverId gpu "gpu_temp_high"
      [("temperature_c", .num temperatureC), ("threshold_c", .num threshold)]]
  else []

/-- `_evaluate_gpu`; `none` is the exception of a threshold that is no number. -/
def evaluateGpu (a : Agent) (serverId : Int) (gpu : GpuTelemetryEntry) (state : MonitorState)
    (now : Time) : MonitorState × Option (List PolicyDispatch.Violation) :=
  let state := trackUtil state serverId gpu now
  (state, do
    let thresholdS ← utilZeroSeconds a serverId
    let memFloor ← memFloorMb a serverId
    let since := utilZeroSince state (serverId, gpu.gpuIndex)
    let hang := hangViolations serverId gpu since thresholdS memFloor now
    let temp ← tempThreshold a serverId
    pure (hang ++ tempViolations serverId gpu temp))

/-! ## runs -/

/-- One call of `_evaluate_gpu`, with the agent's caches and the clock as they are then. -/
structure Evaluation where
  agent : Agent
  serverId : Int
  gpu : GpuTelemetryEntry
  now : Time

def Evaluation.key (e : Evaluation) : Int × Int := (e.serverId, e.gpu.gpuIndex)

/-- The utilisation is 0. -/
def Evaluation.idle (e : Evaluation) : Bool := e.gpu.utilPct = 0

/-- The state of the monitor after these evaluations. -/
def run (es : List Evaluation) : MonitorState :=
  es.foldl (fun state e => (evaluateGpu e.agent e.serverId e.gpu state e.now).1) .empty

/-- The violations that an evaluation finds after others. -/
def found (es : List Evaluation) (e : Evaluation) : Option (List PolicyDispatch.Violation) :=
  (evaluateGpu e.agent e.serverId e.gpu (run es) e.now).2

/-- The ticks of one GPU. -/
def ticksOf (key : Int × Int) (es : List Evaluation) : List Evaluation :=
  es.filter fun e => e.key = key

/-- `run_tick` while no sync arrives: the violations it dispatches, in order.  The exception of
an evaluation ends it; `verdict` is `_evaluate_process`. -/
def runTick (a : Agent) (serverId : Int)
    (verdict : Int → GpuProcess → Option PolicyDispatch.Violation) (now : Time) :
    List GpuTelemetryEntry → MonitorState → MonitorState × List PolicyDispatch.Violation
  | [], state => (state, [])
  | gpu :: gpus, state =>
    let processes := gpu.processes.filterMap (verdict gpu.gpuIndex)
    let evaluated := evaluateGpu a serverId gpu state now
    match evaluated.2 with
    | none => (evaluated.1, processes)
    | some found =>
      let rest := runTick a serverId verdict now gpus evaluated.1
      (rest.1, processes ++ found ++ rest.2)

/-! ## the streak of a GPU -/

section Streaks

variable {es : List Evaluation} {e : Evaluation} {key : Int × Int}

theorem run_concat (es : List Evaluation) (e : Evaluation) :
    run (es ++ [e]) = trackUtil (run es) e.serverId e.gpu e.now := by
  simp [run, evaluateGpu]

/-- A tick of another GPU changes nothing. -/
theorem get?_run_concat_of_ne (h : e.key ≠ key) :
    (run (es ++ [e])).get? key = (run es).get? key := by
  rw [run_concat, trackUtil]
  exact (Dict.get?_set ..).trans (if_neg (Ne.symm h))

theorem utilZeroSince_run_concat :
    utilZeroSince (run (es ++ [e])) e.key =
      Streak.next Evaluation.idle Evaluation.now (utilZeroSince (run es) e.key) e := by
  rw [run_concat, utilZeroSince, trackUtil, Dict.get?_set, Evaluation.key, if_pos rfl]
  simp [Streak.next, Evaluation.idle]

/-- What the monitor keeps of a GPU is the streak of the GPU's own ticks. -/
theorem utilZeroSince_run (es : List Evaluation) (key : Int × Int) :
    utilZeroSince (run es) key = Streak.start Evaluation.idle Evaluation.now (ticksOf key es) := by
  induction es using List.reverseRecOn with
  | nil => rfl
  | append_singleton es e ih =>
      rw [ticksOf, List.filter_append]
      by_cases h : e.key = key
      · subst h
        rw [utilZeroSince_run_concat, ih]
        simp [ticksOf]
      · rw [utilZeroSince, get?_run_concat_of_ne h]
        simpa [h, ticksOf, utilZeroSince] using ih

/-- A tick adds the evaluations of its GPUs to a run, up to the first exception. -/
theorem runTick_run (a : Agent) (serverId : Int)
    (verdict : Int → GpuProcess → Option PolicyDispatch.Violation) (now : Time)
    (gpus : List GpuTelemetryEntry) (es : List Evaluation) :
    ∃ evaluated, evaluated <+: gpus.map (fun gpu => ⟨a, serverId, gpu, now⟩) ∧
      (runTick a serverId verdict now gpus (run es)).1 = run (es ++ evaluated) := by
  induction gpus generalizing es with
  | nil => exact ⟨[], List.prefix_rfl, by simp [runTick]⟩
  | cons gpu gpus ih =>
      let e : Evaluation := ⟨a, serverId, gpu, now⟩
      have hrun : (evaluateGpu a serverId gpu (run es) now).1 = run (es ++ [e]) :=
        (run_concat es e).symm
      rw [runTick]
      dsimp only
      split
      · exact ⟨[e], by simp [e], hrun⟩
      · obtain ⟨evaluated, hprefix, hstate⟩ := ih (es ++ [e])
        rw [hrun]
        refine ⟨e :: evaluated, ?_, by simpa using hstate⟩
        rw [List.map_cons]
        exact List.cons_prefix_cons.mpr ⟨rfl, hprefix⟩

end Streaks

/-! ## thresholds in force -/

/-- The policy was synced with a threshold that has the field. -/
def Synced (a : Agent) (serverId : Int) (policyKey name : String) (value : Json) : Prop :=
  ∃ entry fields, a.policies.get? (serverId, policyKey) = some entry ∧
    entry.thresholdValue = some (.obj fields) ∧ fields.lookup name = some value

/-- The field of a threshold that counts: as it was synced, if it is a number, and the default
where none was synced. -/
inductive InForce (a : Agent) (serverId : Int) (policyKey name : String) (default : Int) : Int → Prop
  | synced {value : Json} {n : Int} (hvalue : Synced a serverId policyKey name value)
      (hn : toInt value = some n) : InForce a serverId policyKey name default n
  | unsynced (hnone : ∀ value, ¬ Synced a serverId policyKey name value) :
      InForce a serverId policyKey name default default

section Thresholds

variable {a : Agent} {serverId : Int} {policyKey name : String} {default : Int}

theorem lookup_thresholdFields_iff {value : Json} :
    (thresholdFields a serverId policyKey).lookup name = some value ↔
      Synced a serverId policyKey name value := by
  unfold thresholdFields
  constructor
  · intro h
    split at h
    · next fields hfields =>
        obtain ⟨entry, hentry, hvalue⟩ := Option.bind_eq_some_iff.mp hfields
        exact ⟨entry, fields, hentry, hvalue, h⟩
    · cases h
  · rintro ⟨entry, fields, hentry, hvalue, hlookup⟩
    simp [hentry, hvalue, hlookup]

/-- What the monitor reads is the threshold in force. -/
theorem thresholdField_eq_some_iff {n : Int} :
    thresholdField a serverId policyKey name default = some n ↔
      InForce a serverId policyKey name default n := by
  unfold thresholdField
  constructor
  · intro h
    split at h
    · next hnone =>
        obtain rfl := Option.some.inj h
        refine .unsynced fun value hvalue => ?_
        cases hnone.symm.trans (lookup_thresholdFields_iff.mpr hvalue)
    · next value hvalue => exact .synced (lookup_thresholdFields_iff.mp hvalue) h
  · rintro (⟨hvalue, hn⟩ | hnone)
    · rw [lookup_thresholdFields_iff.mpr hvalue]
      exact hn
    · have hlookup : (thresholdFields a serverId policyKey).lookup name = none :=
        Option.eq_none_iff_forall_ne_some.mpr fun value hvalue =>
          hnone value (lookup_thresholdFields_iff.mp hvalue)
      rw [hlookup]

/-- A field of a threshold that passed the schemas of the backend is a number, the unit
apart. -/
theorem toInt_lookup_fields {t : Threshold} {value : Json} (hname : name ≠ "unit")
    (h : t.fields.lookup name = some value) : ∃ n, toInt value = some n := by
  have hnum : ∀ e ∈ t.fields, e.1 = "unit" ∨ ∃ n, e.2 = .num n := by
    cases t <;> simp [Threshold.fields]
  obtain ⟨before, after, hsplit, -⟩ := List.lookup_eq_some_iff.mp h
  have hmem : (name, value) ∈ t.fields := by
    rw [hsplit]
    simp
  obtain hunit | ⟨n, rfl⟩ := hnum _ hmem
  · exact absurd hunit hname
  · exact ⟨n, rfl⟩

/-- After a sync of the backend's rows a number is in force. -/
theorem exists_inForce_applyPolicies (a : Agent) (serverId : Int)
    (rows : List (AgentPolicyKey × AgentPolicy)) (policyKey : String) (hname : name ≠ "unit")
    (default : Int) :
    ∃ n, InForce (AgentRpc.applyPolicies a serverId (rows.map fun e => PolicySync.policyEntry e.1 e.2))
      serverId policyKey name default n := by
  by_cases hsynced : ∃ value, Synced (AgentRpc.applyPolicies a serverId
      (rows.map fun e => PolicySync.policyEntry e.1 e.2)) serverId policyKey name value
  · obtain ⟨value, entry, fields, hentry, hvalue, hlookup⟩ := hsynced
    have hfields : ∃ t : Threshold, fields = t.fields := by
      obtain ⟨p, hp, rfl⟩ | hold := Dict.mem_of_get?_foldl_set hentry
      · obtain ⟨e, -, rfl⟩ := List.mem_map.mp hp
        obtain ⟨t, -, ht⟩ := Option.map_eq_some_iff.mp hvalue
        exact ⟨t, (Json.obj.inj ht).symm⟩
      · rw [Dict.get?_dropKeys (by simp)] at hold
        cases hold
    obtain ⟨t, rfl⟩ := hfields
    obtain ⟨n, hn⟩ := toInt_lookup_fields hname hlookup
    exact ⟨n, .synced ⟨entry, _, hentry, hvalue, hlookup⟩ hn⟩
  · exact ⟨default, .unsynced fun value hvalue => hsynced ⟨value, hvalue⟩⟩

end Thresholds

/-! ## hangs -/

theorem mem_hangViolations_iff {serverId : Int} {gpu : GpuTelemetryEntry} {since : Option Time}
    {thresholdS memFloor : Int} {now : Time} :
    (∃ v ∈ hangViolations serverId gpu since thresholdS memFloor now,
      v.policyKey = "gpu_hang" ∧ v.gpuIdLocal = gpu.gpuIndex) ↔
      memFloor ≤ gpu.memoryUsed ∧ ∃ s, since = some s ∧ s ≤ now - thresholdS * secondMicros := by
  cases since with
  | none => simp [hangViolations]
  | some s =>
      have hle : thresholdS * secondMicros ≤ now - s ↔ s ≤ now - thresholdS * secondMicros :=
        le_sub_comm
      by_cases h : memFloor ≤ gpu.memoryUsed ∧ s ≤ now - thresholdS * secondMicros
      · simp [hangViolations, hle, h, gpuViolation]
      · simp [hangViolations, hle, h]

theorem not_hang_of_mem_tempViolations {serverId : Int} {gpu : GpuTelemetryEntry} {threshold : Int}
    {v : PolicyDispatch.Violation} (h : v ∈ tempViolations serverId gpu threshold) :
    v.policyKey ≠ "gpu_hang" := by
  unfold tempViolations at h
  dsimp only at h
  split at h
  · have hkey : v.policyKey = "gpu_temp_high" := congrArg (·.policyKey) (List.mem_singleton.mp h)
    rw [hkey]
    decide
  · cases h

section Hangs

variable {es : List Evaluation} {e : Evaluation}

/-- What an evaluation finds, where the thresholds are numbers. -/
theorem found_eq {thresholdS memFloor temp : Int}
    (hthreshold : utilZeroSeconds e.agent e.serverId = some thresholdS)
    (hfloor : memFloorMb e.agent e.serverId = some memFloor)
    (htemp : tempThreshold e.agent e.serverId = some temp) :
    found es e = some
      (hangViolations e.serverId e.gpu (utilZeroSince (run (es ++ [e])) e.key) thresholdS memFloor
          e.now ++
        tempViolations e.serverId e.gpu temp) := by
  simp only [found, evaluateGpu, hthreshold, hfloor, htemp, ← run_concat es e]
  rfl

/-- A hang is found when the memory is held and the GPU's own streak is long enough. -/
theorem mem_found_iff (hmono : (es ++ [e]).Pairwise fun x y => x.now ≤ y.now)
    {thresholdS memFloor temp : Int} :
    (∃ v ∈ hangViolations e.serverId e.gpu (utilZeroSince (run (es ++ [e])) e.key) thresholdS
          memFloor e.now ++ tempViolations e.serverId e.gpu temp,
        v.policyKey = "gpu_hang" ∧ v.gpuIdLocal = e.gpu.gpuIndex) ↔
      memFloor ≤ e.gpu.memoryUsed ∧
        Streak.HeldSince Evaluation.idle Evaluation.now (ticksOf e.key (es ++ [e]))
          (e.now - thresholdS * secondMicros) := by
  have hsorted : (ticksOf e.key (es ++ [e])).Pairwise fun x y => x.now ≤ y.now := hmono.filter _
  rw [Streak.heldSince_iff hsorted, ← utilZeroSince_run, ← mem_hangViolations_iff]
  constructor
  · rintro ⟨v, hv, hkey, hgpu⟩
    obtain hv | hv := List.mem_append.mp hv
    · exact ⟨v, hv, hkey, hgpu⟩
    · exact absurd hkey (not_hang_of_mem_tempViolations hv)
  · rintro ⟨v, hv, hkey, hgpu⟩
    exact ⟨v, List.mem_append_left _ hv, hkey, hgpu⟩

/-- **Hangs are found exactly**, whatever the thresholds in force: a GPU is reported as
hanging when its memory is held, and its utilisation was 0 at each of its ticks since one
that is `threshold_s` ago or more.  The ticks of other GPUs do not touch its streak, and the
thresholds of earlier ticks do not count. -/
theorem hang_exact (es : List Evaluation) (e : Evaluation)
    (hmono : (es ++ [e]).Pairwise fun x y => x.now ≤ y.now) :
    (∀ thresholdS memFloor temp : Int,
      InForce e.agent e.serverId "gpu_hang" "util_zero_seconds" 600 thresholdS →
      InForce e.agent e.serverId "gpu_hang" "mem_floor_mb" 1024 memFloor →
      InForce e.agent e.serverId "gpu_temp_high" "value" 85 temp →
      ∃ out, found es e = some out ∧
        ((∃ v ∈ out, v.policyKey = "gpu_hang" ∧ v.gpuIdLocal = e.gpu.gpuIndex) ↔
          memFloor ≤ e.gpu.memoryUsed ∧
            Streak.HeldSince Evaluation.idle Evaluation.now (ticksOf e.key (es ++ [e]))
              (e.now - thresholdS * secondMicros))) ∧
    ∀ key, e.key ≠ key → (run (es ++ [e])).get? key = (run es).get? key := by
  refine ⟨fun thresholdS memFloor temp hthreshold hfloor htemp => ?_,
    fun key => get?_run_concat_of_ne⟩
  have heq : found es e = some _ := found_eq (thresholdField_eq_some_iff.mpr hthreshold)
    (thresholdField_eq_some_iff.mpr hfloor) (thresholdField_eq_some_iff.mpr htemp)
  exact ⟨_, heq, mem_found_iff hmono⟩

end Hangs

/-- An agent with the hang policy of its server synced: 60 seconds, 500 MB. -/
def syncedAgent : Agent :=
  AgentRpc.applyPolicies (AgentRpc.freshPump []).agent 1
    [PolicySync.policyEntry .gpuHang { severity := .notify, thresholdValue := some (.gpuHang 60 500) }]

/-- A tick of a GPU that holds 2 GB. -/
def tickAt (seconds : Int) (gpuIndex utilPct : Int) : Evaluation :=
  { agent := syncedAgent, serverId := 1, now := seconds * secondMicros
    gpu := { gpuIndex := gpuIndex, utilPct := utilPct, memoryUsedMb := some 2048
             temperatureC := some 60, processes := [] } }

/-- GPU 0 is idle from second 30 to second 90, whatever GPU 1 does. -/
theorem hang_exact_idle : ∃ out,
    found [tickAt 0 0 50, tickAt 30 0 0, tickAt 60 1 80] (tickAt 90 0 0) = some out ∧
      ∃ v ∈ out, v.policyKey = "gpu_hang" ∧ v.gpuIdLocal = 0 := by
  obtain ⟨temp, htemp⟩ := exists_inForce_applyPolicies (AgentRpc.freshPump []).agent 1
    [(.gpuHang, { severity := .notify, thresholdValue := some (.gpuHang 60 500) })] "gpu_temp_high"
    (show "value" ≠ "unit" by decide) 85
  have hthreshold : InForce syncedAgent 1 "gpu_hang" "util_zero_seconds" 600 60 :=
    thresholdField_eq_some_iff.mp (by decide +kernel)
  have hfloor : InForce syncedAgent 1 "gpu_hang" "mem_floor_mb" 1024 500 :=
    thresholdField_eq_some_iff.mp (by decide +kernel)
  obtain ⟨out, hout, hiff⟩ :=
    (hang_exact [tickAt 0 0 50, tickAt 30 0 0, tickAt 60 1 80] (tickAt 90 0 0) (by decide)).1
      60 500 temp hthreshold hfloor htemp
  exact ⟨out, hout, hiff.mpr ⟨by decide, [tickAt 0 0 50], tickAt 30 0 0, [tickAt 90 0 0], rfl,
    by decide, by decide⟩⟩

end ComplianceMonitor

end CoreLab
