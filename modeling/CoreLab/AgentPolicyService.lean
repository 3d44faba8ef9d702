import CoreLab.AgentHost

/-!
# CoreLab.AgentPolicyService

The rows of the policies and of the capabilities of a server, and what the
services write to them.  A service reads the rows, and its session writes the
columns that it changed; other sessions may have written in between.

* `profilePreset_severity`, `validateThreshold_profilePreset` — the presets pass the checks
  of `update_one`;
* `PolicyWrite.run_keys` — a write keeps the keys of the rows.
-/

namespace CoreLab

open Schema

/-! ## keys, severities and thresholds -/

/-- `POLICY_KEYS`. -/
inductive AgentPolicyKey where
  | noReservationOccupy | preemptOthersReservation | scriptOverrunGrace | memoryOveruse
  | gpuHang | gpuTempHigh | zombieProcess | unlinkedUserOccupy
deriving DecidableEq, Repr

def AgentPolicyKey.text : AgentPolicyKey → String
  | noReservationOccupy => "no_reservation_occupy"
  | preemptOthersReservation => "preempt_others_reservation"
  | scriptOverrunGrace => "script_overrun_grace"
  | memoryOveruse => "memory_overuse"
  | gpuHang => "gpu_hang"
  | gpuTempHigh => "gpu_temp_high"
  | zombieProcess => "zombie_process"
  | unlinkedUserOccupy => "unlinked_user_occupy"

def policyKeys : List AgentPolicyKey :=
  [.noReservationOccupy, .preemptOthersReservation, .scriptOverrunGrace, .memoryOveruse,
   .gpuHang, .gpuTempHigh, .zombieProcess, .unlinkedUserOccupy]

/-- The key of a text. -/
def AgentPolicyKey.parse? (text : String) : Option AgentPolicyKey :=
  policyKeys.find? fun key => key.text = text

theorem mem_policyKeys (key : AgentPolicyKey) : key ∈ policyKeys := by
  cases key <;> decide

@[simp] theorem AgentPolicyKey.parse?_text (key : AgentPolicyKey) : parse? key.text = some key := by
  cases key <;> decide

theorem AgentPolicyKey.text_of_parse? {text : String} {key : AgentPolicyKey}
    (h : parse? text = some key) : key.text = text := by
  simpa using List.find?_some h

/-- `Severity`. -/
inductive PolicySeverity where
  | logOnly | notify | warn | autoKill
deriving DecidableEq, Repr

def PolicySeverity.text : PolicySeverity → String
  | logOnly => "log_only"
  | notify => "notify"
  | warn => "warn"
  | autoKill => "auto_kill"

/-- A threshold, as its schema dumps it. -/
inductive Threshold where
  | pct (value : Int)
  | gpuHang (utilZeroSeconds memFloorMb : Int)
  | celsius (value : Int)
deriving DecidableEq, Repr

/-- `model_dump`. -/
def Threshold.fields : Threshold → List (String × Json)
  | pct value => [("value", .num value), ("unit", .str "pct")]
  | gpuHang utilZeroSeconds memFloorMb =>
    [("util_zero_seconds", .num utilZeroSeconds), ("mem_floor_mb", .num memFloorMb)]
  | celsius value => [("value", .num value), ("unit", .str "celsius")]

/-- The subclasses of `AgentPolicyError` that the update of one key raises. -/
inductive AgentPolicyError where
  | unknownPolicyKey (policyKey : String)
  | invalidThreshold
  | autoKillNotAllowed (message : String)
deriving DecidableEq, Repr

/-- A required integer field with its bounds. -/
def boundedField (sc : Scalars) (fields : List (String × Json)) (name : String) (ge : Int)
    (le : Option Int) : Option Int :=
  (fields.lookup name).bind fun value =>
    (sc.int value).filter fun n => decide (ge ≤ n) && le.all fun bound => decide (n ≤ bound)

/-- The literal of a unit, which is its default. -/
def unitField (fields : List (String × Json)) (unit : String) : Bool :=
  match fields.lookup "unit" with
  | none => true
  | some (.str text) => text = unit
  | some _ => false

/-- `_PctThreshold` and `_TempThreshold`. -/
def valueThreshold (sc : Scalars) (make : Int → Threshold) (le : Int) (unit : String)
    (fields : List (String × Json)) : Option Threshold :=
  if unitField fields unit then (boundedField sc fields "value" 0 (some le)).map make else none

/-- `_GpuHangThreshold`. -/
def gpuHangThreshold (sc : Scalars) (fields : List (String × Json)) : Option Threshold :=
  (boundedField sc fields "util_zero_seconds" 10 none).bind fun utilZeroSeconds =>
    (boundedField sc fields "mem_floor_mb" 0 none).map (.gpuHang utilZeroSeconds)

/-- `validate_threshold` of a payload; a key without a threshold drops it. -/
def validateThreshold (sc : Scalars) (policyKey : AgentPolicyKey) (fields : List (String × Json)) :
    Except AgentPolicyError (Option Threshold) :=
  let validated (t : Option Threshold) : Except AgentPolicyError (Option Threshold) :=
    t.elim (.error .invalidThreshold) fun t => .ok (some t)
  match policyKey with
  | .noReservationOccupy | .preemptOthersReservation | .scriptOverrunGrace | .zombieProcess
  | .unlinkedUserOccupy => .ok none
  | .memoryOveruse => validated (valueThreshold sc .pct 100 "pct" fields)
  | .gpuHang => validated (gpuHangThreshold sc fields)
  | .gpuTempHigh => validated (valueThreshold sc .celsius 200 "celsius" fields)

/-! ## rows -/

/-- The columns of `AgentPolicy` that a sync shows. -/
structure AgentPolicy where
  enabled : Bool := true
  severity : PolicySeverity
  thresholdValue : Option Threshold := none
  gracePeriodSeconds : Option Nat := none
  notifyAdmin : Bool := true
deriving DecidableEq, Repr

/-- `AgentCapability`. -/
structure AgentCapability where
  isEnabled : Bool
  isDangerous : Bool
deriving DecidableEq, Repr

inductive ProfileName where
  | permissive | standard | strict
deriving DecidableEq, Repr

/-- The threshold that every profile has. -/
def presetThreshold : AgentPolicyKey → Option Threshold
  | .memoryOveruse => some (.pct 20)
  | .gpuHang => some (.gpuHang 600 1024)
  | .gpuTempHigh => some (.celsius 85)
  | _ => none

/-- The grace period that every profile has. -/
def presetGrace : AgentPolicyKey → Option Nat
  | .noReservationOccupy | .scriptOverrunGrace => some 300
  | .preemptOthersReservation | .memoryOveruse => some 60
  | _ => none

/-- The severities of `_PROFILE_PRESETS`. -/
def presetSeverity : ProfileName → AgentPolicyKey → PolicySeverity
  | _, .scriptOverrunGrace => .autoKill
  | .permissive, _ => .logOnly
  | .standard, .preemptOthersReservation => .warn
  | .standard, .unlinkedUserOccupy => .logOnly
  | .standard, _ => .notify
  | .strict, .preemptOthersReservation => .autoKill
  | .strict, .zombieProcess | .strict, .unlinkedUserOccupy => .notify
  | .strict, _ => .warn

/-- `notify_admin` of `_PROFILE_PRESETS`. -/
def presetNotifyAdmin : ProfileName → AgentPolicyKey → Bool
  | .strict, _ => true
  | _, .gpuHang | _, .gpuTempHigh | _, .zombieProcess | _, .unlinkedUserOccupy => false
  | _, _ => true

/-- `profile_preset`, as the row that it seeds. -/
def profilePreset (profile : ProfileName) (policyKey : AgentPolicyKey) : AgentPolicy where
  severity := presetSeverity profile policyKey
  thresholdValue := presetThreshold policyKey
  gracePeriodSeconds := presetGrace policyKey
  notifyAdmin := presetNotifyAdmin profile policyKey

/-- `_AUTO_KILL_SETTABLE_KEYS`. -/
def autoKillSettableKeys : List AgentPolicyKey := [.preemptOthersReservation, .scriptOverrunGrace]

/-- A profile kills for no key that an admin may not set to kill. -/
theorem profilePreset_severity {profile : ProfileName} {policyKey : AgentPolicyKey}
    (h : (profilePreset profile policyKey).severity = .autoKill) :
    policyKey ∈ autoKillSettableKeys := by
  revert h
  cases profile <;> cases policyKey <;> decide

/-- The threshold of a profile is what its own check makes of it. -/
theorem validateThreshold_profilePreset {sc : Scalars} (hsc : sc.Lawful) (profile : ProfileName)
    (policyKey : AgentPolicyKey) :
    validateThreshold sc policyKey
        ((profilePreset profile policyKey).thresholdValue.elim [] Threshold.fields) =
      .ok (profilePreset profile policyKey).thresholdValue := by
  cases policyKey <;>
    simp [validateThreshold, profilePreset, presetThreshold, Threshold.fields, valueThreshold,
      gpuHangThreshold, unitField, boundedField, List.lookup_cons, Option.filter_some, hsc.int_num]

/-! ## writes -/

/-- The columns of a row that a session changed. -/
structure PolicyPatch where
  enabled : Option Bool
  severity : Option PolicySeverity
  thresholdValue : Option (Option Threshold)
  gracePeriodSeconds : Option (Option Nat)
  notifyAdmin : Option Bool
deriving DecidableEq, Repr

/-- The new value of a column that changed. -/
def changed {α : Type} [DecidableEq α] (before after : α) : Option α :=
  if after = before then none else some after

/-- What a session that loaded a row writes at its flush. -/
def PolicyPatch.between (before after : AgentPolicy) : PolicyPatch where
  enabled := changed before.enabled after.enabled
  severity := changed before.severity after.severity
  thresholdValue := changed before.thresholdValue after.thresholdValue
  gracePeriodSeconds := changed before.gracePeriodSeconds after.gracePeriodSeconds
  notifyAdmin := changed before.notifyAdmin after.notifyAdmin

/-- The row after the statement. -/
def PolicyPatch.apply (p : PolicyPatch) (row : AgentPolicy) : AgentPolicy where
  enabled := p.enabled.getD row.enabled
  severity := p.severity.getD row.severity
  thresholdValue := p.thresholdValue.getD row.thresholdValue
  gracePeriodSeconds := p.gracePeriodSeconds.getD row.gracePeriodSeconds
  notifyAdmin := p.notifyAdmin.getD row.notifyAdmin

@[simp] theorem getD_changed {α : Type} [DecidableEq α] (before after : α) :
    (changed before after).getD before = after := by
  unfold changed
  split
  · next h => exact h.symm
  · rfl

/-- On the row that was loaded, the statement makes the row that was wanted. -/
@[simp] theorem PolicyPatch.between_apply (before after : AgentPolicy) :
    (between before after).apply before = after := by
  simp [between, apply]

/-- A statement of a flush. -/
inductive PolicyWrite where
  | insert (policyKey : AgentPolicyKey) (row : AgentPolicy)
  | update (policyKey : AgentPolicyKey) (patch : PolicyPatch)
deriving DecidableEq, Repr

/-- The rows after the statement; `none` if `uq_policy_server_key` refuses the row, or no
row matches. -/
def PolicyWrite.run (rows : Dict AgentPolicyKey AgentPolicy) :
    PolicyWrite → Option (Dict AgentPolicyKey AgentPolicy)
  | .insert policyKey row => if (rows.get? policyKey).isSome then none else some (rows.set policyKey row)
  | .update policyKey patch => (rows.get? policyKey).map fun row => rows.set policyKey (patch.apply row)

theorem PolicyWrite.run_keys {rows rows' : Dict AgentPolicyKey AgentPolicy} {write : PolicyWrite}
    (h : write.run rows = some rows') {policyKey : AgentPolicyKey}
    (hkey : (rows.get? policyKey).isSome) : (rows'.get? policyKey).isSome := by
  cases write with
  | insert k row =>
      simp only [run, Option.ite_none_left_eq_some, Option.some.injEq] at h
      obtain ⟨-, rfl⟩ := h
      rw [Dict.get?_set]
      split
      · rfl
      · exact hkey
  | update k patch =>
      obtain ⟨row, -, rfl⟩ := Option.map_eq_some_iff.mp h
      rw [Dict.get?_set]
      split
      · rfl
      · exact hkey

/-- The statements of a transaction, in order. -/
def runWrites (rows : Dict AgentPolicyKey AgentPolicy) (writes : List PolicyWrite) :
    Option (Dict AgentPolicyKey AgentPolicy) :=
  writes.foldlM PolicyWrite.run rows

theorem runWrites_keys {rows rows' : Dict AgentPolicyKey AgentPolicy} {writes : List PolicyWrite}
    (h : runWrites rows writes = some rows') {policyKey : AgentPolicyKey}
    (hkey : (rows.get? policyKey).isSome) : (rows'.get? policyKey).isSome := by
  induction writes generalizing rows with
  | nil => exact Option.some.inj h ▸ hkey
  | cons write writes ih =>
      rw [runWrites, List.foldlM_cons] at h
      obtain ⟨rows₁, hrun, hrest⟩ := Option.bind_eq_some_iff.mp h
      exact ih hrest (PolicyWrite.run_keys hrun hkey)

/-! ## the services -/

/-- `PolicyUpdateRequest`. -/
structure PolicyUpdateRequest where
  enabled : Option Bool := none
  severity : Option PolicySeverity := none
  thresholdValue : Option (List (String × Json)) := none
  gracePeriodSeconds : Option Nat := none
  notifyAdmin : Option Bool := none

/-- The row with the fields of the request, and its validated threshold, in place. -/
def PolicyUpdateRequest.over (body : PolicyUpdateRequest) (threshold : Option Threshold)
    (row : AgentPolicy) : AgentPolicy where
  enabled := body.enabled.getD row.enabled
  severity := body.severity.getD row.severity
  thresholdValue := threshold.or row.thresholdValue
  gracePeriodSeconds := body.gracePeriodSeconds.or row.gracePeriodSeconds
  notifyAdmin := body.notifyAdmin.getD row.notifyAdmin

/-- `update_one`, up to its flush. -/
def updateOne (sc : Scalars) (rows : Dict AgentPolicyKey AgentPolicy) (policyKey : String)
    (body : PolicyUpdateRequest) : Except AgentPolicyError PolicyWrite :=
  match AgentPolicyKey.parse? policyKey with
  | none => .error (.unknownPolicyKey policyKey)
  | some key =>
    if body.severity = some .autoKill ∧ key ∉ autoKillSettableKeys then
      .error (.autoKillNotAllowed ("policy_key '" ++ policyKey ++
        "' may not be set to auto_kill; only preemption may auto-kill (others top out at warn)"))
    else do
      let threshold ← match body.thresholdValue with
        | none => .ok none
        | some fields => validateThreshold sc key fields
      match rows.get? key with
      -- a key that was not seeded starts from the standard profile
      | none => .ok (.insert key (body.over threshold (profilePreset .standard key)))
      | some row => .ok (.update key (.between row (body.over threshold row)))

/-- `seed_default_profile`. -/
def seedDefaultProfile (rows : Dict AgentPolicyKey AgentPolicy) (profile : ProfileName) :
    List PolicyWrite :=
  if rows.entries = [] then policyKeys.map fun key => .insert key (profilePreset profile key) else []

/-- `switch_profile`; it leaves `enabled` as it is. -/
def switchProfile (rows : Dict AgentPolicyKey AgentPolicy) (profile : ProfileName) :
    List PolicyWrite :=
  policyKeys.filterMap fun key =>
    match rows.get? key with
    | none => some (.insert key (profilePreset profile key))
    | some row =>
      let after := { profilePreset profile key with enabled := row.enabled }
      if row = after then none else some (.update key (.between row after))

/-- The subclasses of `ServerError` that the update of a capability raises. -/
inductive CapabilityError where
  | notFound (message : String)
  | dangerousWithoutNotes (message : String)
deriving DecidableEq, Repr

/-- `update_capability`, up to its flush: the new value of the column, if it changed. -/
def updateCapability (rows : Dict String AgentCapability) (serverId : Nat) (capabilityKey : String)
    (enabled : Bool) (notes : Option String) : Except CapabilityError (Option Bool) :=
  match rows.get? capabilityKey with
  | none => .error (.notFound s!"capability {capabilityKey} not found on server {serverId}")
  | some cap =>
    if enabled ∧ cap.isDangerous ∧ notes.all fun text => (AgentHost.stripped text).length < 10 then
      .error (.dangerousWithoutNotes "dangerous capabilities require notes >= 10 chars")
    else .ok (changed cap.isEnabled enabled)

end CoreLab
