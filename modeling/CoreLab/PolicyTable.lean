import CoreLab.AgentPolicyService
import CoreLab.Lib.Table
import CoreLab.Lib.Transition
import CoreLab.PolicyDispatch

/-!
# CoreLab.PolicyTable

The `agent_policy` table under the three services that write it: the seed of a server, the
switch of a profile and the update of one key, in any order and for any servers.

* `exists_foldlM_store` — a flush that writes each key once: what is found afterwards;
* `served_updateOne`, `served_presets` — what each service leaves in the table;
* `servePolicies_laws` — over a sequence of requests, the rows keep their checks.
-/

namespace CoreLab

open Loops Relational Schema Transition

namespace PolicyTable

/-! ## rows -/

/-- A row of `agent_policy`. -/
structure PolicyRow where
  id : Nat
  serverId : Nat
  policyKey : AgentPolicyKey
  policy : AgentPolicy
deriving DecidableEq, Repr

instance : Keyed PolicyRow := ⟨fun r => r.id⟩

/-- `uq_policy_server_key` holds. -/
def UniqueKeys (t : Table PolicyRow) : Prop :=
  (t.rows.map fun r => (r.serverId, r.policyKey)).Nodup

instance (t : Table PolicyRow) : Decidable (UniqueKeys t) :=
  inferInstanceAs (Decidable (List.Nodup _))

/-- `list_for_server`, by key. -/
def listForServer (t : Table PolicyRow) (serverId : Nat) : Dict AgentPolicyKey AgentPolicy :=
  (t.rows.filter (·.serverId = serverId)).foldl (fun d r => d.set r.policyKey r.policy) .empty

/-- The row of an `INSERT`. -/
def newRow (serverId : Nat) (policyKey : AgentPolicyKey) (policy : AgentPolicy) :
    Table.Insertion PolicyRow :=
  ⟨fun id => ⟨id, serverId, policyKey, policy⟩, fun _ => rfl⟩

/-- The effect of an `UPDATE` on a row. -/
def patched (serverId : Nat) (policyKey : AgentPolicyKey) (patch : PolicyPatch) (r : PolicyRow) :
    PolicyRow :=
  if r.serverId = serverId ∧ r.policyKey = policyKey then { r with policy := patch.apply r.policy }
  else r

section

variable (serverId : Nat) (policyKey : AgentPolicyKey) (patch : PolicyPatch) (r : PolicyRow)

@[simp] theorem id_patched : (patched serverId policyKey patch r).id = r.id := by
  unfold patched
  split <;> rfl

@[simp] theorem serverId_patched : (patched serverId policyKey patch r).serverId = r.serverId := by
  unfold patched
  split <;> rfl

@[simp] theorem policyKey_patched :
    (patched serverId policyKey patch r).policyKey = r.policyKey := by
  unfold patched
  split <;> rfl

end

/-- A statement of a flush; `none` if `uq_policy_server_key` refuses the row. -/
def store (serverId : Nat) (t : Table PolicyRow) : PolicyWrite → Option (Table PolicyRow)
  | .insert policyKey policy =>
    if t.rows.any fun r => r.serverId = serverId ∧ r.policyKey = policyKey then none
    else some (t.append (newRow serverId policyKey policy))
  | .update policyKey patch =>
    some (t.mapRows (patched serverId policyKey patch) (id_patched serverId policyKey patch))

/-! ## requests -/

/-- A call of one of the services. -/
inductive Request where
  | seedDefaultProfile (serverId : Nat) (profile : ProfileName)
  | switchProfile (serverId : Nat) (profile : ProfileName)
  | updateOne (serverId : Nat) (policyKey : String) (body : PolicyUpdateRequest)

/-- What a call raises. -/
inductive Refusal where
  | policy (e : AgentPolicyError)
  | integrityError
deriving DecidableEq, Repr

/-- `session.flush`, and the commit. -/
def flush (serverId : Nat) (t : Table PolicyRow) (writes : List PolicyWrite) :
    Table PolicyRow × Option Refusal :=
  match writes.foldlM (store serverId) t with
  | some t' => (t', none)
  | none => (t, some .integrityError)

/-- The table after a call, and what it raised. -/
def serve (sc : Scalars) (t : Table PolicyRow) : Request → Table PolicyRow × Option Refusal
  | .seedDefaultProfile serverId profile =>
    flush serverId t (CoreLab.seedDefaultProfile (listForServer t serverId) profile)
  | .switchProfile serverId profile =>
    flush serverId t (CoreLab.switchProfile (listForServer t serverId) profile)
  | .updateOne serverId policyKey body =>
    match CoreLab.updateOne sc (listForServer t serverId) policyKey body with
    | .ok write => flush serverId t [write]
    -- the route commits here too: nothing has been written
    | .error e => (t, some (.policy e))

def step (sc : Scalars) (t : Table PolicyRow) (req : Request) : Option (Table PolicyRow) :=
  some (serve sc t req).1

/-! ## what is found -/

/-- The columns under a key of a server. -/
def lookup (t : Table PolicyRow) (serverId : Nat) (policyKey : AgentPolicyKey) :
    Option AgentPolicy :=
  (listForServer t serverId).get? policyKey

variable {t t' : Table PolicyRow} {serverId : Nat} {policyKey : AgentPolicyKey}
  {policy before after : AgentPolicy}

/-- Two rows of one key are one row. -/
theorem UniqueKeys.eq (h : UniqueKeys t) {r s : PolicyRow} (hr : r ∈ t.rows) (hs : s ∈ t.rows)
    (hserver : r.serverId = s.serverId) (hkey : r.policyKey = s.policyKey) : r = s :=
  List.inj_on_of_nodup_map h hr hs (by rw [hserver, hkey])

theorem lookup_of_mem (h : UniqueKeys t) {r : PolicyRow} (hr : r ∈ t.rows) :
    lookup t r.serverId r.policyKey = some r.policy := by
  apply Dict.get?_foldl_set
  · exact ⟨r, List.mem_filter.mpr ⟨hr, decide_eq_true rfl⟩, rfl⟩
  · intro s hs hkey
    obtain ⟨hs, hserver⟩ := List.mem_filter.mp hs
    rw [h.eq hs hr (of_decide_eq_true hserver) hkey]

theorem lookup_eq_none (h : ∀ r ∈ t.rows, r.serverId = serverId → r.policyKey ≠ policyKey) :
    lookup t serverId policyKey = none := by
  rw [lookup, listForServer, Dict.get?_foldl_set_of_ne]
  · rfl
  · intro r hr
    obtain ⟨hr, hserver⟩ := List.mem_filter.mp hr
    exact h r hr (of_decide_eq_true hserver)

theorem lookup_eq_some_iff (h : UniqueKeys t) :
    lookup t serverId policyKey = some policy ↔
      ∃ r ∈ t.rows, r.serverId = serverId ∧ r.policyKey = policyKey ∧ r.policy = policy := by
  constructor
  · intro hfound
    by_cases hrow : ∃ r ∈ t.rows, r.serverId = serverId ∧ r.policyKey = policyKey
    · obtain ⟨r, hr, rfl, rfl⟩ := hrow
      rw [lookup_of_mem h hr, Option.some.injEq] at hfound
      exact ⟨r, hr, rfl, rfl, hfound⟩
    · rw [lookup_eq_none fun r hr hserver hkey => hrow ⟨r, hr, hserver, hkey⟩] at hfound
      cases hfound
  · rintro ⟨r, hr, rfl, rfl, rfl⟩
    exact lookup_of_mem h hr

theorem lookup_eq_none_iff (h : UniqueKeys t) :
    lookup t serverId policyKey = none ↔
      ∀ r ∈ t.rows, r.serverId = serverId → r.policyKey ≠ policyKey := by
  refine ⟨fun hnone r hr hserver hkey => ?_, lookup_eq_none⟩
  subst hserver hkey
  simp [lookup_of_mem h hr] at hnone

/-! ## one statement -/

/-- The table has `after` under the key, and under every other key what it had. -/
structure Stored (serverId : Nat) (policyKey : AgentPolicyKey) (after : AgentPolicy)
    (t t' : Table PolicyRow) : Prop where
  unique : UniqueKeys t'
  lookup_eq : ∀ s k, lookup t' s k =
    if s = serverId ∧ k = policyKey then some after else lookup t s k

/-- An `INSERT` under a key that is not found. -/
theorem store_insert (h : UniqueKeys t) (hnone : lookup t serverId policyKey = none) :
    ∃ t', store serverId t (.insert policyKey after) = some t' ∧
      Stored serverId policyKey after t t' := by
  have habsent := (lookup_eq_none_iff h).mp hnone
  have hany : ¬ (t.rows.any fun r => r.serverId = serverId ∧ r.policyKey = policyKey) = true := by
    simpa using habsent
  have hunique : UniqueKeys (t.append (newRow serverId policyKey after)) := by
    rw [UniqueKeys, Table.rows_append, List.map_append, List.nodup_append]
    refine ⟨h, List.nodup_singleton _, fun a ha b hb => ?_⟩
    obtain ⟨r, hr, rfl⟩ := List.mem_map.mp ha
    obtain rfl := List.mem_singleton.mp hb
    intro heq
    exact habsent r hr (Prod.mk.inj heq).1 (Prod.mk.inj heq).2
  refine ⟨_, if_neg hany, hunique, fun s k => ?_⟩
  apply Option.ext
  intro policy
  rw [lookup_eq_some_iff hunique, Table.rows_append]
  simp only [List.mem_append, List.mem_singleton, or_and_right, exists_or, exists_eq_left,
    ← lookup_eq_some_iff h, newRow]
  grind

/-- An `UPDATE` of the columns that a session changed in what it found. -/
theorem store_update (h : UniqueKeys t) (hsome : lookup t serverId policyKey = some before) :
    ∃ t', store serverId t (.update policyKey (.between before after)) = some t' ∧
      Stored serverId policyKey after t t' := by
  obtain ⟨r, hr, rfl, rfl, rfl⟩ := (lookup_eq_some_iff h).mp hsome
  have hunique : UniqueKeys (t.mapRows (patched r.serverId r.policyKey (.between r.policy after))
      (id_patched r.serverId r.policyKey (.between r.policy after))) := by
    rw [UniqueKeys, Table.rows_mapRows, List.map_map]
    simpa [UniqueKeys, Function.comp_def] using h
  refine ⟨_, rfl, hunique, fun s k => ?_⟩
  apply Option.ext
  intro policy
  rw [lookup_eq_some_iff hunique, Table.rows_mapRows]
  simp only [List.mem_map, exists_exists_and_eq_and, serverId_patched, policyKey_patched]
  split
  · next hkey =>
      -- the one row under the key is the one that was found
      obtain ⟨rfl, rfl⟩ := hkey
      constructor
      · rintro ⟨u, hu, hserver, hkey, rfl⟩
        rw [h.eq hu hr hserver hkey, patched, if_pos ⟨rfl, rfl⟩, PolicyPatch.between_apply]
      · intro hafter
        refine ⟨r, hr, rfl, rfl, ?_⟩
        rw [patched, if_pos ⟨rfl, rfl⟩, PolicyPatch.between_apply]
        exact Option.some.inj hafter
  · next hkey =>
      rw [lookup_eq_some_iff h]
      apply exists_congr
      intro u
      refine and_congr_right fun _ => and_congr_right fun hs => and_congr_right fun hk => ?_
      rw [patched, if_neg fun hu => hkey ⟨hs ▸ hu.1, hk ▸ hu.2⟩]

/-- The write that leaves `after` under a key. -/
def upsert (rows : Dict AgentPolicyKey AgentPolicy) (policyKey : AgentPolicyKey)
    (after : AgentPolicy) : PolicyWrite :=
  match rows.get? policyKey with
  | none => .insert policyKey after
  | some before => .update policyKey (.between before after)

theorem store_upsert (h : UniqueKeys t) {rows : Dict AgentPolicyKey AgentPolicy}
    (hrows : rows.get? policyKey = lookup t serverId policyKey) (after : AgentPolicy) :
    ∃ t', store serverId t (upsert rows policyKey after) = some t' ∧
      Stored serverId policyKey after t t' := by
  unfold upsert
  split
  · next hnone => exact store_insert h (hrows.symm.trans hnone)
  · next before hsome => exact store_update h (hrows.symm.trans hsome)

/-! ## one flush -/

/-- A flush that leaves `after` under each of the keys, by the rows of a session that loaded
them before. -/
theorem exists_foldlM_store {rows : Dict AgentPolicyKey AgentPolicy}
    (after : AgentPolicyKey → AgentPolicy) {keys : List AgentPolicyKey} (hnodup : keys.Nodup)
    (h : UniqueKeys t) (hrows : ∀ k ∈ keys, rows.get? k = lookup t serverId k) :
    ∃ t', (keys.filterMap fun k =>
        if rows.get? k = some (after k) then none else some (upsert rows k (after k))).foldlM
          (store serverId) t = some t' ∧
      UniqueKeys t' ∧ ∀ s k, lookup t' s k =
        if s = serverId ∧ k ∈ keys then some (after k) else lookup t s k := by
  induction keys generalizing t with
  | nil => exact ⟨t, rfl, h, by simp⟩
  | cons key keys ih =>
      obtain ⟨hnotin, hnodup⟩ := List.nodup_cons.mp hnodup
      have hkey := hrows key List.mem_cons_self
      by_cases hsame : rows.get? key = some (after key)
      · obtain ⟨t', hrun, hunique, hlookup⟩ := ih hnodup h fun k hk =>
          hrows k (List.mem_cons_of_mem _ hk)
        refine ⟨t', ?_, hunique, fun s k => ?_⟩
        · rw [List.filterMap_cons, if_pos hsame]
          exact hrun
        · rw [hlookup]
          grind
      · obtain ⟨u, hstore, hu, hulookup⟩ := store_upsert h hkey (after key)
        obtain ⟨t', hrun, hunique, hlookup⟩ := ih hnodup hu fun k hk => by
          rw [hrows k (List.mem_cons_of_mem _ hk), hulookup, if_neg]
          rintro ⟨-, rfl⟩
          exact hnotin hk
        refine ⟨t', ?_, hunique, fun s k => ?_⟩
        · rw [List.filterMap_cons, if_neg hsame, List.foldlM_cons, hstore]
          exact hrun
        · rw [hlookup, hulookup]
          grind

/-! ## checks of a row -/

/-- A value is read as it was dumped. -/
theorem boundedField_num {sc : Scalars} (hsc : sc.Lawful) {fields : List (String × Json)}
    {name : String} {ge : Int} {le : Option Int} {n : Int} (h : boundedField sc fields name ge le = some n)
    {dumped : List (String × Json)} (hdumped : dumped.lookup name = some (.num n)) :
    boundedField sc dumped name ge le = some n := by
  obtain ⟨value, -, hvalue⟩ := Option.bind_eq_some_iff.mp h
  obtain ⟨-, hbounds⟩ := Option.filter_eq_some_iff.mp hvalue
  rw [boundedField, hdumped, Option.bind_some, hsc.int_num, Option.filter_some, if_pos hbounds]

/-- The end of `validate_threshold`. -/
theorem elim_invalid_eq_ok {checked : Option Threshold} {threshold : Threshold} :
    checked.elim (.error .invalidThreshold) (fun t => .ok (some t)) =
      (.ok (some threshold) : Except AgentPolicyError (Option Threshold)) ↔
    checked = some threshold := by
  cases checked <;> simp

/-- A schema of one bounded value takes what it made. -/
theorem valueThreshold_fields {sc : Scalars} (hsc : sc.Lawful) {make : Int → Threshold} {le : Int}
    {unit : String} {fields : List (String × Json)} {threshold : Threshold}
    (hmake : ∀ n, (make n).fields = [("value", .num n), ("unit", .str unit)])
    (h : valueThreshold sc make le unit fields = some threshold) :
    valueThreshold sc make le unit threshold.fields = some threshold := by
  rw [valueThreshold, Option.ite_none_right_eq_some] at h
  obtain ⟨n, hn, rfl⟩ := Option.map_eq_some_iff.mp h.2
  have hunit : unitField (make n).fields unit = true := by
    simp [hmake, unitField, List.lookup_cons]
  rw [valueThreshold, if_pos hunit, boundedField_num hsc hn, Option.map_some]
  rw [hmake, List.lookup_cons_self]

theorem gpuHangThreshold_fields {sc : Scalars} (hsc : sc.Lawful) {fields : List (String × Json)}
    {threshold : Threshold} (h : gpuHangThreshold sc fields = some threshold) :
    gpuHangThreshold sc threshold.fields = some threshold := by
  obtain ⟨seconds, hseconds, h⟩ := Option.bind_eq_some_iff.mp h
  obtain ⟨mb, hmb, rfl⟩ := Option.map_eq_some_iff.mp h
  rw [gpuHangThreshold, boundedField_num hsc hseconds, Option.bind_some,
    boundedField_num hsc hmb, Option.map_some]
  · simp [Threshold.fields, List.lookup_cons]
  · simp [Threshold.fields]

/-- A threshold that was validated is valid. -/
theorem validateThreshold_fields {sc : Scalars} (hsc : sc.Lawful) {policyKey : AgentPolicyKey}
    {fields : List (String × Json)} {threshold : Threshold}
    (h : validateThreshold sc policyKey fields = .ok (some threshold)) :
    validateThreshold sc policyKey threshold.fields = .ok (some threshold) := by
  cases policyKey with
  | memoryOveruse =>
      exact elim_invalid_eq_ok.mpr
        (valueThreshold_fields hsc (fun _ => rfl) (elim_invalid_eq_ok.mp h))
  | gpuHang => exact elim_invalid_eq_ok.mpr (gpuHangThreshold_fields hsc (elim_invalid_eq_ok.mp h))
  | gpuTempHigh =>
      exact elim_invalid_eq_ok.mpr
        (valueThreshold_fields hsc (fun _ => rfl) (elim_invalid_eq_ok.mp h))
  | _ => simp [validateThreshold] at h

/-- The keys whose schema has a threshold. -/
def thresholdKeys : List AgentPolicyKey := [.memoryOveruse, .gpuHang, .gpuTempHigh]

theorem mem_thresholdKeys {sc : Scalars} {policyKey : AgentPolicyKey}
    {fields : List (String × Json)} {threshold : Threshold}
    (h : validateThreshold sc policyKey fields = .ok (some threshold)) :
    policyKey ∈ thresholdKeys := by
  cases policyKey <;> first | decide | simp [validateThreshold] at h

/-- What the columns under a key keep. -/
structure Checked (sc : Scalars) (policyKey : AgentPolicyKey) (policy : AgentPolicy) : Prop where
  autoKill : policy.severity = .autoKill → policyKey ∈ autoKillSettableKeys
  threshold : ∀ value, policy.thresholdValue = some value →
    validateThreshold sc policyKey value.fields = .ok (some value)

theorem checked_profilePreset {sc : Scalars} (hsc : sc.Lawful) (profile : ProfileName)
    (policyKey : AgentPolicyKey) : Checked sc policyKey (profilePreset profile policyKey) where
  autoKill := profilePreset_severity
  threshold value hvalue := by
    have hvalid := validateThreshold_profilePreset hsc profile policyKey
    rwa [hvalue] at hvalid

/-- `enabled` is in no check. -/
theorem Checked.enabled {sc : Scalars} (h : Checked sc policyKey policy) (enabled : Bool) :
    Checked sc policyKey { policy with enabled := enabled } :=
  ⟨h.autoKill, h.threshold⟩

/-- The fields of a request that passed the checks of `update_one`. -/
theorem Checked.over {sc : Scalars} (h : Checked sc policyKey policy) {body : PolicyUpdateRequest}
    {threshold : Option Threshold}
    (hkill : ¬ (body.severity = some .autoKill ∧ policyKey ∉ autoKillSettableKeys))
    (hthreshold : ∀ value, threshold = some value →
      validateThreshold sc policyKey value.fields = .ok (some value)) :
    Checked sc policyKey (body.over threshold policy) where
  autoKill hseverity := by
    cases hbody : body.severity with
    | none => exact h.autoKill (by simpa [PolicyUpdateRequest.over, hbody] using hseverity)
    | some severity =>
        obtain rfl : severity = .autoKill := by
          simpa [PolicyUpdateRequest.over, hbody] using hseverity
        by_contra hkey
        exact hkill ⟨hbody, hkey⟩
  threshold value hvalue := by
    cases threshold with
    | none => exact h.threshold value hvalue
    | some new => exact hthreshold value hvalue

/-! ## the services -/

/-- What `switch_profile` leaves under a key. -/
def switched (rows : Dict AgentPolicyKey AgentPolicy) (profile : ProfileName)
    (policyKey : AgentPolicyKey) : AgentPolicy :=
  { profilePreset profile policyKey with
    enabled := ((rows.get? policyKey).map (·.enabled)).getD true }

theorem switchProfile_eq (rows : Dict AgentPolicyKey AgentPolicy) (profile : ProfileName) :
    switchProfile rows profile = policyKeys.filterMap fun key =>
      if rows.get? key = some (switched rows profile key) then none
      else some (upsert rows key (switched rows profile key)) := by
  apply List.filterMap_congr
  intro key _
  cases hrow : rows.get? key with
  | none => simp [upsert, switched, hrow, profilePreset]
  | some row => simp [upsert, switched, hrow]

/-- A seed is a switch of a server that has no rows. -/
theorem seedDefaultProfile_eq {rows : Dict AgentPolicyKey AgentPolicy} (h : rows.entries = [])
    (profile : ProfileName) : seedDefaultProfile rows profile = switchProfile rows profile := by
  have hnone : ∀ key, rows.get? key = none := by simp [Dict.get?, h]
  simp [seedDefaultProfile, switchProfile, h, hnone]

/-- An update that is accepted writes columns that pass the checks. -/
theorem exists_updateOne {sc : Scalars} (hsc : sc.Lawful) {rows : Dict AgentPolicyKey AgentPolicy}
    {policyKey : String} {body : PolicyUpdateRequest} {write : PolicyWrite}
    (h : updateOne sc rows policyKey body = .ok write)
    (hrows : ∀ key policy, rows.get? key = some policy → Checked sc key policy) :
    ∃ key after, write = upsert rows key after ∧ Checked sc key after := by
  unfold updateOne at h
  split at h
  · cases h
  · next key _ =>
      split_ifs at h with hkill
      obtain ⟨threshold, hvalid, rfl⟩ : ∃ threshold : Option Threshold,
          (∀ value, threshold = some value →
            validateThreshold sc key value.fields = .ok (some value)) ∧
          write = upsert rows key
            (body.over threshold ((rows.get? key).getD (profilePreset .standard key))) := by
        cases hbody : body.thresholdValue with
        | none =>
            rw [hbody] at h
            refine ⟨none, by simp, ?_⟩
            rw [upsert]
            cases hrow : rows.get? key <;> rw [hrow] at h <;> exact (Except.ok.inj h).symm
        | some fields =>
            rw [hbody] at h
            obtain ⟨threshold, hthreshold, h⟩ := bind_eq_ok_iff.mp h
            refine ⟨threshold, fun value hvalue =>
              validateThreshold_fields hsc (hvalue ▸ hthreshold), ?_⟩
            rw [upsert]
            cases hrow : rows.get? key <;> rw [hrow] at h <;> exact (Except.ok.inj h).symm
      refine ⟨key, _, rfl, Checked.over ?_ hkill hvalid⟩
      cases hrow : rows.get? key with
      | none => exact checked_profilePreset hsc .standard key
      | some row => exact hrows key row hrow

/-! ## sequences of requests -/

/-- The rows of the table pass their checks, one for each key of a server. -/
structure Invariant (sc : Scalars) (t : Table PolicyRow) : Prop where
  unique : UniqueKeys t
  autoKill : ∀ r ∈ t.rows, r.policy.severity = .autoKill → r.policyKey ∈ autoKillSettableKeys
  threshold : ∀ r ∈ t.rows, ∀ value, r.policy.thresholdValue = some value →
    validateThreshold sc r.policyKey value.fields = .ok (some value)
  noThreshold : ∀ r ∈ t.rows, r.policyKey ∉ thresholdKeys → r.policy.thresholdValue = none

theorem invariant_of_lookup {sc : Scalars} (h : UniqueKeys t)
    (hchecked : ∀ s k policy, lookup t s k = some policy → Checked sc k policy) :
    Invariant sc t := by
  have hrow : ∀ r ∈ t.rows, Checked sc r.policyKey r.policy := fun r hr =>
    hchecked _ _ _ (lookup_of_mem h hr)
  refine ⟨h, fun r hr => (hrow r hr).autoKill, fun r hr => (hrow r hr).threshold, fun r hr hkey => ?_⟩
  cases hvalue : r.policy.thresholdValue with
  | none => rfl
  | some value => exact absurd (mem_thresholdKeys ((hrow r hr).threshold value hvalue)) hkey

theorem Invariant.checked {sc : Scalars} (h : Invariant sc t)
    (hfound : lookup t serverId policyKey = some policy) : Checked sc policyKey policy := by
  obtain ⟨r, hr, rfl, rfl, rfl⟩ := (lookup_eq_some_iff h.unique).mp hfound
  exact ⟨h.autoKill r hr, h.threshold r hr⟩

/-- The columns that a profile sets. -/
structure Preset (profile : ProfileName) (policyKey : AgentPolicyKey) (policy : AgentPolicy) :
    Prop where
  severity : policy.severity = (profilePreset profile policyKey).severity
  thresholdValue : policy.thresholdValue = (profilePreset profile policyKey).thresholdValue
  gracePeriodSeconds :
    policy.gracePeriodSeconds = (profilePreset profile policyKey).gracePeriodSeconds
  notifyAdmin : policy.notifyAdmin = (profilePreset profile policyKey).notifyAdmin

/-- What a request keeps, and what it leaves. -/
structure Served (sc : Scalars) (t : Table PolicyRow) (req : Request) (t' : Table PolicyRow) :
    Prop where
  invariant : Invariant sc t'
  switched : ∀ serverId profile, req = .switchProfile serverId profile → ∀ policyKey,
    ∃ r ∈ t'.rows, r.serverId = serverId ∧ r.policyKey = policyKey ∧
      Preset profile policyKey r.policy
  rejected : (serve sc t req).2 ≠ none → t' = t
  noConflict : (serve sc t req).2 ≠ some .integrityError

variable {sc : Scalars} {profile : ProfileName}

/-- A switch leaves the eight keys as the profile has them. -/
theorem flush_switchProfile (hsc : sc.Lawful) (h : Invariant sc t) (serverId : Nat)
    (profile : ProfileName) :
    ∃ t', flush serverId t (switchProfile (listForServer t serverId) profile) = (t', none) ∧
      Invariant sc t' ∧ ∀ policyKey, ∃ r ∈ t'.rows, r.serverId = serverId ∧
        r.policyKey = policyKey ∧ Preset profile policyKey r.policy := by
  have hrows : ∀ k ∈ policyKeys, (listForServer t serverId).get? k = lookup t serverId k :=
    fun _ _ => rfl
  obtain ⟨t', hrun, hunique, hlookup⟩ := exists_foldlM_store
    (switched (listForServer t serverId) profile) (by decide) h.unique hrows
  refine ⟨t', ?_, invariant_of_lookup hunique fun s k policy hfound => ?_, fun policyKey => ?_⟩
  · rw [flush, switchProfile_eq, hrun]
  · rw [hlookup] at hfound
    split at hfound
    · obtain rfl := Option.some.inj hfound
      exact (checked_profilePreset hsc profile k).enabled _
    · exact h.checked hfound
  · have hfound := hlookup serverId policyKey
    rw [if_pos ⟨rfl, mem_policyKeys policyKey⟩] at hfound
    obtain ⟨r, hr, hserver, hkey, hpolicy⟩ := (lookup_eq_some_iff hunique).mp hfound
    exact ⟨r, hr, hserver, hkey, by rw [hpolicy]; exact ⟨rfl, rfl, rfl, rfl⟩⟩

theorem flush_seedDefaultProfile (hsc : sc.Lawful) (h : Invariant sc t) (serverId : Nat)
    (profile : ProfileName) :
    ∃ t', flush serverId t (seedDefaultProfile (listForServer t serverId) profile) = (t', none) ∧
      Invariant sc t' := by
  by_cases hempty : (listForServer t serverId).entries = []
  · rw [seedDefaultProfile_eq hempty]
    obtain ⟨t', hrun, hinv, -⟩ := flush_switchProfile hsc h serverId profile
    exact ⟨t', hrun, hinv⟩
  · rw [seedDefaultProfile, if_neg hempty]
    exact ⟨t, rfl, h⟩

theorem flush_updateOne (hsc : sc.Lawful) (h : Invariant sc t) {serverId : Nat}
    {policyKey : String} {body : PolicyUpdateRequest} {write : PolicyWrite}
    (hwrite : updateOne sc (listForServer t serverId) policyKey body = .ok write) :
    ∃ t', flush serverId t [write] = (t', none) ∧ Invariant sc t' := by
  obtain ⟨key, after, rfl, hafter⟩ := exists_updateOne hsc hwrite fun _ _ => h.checked
  have hrow : (listForServer t serverId).get? key = lookup t serverId key := rfl
  obtain ⟨t', hstore, hunique, hlookup⟩ := store_upsert h.unique hrow after
  refine ⟨t', ?_, invariant_of_lookup hunique fun s k policy hfound => ?_⟩
  · rw [flush, List.foldlM_cons, hstore]
    rfl
  · rw [hlookup] at hfound
    split at hfound
    · next hkey =>
        obtain rfl := Option.some.inj hfound
        exact hkey.2 ▸ hafter
    · exact h.checked hfound

theorem served_step (hsc : sc.Lawful) (h : Invariant sc t) {req : Request}
    (hstep : step sc t req = some t') : Served sc t req t' := by
  obtain rfl := Option.some.inj hstep
  cases req with
  | seedDefaultProfile serverId profile =>
      obtain ⟨t', hrun, hinv⟩ := flush_seedDefaultProfile hsc h serverId profile
      have hserve : serve sc t (.seedDefaultProfile serverId profile) = (t', none) := hrun
      refine ⟨?_, fun _ _ hreq => (nomatch hreq), ?_, ?_⟩ <;> simp [hserve, hinv]
  | switchProfile serverId profile =>
      obtain ⟨t', hrun, hinv, hpreset⟩ := flush_switchProfile hsc h serverId profile
      have hserve : serve sc t (.switchProfile serverId profile) = (t', none) := hrun
      rw [hserve]
      refine ⟨hinv, fun s p hreq => ?_, ?_, ?_⟩
      · obtain ⟨rfl, rfl⟩ := Request.switchProfile.inj hreq
        exact hpreset
      · simp [hserve]
      · simp [hserve]
  | updateOne serverId policyKey body =>
      cases hwrite : updateOne sc (listForServer t serverId) policyKey body with
      | error e =>
          have hserve : serve sc t (.updateOne serverId policyKey body) = (t, some (.policy e)) := by
            rw [serve, hwrite]
          refine ⟨?_, fun _ _ hreq => (nomatch hreq), ?_, ?_⟩ <;> simp [hserve, h]
      | ok write =>
          obtain ⟨t', hrun, hinv⟩ := flush_updateOne hsc h hwrite
          have hserve : serve sc t (.updateOne serverId policyKey body) = (t', none) := by
            rw [serve, hwrite]
            exact hrun
          refine ⟨?_, fun _ _ hreq => (nomatch hreq), ?_, ?_⟩ <;> simp [hserve, hinv]

theorem invariant_empty : Invariant sc .empty :=
  ⟨List.nodup_nil, fun _ hr => (nomatch hr), fun _ hr => (nomatch hr), fun _ hr => (nomatch hr)⟩

/-- **Policy rows**: the agent kills for the keys that an admin may set to kill, and over a
sequence of requests the rows keep their checks. -/
theorem servePolicies_laws (hsc : sc.Lawful) (h : Invariant sc t) (reqs : List Request) :
    (∀ text, text ∈ PolicyDispatch.autoKillAllowedKeys ↔
      ∃ policyKey ∈ autoKillSettableKeys, policyKey.text = text) ∧
    Along (step sc) (Served sc) t reqs := by
  constructor
  · intro text
    simp [PolicyDispatch.autoKillAllowedKeys, autoKillSettableKeys, AgentPolicyKey.text, eq_comm]
  · refine along_of_invariant (fun s req s' hs _ hstep => ?_) h (meets_true t reqs)
    have hserved := served_step hsc hs hstep
    exact ⟨hserved.invariant, hserved⟩

/-- An admin hardens a server that was seeded, tries one key too many, and goes back. -/
def hardening : List Request :=
  [.seedDefaultProfile 7 .standard,
   .updateOne 7 "preempt_others_reservation" { severity := some .autoKill },
   .updateOne 7 "memory_overuse" { severity := some .autoKill },
   .updateOne 7 "gpu_temp_high" { thresholdValue := some [("value", .num 90)] },
   .updateOne 8 "gpu_hang" { notifyAdmin := some true },
   .switchProfile 8 .strict,
   .switchProfile 7 .permissive]

theorem servePolicies_hardening : CacheFrames.zuluScalars.Lawful ∧
    Invariant CacheFrames.zuluScalars .empty ∧
    (∀ text, text ∈ PolicyDispatch.autoKillAllowedKeys ↔
      ∃ policyKey ∈ autoKillSettableKeys, policyKey.text = text) ∧
    Along (step CacheFrames.zuluScalars) (Served CacheFrames.zuluScalars) .empty hardening :=
  ⟨CacheFrames.reads_zuluScalars.scalars, invariant_empty,
    servePolicies_laws CacheFrames.reads_zuluScalars.scalars invariant_empty hardening⟩

end PolicyTable

end CoreLab
