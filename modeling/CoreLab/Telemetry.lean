import CoreLab.GpuCollector
import CoreLab.Lib.Retry
import CoreLab.Lib.Transition
import CoreLab.Models
import Mathlib.Tactic.NormNum

/-!
# CoreLab.Telemetry

`agent.gpu.telemetry` batches on their way into the `gpu` table: one transaction for each batch, tried
again in a fresh session when its error reads as a deadlock of InnoDB, and fanned out to the browsers
once it is stored.  Any number of batches, of any servers, are under way at once.

* `isDeadlock`, `retryPolicy` — which errors `with_serializable_retry` passes over;
* `upsertTelemetry` — what the transaction writes;
* `step` — the batches' transactions in any order, and the servers' approval meanwhile;
* `stores_run` — the table holds the last stored reading of each card, and each batch is stored at
  most once, and only then fanned out.
-/

namespace CoreLab

open Relational Retry Transition

namespace Telemetry

open Csv (Field)
open GpuCollector (GpuTelemetryEntry GpuProcessSnapshot)

/-! ## retries -/

/-- What a session raises: an `OperationalError` with its text, or another error of the driver. -/
inductive DbError where
  | operational (message : List Char)
  | data
deriving DecidableEq

/-- `_is_deadlock`. -/
def isDeadlock (message : List Char) : Bool :=
  decide ("1213".toList <:+: message ∨ "Deadlock found".toList <:+: message)

/-- `with_serializable_retry`, as `upsert_telemetry_transaction` calls it. -/
def retryPolicy : Policy DbError where
  passing
    | .operational message => isDeadlock message
    | .data => false
  maxRetries := 3
  backoffBase := 1 / 50

/-! ## the table -/

/-- The columns of a card that its telemetry sets. -/
structure GpuColumns where
  uuid : Option Field
  model : Option Field
  memoryTotalMb : Option Nat
  computeCapability : Option Field
  utilPct : Nat
  memoryUsedMb : Option Nat
  temperatureC : Option Nat
  powerW : Option Nat
  processSnapshot : List GpuProcessSnapshot
  lastUpdatedAt : Time
  isActive : Bool
deriving DecidableEq

/-- `Gpu`. -/
structure GpuRow where
  id : Nat
  serverId : Nat
  gpuIndex : Nat
  columns : GpuColumns
deriving DecidableEq

instance : Keyed GpuRow := ⟨GpuRow.id⟩

/-- The card that a row is of. -/
def GpuRow.card (g : GpuRow) : Nat × Nat := (g.serverId, g.gpuIndex)

/-- `gpu`, one row for each card (`uq_gpu_server_index`). -/
structure GpuTable extends Table GpuRow where
  unique : (rows.map GpuRow.card).Nodup

namespace GpuTable

/-- The row of a card. -/
def row? (t : GpuTable) (card : Nat × Nat) : Option GpuRow := t.rows.find? fun g => g.card = card

theorem row?_eq_some_iff {t : GpuTable} {card : Nat × Nat} {g : GpuRow} :
    t.row? card = some g ↔ g ∈ t.rows ∧ g.card = card := by
  constructor
  · intro h
    exact ⟨List.mem_of_find?_eq_some h, by simpa using List.find?_some h⟩
  · rintro ⟨hg, rfl⟩
    cases hf : t.rows.find? (fun f => f.card = g.card) with
    | none => simpa using List.find?_eq_none.mp hf g hg
    | some f =>
        have hcard : f.card = g.card := by simpa using List.find?_some hf
        rw [row?, hf, List.inj_on_of_nodup_map t.unique (List.mem_of_find?_eq_some hf) hg hcard]

theorem row?_eq_none_iff {t : GpuTable} {card : Nat × Nat} :
    t.row? card = none ↔ ∀ g ∈ t.rows, g.card ≠ card := by
  simp [row?]

/-- The row of a card gets new columns. -/
def setColumns (t : GpuTable) (card : Nat × Nat) (columns : GpuColumns) : GpuTable where
  toTable := t.mapRows (fun g => if g.card = card then { g with columns := columns } else g) <| by
    intro g
    split <;> rfl
  unique := by
    have hcard : GpuRow.card ∘ (fun g => if g.card = card then { g with columns := columns } else g) =
        GpuRow.card := by
      funext g
      rw [Function.comp_apply]
      split <;> rfl
    rw [Table.rows_mapRows, List.map_map, hcard]
    exact t.unique

/-- A card that has no row gets one. -/
def insert (t : GpuTable) (card : Nat × Nat) (columns : GpuColumns) (hnew : t.row? card = none) :
    GpuTable where
  toTable := t.append ⟨fun id =>
    { id := id, serverId := card.1, gpuIndex := card.2, columns := columns }, fun _ => rfl⟩
  unique := by
    rw [Table.rows_append, List.map_append, List.map_singleton, ← List.concat_eq_append]
    refine t.unique.concat fun h => ?_
    obtain ⟨g, hg, hcard⟩ := List.mem_map.mp h
    exact row?_eq_none_iff.mp hnew g hg hcard

/-- `INSERT … ON DUPLICATE KEY UPDATE` of one card. -/
def upsert (t : GpuTable) (card : Nat × Nat) (columns : GpuColumns) : GpuTable :=
  if h : t.row? card = none then t.insert card columns h else t.setColumns card columns

/-- The columns of a card, if it has a row. -/
def columns? (t : GpuTable) (card : Nat × Nat) : Option GpuColumns := (t.row? card).map (·.columns)

end GpuTable

/-! ## one batch -/

/-- The value of a nullable text column; a text that is too long is a `DataError`. -/
def varcharOrNull (length : Nat) : Option Field → Option (Option Field)
  | none => some none
  | some text => if text.length ≤ length then some (some text) else none

/-- The values that the statement binds for a card. -/
def columnsOf (entry : GpuTelemetryEntry) (now : Time) : Option (Nat × GpuColumns) := do
  let gpuIndex ← unsignedColumn 32 entry.gpuIndex
  let uuid ← varcharOrNull 64 entry.uuid
  let model ← varcharOrNull 100 entry.model
  let memoryTotalMb ← unsignedOrNull 32 entry.memoryTotalMb
  let computeCapability ← varcharOrNull 8 entry.computeCapability
  let memoryUsedMb ← unsignedOrNull 32 entry.memoryUsedMb
  let temperatureC ← unsignedOrNull 16 entry.temperatureC
  let powerW ← unsignedOrNull 16 entry.powerW
  return (gpuIndex, { uuid := uuid, model := model, memoryTotalMb := memoryTotalMb
                      computeCapability := computeCapability, utilPct := entry.utilPct.toNat
                      memoryUsedMb := memoryUsedMb, temperatureC := temperatureC, powerW := powerW
                      processSnapshot := entry.processes, lastUpdatedAt := now, isActive := true })

/-- The upserts of `upsert_telemetry`, up to the first that the store refuses. -/
def upsertTelemetry (t : GpuTable) (serverId : Nat) (now : Time) :
    List GpuTelemetryEntry → Option GpuTable
  | [] => some t
  | entry :: entries =>
    (columnsOf entry now).bind fun (gpuIndex, columns) =>
      upsertTelemetry (t.upsert (serverId, gpuIndex) columns) serverId now entries

/-! ## many batches -/

/-- A batch under way: what its attempts came to, and the seconds slept between them. -/
structure Job where
  serverId : Nat
  entries : List GpuTelemetryEntry
  attempts : List (Attempt Bool DbError) := []
  slept : Rat := 0
  /-- The open transaction, with what it read of the server's approval. -/
  approved : Option Bool := none
  fannedOut : Bool := false

/-- Where `upsert_telemetry_transaction` stands. -/
def Job.call (job : Job) : Call Bool DbError := retryPolicy.run (.trying 0) job.attempts

/-- A stored batch, by the number of its job. -/
structure Stored where
  job : Nat
  serverId : Nat
  entries : List GpuTelemetryEntry
  now : Time

structure World where
  servers : Table Server
  gpus : GpuTable
  jobs : List Job
  /-- The batches that were stored, in order. -/
  stored : List Stored

/-- How the store ends a transaction. -/
inductive Verdict where
  | refuses (error : DbError)
  | commits (now : Time)

inductive Action where
  | receive (serverId : Nat) (entries : List GpuTelemetryEntry)
  | begins (job : Nat)
  | ends (job : Nat) (verdict : Verdict)
  | fanOut (job : Nat)
  /-- `approve_server`, `delete_server` and the rest. -/
  | putServer (server : Server)

/-- `is_server_approved`. -/
def isServerApproved (servers : Table Server) (serverId : Nat) : Bool :=
  (servers.get? serverId).any fun s => s.isActive && s.approvedAt.isSome

/-- An attempt is over; `with_serializable_retry` sleeps before the next one. -/
def Job.attempted (job : Job) (a : Attempt Bool DbError) : Job :=
  { job with
    attempts := job.attempts ++ [a]
    approved := none
    slept :=
      match job.call, retryPolicy.step job.call a with
      | .trying failed, .trying _ => job.slept + retryPolicy.backoff failed
      | _, _ => job.slept }

/-- The end of a transaction. -/
def World.ends (w : World) (k : Nat) (job : Job) (approved : Bool) : Verdict → World
  | .refuses error => { w with jobs := w.jobs.set k (job.attempted (.failed error)) }
  | .commits now =>
    if approved then
      match upsertTelemetry w.gpus job.serverId now job.entries with
      | some gpus =>
        { w with
          gpus := gpus
          jobs := w.jobs.set k (job.attempted (.returned true))
          stored := w.stored ++ [⟨k, job.serverId, job.entries, now⟩] }
      | none => { w with jobs := w.jobs.set k (job.attempted (.failed .data)) }
    else { w with jobs := w.jobs.set k (job.attempted (.returned false)) }

def step (w : World) : Action → Option World
  | .receive serverId entries => some { w with jobs := w.jobs ++ [{ serverId, entries }] }
  | .begins k => do
    let job ← w.jobs[k]?
    match job.call, job.approved with
    | .trying _, none =>
      let approved := isServerApproved w.servers job.serverId
      some { w with jobs := w.jobs.set k { job with approved := some approved } }
    | _, _ => none
  | .ends k verdict => do
    let job ← w.jobs[k]?
    let approved ← job.approved
    some (w.ends k job approved verdict)
  | .fanOut k => do
    let job ← w.jobs[k]?
    if job.call = .returned true ∧ job.fannedOut = false then
      some { w with jobs := w.jobs.set k { job with fannedOut := true } }
    else none
  | .putServer server => some { w with servers := w.servers.put server }

/-- The tables of a lab, with no batch under way. -/
def start (servers : Table Server) (gpus : GpuTable) : World := ⟨servers, gpus, [], []⟩

/-! ## the table after a batch -/

/-- The readings of a batch, each of a card. -/
def Stored.readings (b : Stored) : List ((Nat × Nat) × GpuColumns) :=
  b.entries.filterMap fun entry =>
    (columnsOf entry b.now).map fun reading => ((b.serverId, reading.1), reading.2)

/-- The last reading of a card. -/
def lastReading (card : Nat × Nat) (l : List ((Nat × Nat) × GpuColumns)) : Option GpuColumns :=
  ((l.filter fun e => e.1 = card).getLast?).map Prod.snd

/-- The rows that there were have kept their numbers and their cards. -/
def Kept (t t' : GpuTable) : Prop := ∀ g ∈ t.rows, ∃ g' ∈ t'.rows, g'.id = g.id ∧ g'.card = g.card

section Table

variable {t t' t'' : GpuTable} {card : Nat × Nat} {columns : GpuColumns}

theorem Kept.refl (t : GpuTable) : Kept t t := fun g hg => ⟨g, hg, rfl, rfl⟩

theorem Kept.trans (h : Kept t t') (h' : Kept t' t'') : Kept t t'' := by
  intro g hg
  obtain ⟨g', hg', hid, hcard⟩ := h g hg
  obtain ⟨g'', hg'', hid', hcard'⟩ := h' g' hg'
  exact ⟨g'', hg'', hid'.trans hid, hcard'.trans hcard⟩

theorem kept_upsert (t : GpuTable) (card : Nat × Nat) (columns : GpuColumns) :
    Kept t (t.upsert card columns) := by
  unfold GpuTable.upsert
  split
  · intro g hg
    exact ⟨g, List.mem_append_left _ hg, rfl, rfl⟩
  · intro g hg
    refine ⟨_, List.mem_map_of_mem hg, ?_, ?_⟩
    · split <;> rfl
    · split <;> rfl

theorem columns?_eq_some_iff : t.columns? card = some columns ↔
    ∃ g ∈ t.rows, g.card = card ∧ g.columns = columns := by
  simp only [GpuTable.columns?, Option.map_eq_some_iff, GpuTable.row?_eq_some_iff, and_assoc]

theorem columns?_insert (hnew : t.row? card = none) (other : Nat × Nat) :
    (t.insert card columns hnew).columns? other =
      if other = card then some columns else t.columns? other := by
  apply Option.ext
  intro v
  rw [columns?_eq_some_iff]
  change (∃ g ∈ t.rows ++ [_], _) ↔ _
  simp only [List.mem_append, List.mem_singleton]
  split
  · next h =>
      subst h
      constructor
      · rintro ⟨g, hg | rfl, hcard, rfl⟩
        · exact absurd hcard (GpuTable.row?_eq_none_iff.mp hnew g hg)
        · rfl
      · intro h
        exact ⟨_, .inr rfl, rfl, Option.some.inj h⟩
  · next h =>
      rw [columns?_eq_some_iff]
      constructor
      · rintro ⟨g, hg | rfl, hcard, rfl⟩
        · exact ⟨g, hg, hcard, rfl⟩
        · exact absurd hcard.symm h
      · rintro ⟨g, hg, hcard, rfl⟩
        exact ⟨g, .inl hg, hcard, rfl⟩

theorem columns?_setColumns (hold : t.row? card ≠ none) (other : Nat × Nat) :
    (t.setColumns card columns).columns? other =
      if other = card then some columns else t.columns? other := by
  apply Option.ext
  intro v
  rw [columns?_eq_some_iff]
  change (∃ g ∈ t.rows.map _, _) ↔ _
  simp only [List.mem_map, exists_exists_and_eq_and]
  split
  · next h =>
      subst h
      constructor
      · rintro ⟨g, hg, hcard, rfl⟩
        split at hcard
        · next hsame => rw [if_pos hsame]
        · next hother => exact absurd hcard hother
      · intro h
        obtain ⟨g, hg⟩ := Option.ne_none_iff_exists'.mp hold
        obtain ⟨hmem, hcard⟩ := GpuTable.row?_eq_some_iff.mp hg
        refine ⟨g, hmem, ?_⟩
        rw [if_pos hcard]
        exact ⟨hcard, Option.some.inj h⟩
  · next h =>
      rw [columns?_eq_some_iff]
      refine exists_congr fun g => and_congr_right fun _ => ?_
      split
      · next hsame =>
          exact iff_of_false (fun hg => h (hg.1.symm.trans hsame)) fun hg => h (hg.1.symm.trans hsame)
      · rfl

theorem columns?_upsert (t : GpuTable) (card other : Nat × Nat) (columns : GpuColumns) :
    (t.upsert card columns).columns? other =
      if other = card then some columns else t.columns? other := by
  unfold GpuTable.upsert
  split
  · next h => exact columns?_insert h other
  · next h => exact columns?_setColumns h other

theorem lastReading_append (l m : List ((Nat × Nat) × GpuColumns)) :
    lastReading card (l ++ m) = (lastReading card m).or (lastReading card l) := by
  rw [lastReading, List.filter_append, List.getLast?_append, lastReading, lastReading]
  cases (m.filter fun e => e.1 = card).getLast? with
  | none => rfl
  | some e => rfl

/-- **A stored batch** leaves the last of its readings of each card, and the other cards as they
were. -/
theorem upsertTelemetry_spec {serverId : Nat} {now : Time} {entries : List GpuTelemetryEntry}
    (h : upsertTelemetry t serverId now entries = some t') (k : Nat) :
    Kept t t' ∧ ∀ card, t'.columns? card =
      (lastReading card (Stored.readings ⟨k, serverId, entries, now⟩)).or (t.columns? card) := by
  induction entries generalizing t with
  | nil =>
      obtain rfl : t = t' := Option.some.inj h
      exact ⟨.refl t, fun card => rfl⟩
  | cons entry entries ih =>
      obtain ⟨⟨gpuIndex, columns⟩, hcolumns, hrest⟩ := Option.bind_eq_some_iff.mp h
      obtain ⟨hkept, hlast⟩ := ih hrest
      refine ⟨(kept_upsert t _ _).trans hkept, fun card => ?_⟩
      have hreadings : Stored.readings ⟨k, serverId, entry :: entries, now⟩ =
          [((serverId, gpuIndex), columns)] ++ Stored.readings ⟨k, serverId, entries, now⟩ := by
        simp [Stored.readings, hcolumns]
      rw [hlast card, hreadings, lastReading_append, columns?_upsert, Option.or_assoc]
      by_cases hcard : card = (serverId, gpuIndex)
      · simp [lastReading, hcard]
      · simp [lastReading, hcard, Ne.symm hcard]

end Table

/-! ## one job -/

/-- An attempt that `with_serializable_retry` passes over: its error's text has `1213` or `Deadlock
found` in it, wherever these come from. -/
def Deadlocked (a : Attempt Bool DbError) : Prop :=
  ∃ message, a = .failed (.operational message) ∧ isDeadlock message = true

/-- A batch is given at most three attempts, the last of them only after errors that `_is_deadlock`
takes for deadlocks, and waits for at most 60 milliseconds. -/
structure Patient (job : Job) : Prop where
  attempts : job.attempts.length ≤ 3
  deadlocks : ∀ as a, job.attempts = as ++ [a] → ∀ b ∈ as, Deadlocked b
  slept : job.slept ≤ 3 / 50

/-- What holds of each job at any time. -/
structure JobInv (job : Job) : Prop where
  patient : Patient job
  begun : job.approved.isSome = true → ∃ k, job.call = .trying k
  sleeping : ∀ k, job.call = .trying k → job.slept = 1 / 50 * (2 ^ k - 1)
  fannedOut : job.fannedOut = true → job.call = .returned true

section Jobs

variable {job : Job} {k : Nat} {a : Attempt Bool DbError}

theorem jobInv_new (serverId : Nat) (entries : List GpuTelemetryEntry) :
    JobInv { serverId, entries } where
  patient := by
    refine ⟨Nat.zero_le _, fun as a h => ?_, by norm_num⟩
    simp at h
  begun h := by simp at h
  sleeping k h := by
    obtain rfl : 0 = k := by simpa [Job.call] using h
    norm_num
  fannedOut h := by simp at h

theorem deadlocked_of_passing {e : DbError} (h : retryPolicy.passing e = true) :
    Deadlocked (.failed e) := by
  cases e with
  | operational message => exact ⟨message, rfl, h⟩
  | data => simp [retryPolicy] at h

/-- A job that is tried has met only errors that are passed over, and at most two. -/
theorem attempts_of_trying (h : job.call = .trying k) :
    (∀ b ∈ job.attempts, Deadlocked b) ∧ job.attempts.length = k ∧ k ≤ 2 := by
  obtain ⟨errors, herrors, hpass, rfl, hmax⟩ := (retryPolicy.run_eq_trying_iff).mp h
  refine ⟨fun b hb => ?_, by simp [herrors], ?_⟩
  · rw [herrors] at hb
    obtain ⟨e, he, rfl⟩ := List.mem_map.mp hb
    exact deadlocked_of_passing (hpass e he)
  · rcases hmax with rfl | hmax
    · simp
    · exact Nat.le_of_lt_succ hmax

theorem call_attempted (job : Job) (a : Attempt Bool DbError) :
    (job.attempted a).call = retryPolicy.step job.call a := by
  rw [Job.call, Job.attempted, Policy.run_concat, Job.call]

theorem JobInv.attempted (h : JobInv job) (hcall : job.call = .trying k) (a : Attempt Bool DbError) :
    JobInv (job.attempted a) := by
  obtain ⟨hdeadlocks, hlength, hk⟩ := attempts_of_trying hcall
  have hbefore : job.slept = 1 / 50 * (2 ^ k - 1) := h.sleeping k hcall
  have hnext : ∀ j, (job.attempted a).call = .trying j →
      j = k + 1 ∧ k + 1 < 3 ∧ (job.attempted a).slept = job.slept + retryPolicy.backoff k := by
    intro j hj
    have hstep : retryPolicy.step (.trying k) a = .trying j := by
      rw [← hcall, ← call_attempted, hj]
    have hslept : (job.attempted a).slept = job.slept + retryPolicy.backoff k := by
      simp only [Job.attempted, hcall, hstep]
    cases a with
    | returned v => simp [Policy.step, Policy.next] at hstep
    | failed e =>
        rw [Policy.step_failed] at hstep
        split at hstep
        · next hpass => exact ⟨(Call.trying.inj hstep).symm, hpass.2, hslept⟩
        · simp at hstep
  have hafter : ∀ j, (job.attempted a).call = .trying j →
      (job.attempted a).slept = 1 / 50 * (2 ^ j - 1) := by
    intro j hj
    obtain ⟨rfl, -, hslept⟩ := hnext j hj
    rw [hslept, hbefore, Policy.backoff, show retryPolicy.backoffBase = 1 / 50 from rfl]
    ring
  refine ⟨⟨?_, ?_, ?_⟩, fun hopen => ?_, hafter, fun hfanned => ?_⟩
  · simp only [Job.attempted, List.length_append, List.length_singleton]
    omega
  · intro as b has c hc
    obtain ⟨rfl, -⟩ := List.append_inj' has rfl
    exact hdeadlocks c hc
  · by_cases htrying : ∃ j, (job.attempted a).call = .trying j
    · obtain ⟨j, hj⟩ := htrying
      obtain ⟨rfl, hlt, -⟩ := hnext j hj
      rw [hafter _ hj]
      have : k = 0 ∨ k = 1 := by omega
      rcases this with rfl | rfl <;> norm_num
    · have hsame : (job.attempted a).slept = job.slept := by
        simp only [Job.attempted]
        split
        · next hj => exact absurd ⟨_, (call_attempted job a).trans hj⟩ htrying
        · rfl
      exact hsame ▸ h.patient.slept
  · simp [Job.attempted] at hopen
  · have hreturned := h.fannedOut hfanned
    rw [hcall] at hreturned
    cases hreturned

end Jobs

/-! ## every run -/

/-- **What the table holds.** Each card shows its last stored reading; each batch is stored at most
once, exactly if its call returned that it was. -/
structure Holds (before w : World) : Prop where
  latest : ∀ card, w.gpus.columns? card =
    (lastReading card (w.stored.flatMap Stored.readings)).or (before.gpus.columns? card)
  once : (w.stored.map (·.job)).Nodup
  returned : ∀ (k : Nat) job, w.jobs[k]? = some job →
    (job.call = .returned true ↔ k ∈ w.stored.map (·.job))
  batch : ∀ b ∈ w.stored, ∃ job, w.jobs[b.job]? = some job ∧ b.serverId = job.serverId ∧
    b.entries = job.entries

/-- A batch is fanned out only once it is stored. -/
structure Stores (before w : World) : Prop extends Holds before w where
  fannedOut : ∀ job ∈ w.jobs, job.fannedOut = true → job.call = .returned true
  patient : ∀ job ∈ w.jobs, Patient job

/-- The invariant of runs. -/
structure Inv (before w : World) : Prop extends Holds before w where
  jobs : ∀ job ∈ w.jobs, JobInv job

section Run

variable {before w w' : World} {k : Nat} {job job' : Job}

theorem Inv.stores (h : Inv before w) : Stores before w where
  toHolds := h.toHolds
  fannedOut j hj := (h.jobs j hj).fannedOut
  patient j hj := (h.jobs j hj).patient

theorem Inv.start (servers : Table Server) (gpus : GpuTable) :
    Inv (start servers gpus) (start servers gpus) where
  latest card := rfl
  once := List.nodup_nil
  returned k job h := by simp [Telemetry.start] at h
  batch b hb := by simp [Telemetry.start] at hb
  jobs job h := by simp [Telemetry.start] at h

theorem job_of_set (h : JobInv job') (hall : ∀ j ∈ w.jobs, JobInv j) :
    ∀ j ∈ w.jobs.set k job', JobInv j := by
  intro j hj
  rcases List.mem_or_eq_of_mem_set hj with hj | rfl
  · exact hall j hj
  · exact h

theorem batch_of_set (hk : w.jobs[k]? = some job)
    (hsame : job'.serverId = job.serverId ∧ job'.entries = job.entries) {b : Stored}
    (h : ∃ j, w.jobs[b.job]? = some j ∧ b.serverId = j.serverId ∧ b.entries = j.entries) :
    ∃ j, (w.jobs.set k job')[b.job]? = some j ∧ b.serverId = j.serverId ∧ b.entries = j.entries := by
  obtain ⟨j, hj, hserver, hentries⟩ := h
  by_cases hb : b.job = k
  · obtain rfl : job = j := by
      rw [hb, hk] at hj
      exact Option.some.inj hj
    refine ⟨job', ?_, hserver.trans hsame.1.symm, hentries.trans hsame.2.symm⟩
    rw [hb, List.getElem?_set_self (List.getElem?_eq_some_iff.mp hk).1]
  · exact ⟨j, by rw [List.getElem?_set_ne (Ne.symm hb)]; exact hj, hserver, hentries⟩

/-- A job moves on, and nothing is stored. -/
theorem Inv.setJob (h : Inv before w) (hk : w.jobs[k]? = some job) (hjob : JobInv job')
    (hsame : job'.serverId = job.serverId ∧ job'.entries = job.entries)
    (hcall : job'.call = .returned true ↔ job.call = .returned true) :
    Inv before { w with jobs := w.jobs.set k job' } where
  latest := h.latest
  once := h.once
  returned := by
    intro i j hj
    by_cases hi : k = i
    · subst hi
      rw [List.getElem?_set_self (List.getElem?_eq_some_iff.mp hk).1] at hj
      obtain rfl := Option.some.inj hj
      exact hcall.trans (h.returned k job hk)
    · rw [List.getElem?_set_ne hi] at hj
      exact h.returned i j hj
  batch b hb := batch_of_set hk hsame (h.batch b hb)
  jobs := job_of_set hjob h.jobs

/-- The transaction of a job is refused, or writes nothing. -/
theorem Inv.attempted (h : Inv before w) (hk : w.jobs[k]? = some job) {n : Nat}
    (htrying : job.call = .trying n) {a : Attempt Bool DbError} (ha : a ≠ .returned true) :
    Inv before { w with jobs := w.jobs.set k (job.attempted a) } := by
  refine h.setJob hk ((h.jobs job (List.mem_of_getElem? hk)).attempted htrying a) ⟨rfl, rfl⟩ ?_
  rw [call_attempted, htrying]
  refine iff_of_false (fun hreturned => ?_) (by simp)
  cases a with
  | returned v => exact ha (congrArg _ (Call.returned.inj hreturned))
  | failed e =>
      rw [Policy.step_failed] at hreturned
      split at hreturned <;> cases hreturned

/-- The transaction of a job is stored. -/
theorem Inv.store (h : Inv before w) (hk : w.jobs[k]? = some job) {n : Nat}
    (htrying : job.call = .trying n) {gpus : GpuTable} {now : Time}
    (hgpus : upsertTelemetry w.gpus job.serverId now job.entries = some gpus) :
    Inv before { w with
      gpus := gpus
      jobs := w.jobs.set k (job.attempted (.returned true))
      stored := w.stored ++ [⟨k, job.serverId, job.entries, now⟩] } := by
  have hlt := (List.getElem?_eq_some_iff.mp hk).1
  have hnew : k ∉ w.stored.map (·.job) := by
    rw [← h.returned k job hk, htrying]
    simp
  have hreturned : (job.attempted (.returned true)).call = .returned true := by
    rw [call_attempted, htrying]
    rfl
  refine ⟨⟨fun card => ?_, ?_, fun i j hj => ?_, fun b hb => ?_⟩, ?_⟩
  · rw [(upsertTelemetry_spec hgpus k).2 card, h.latest card, List.flatMap_append, lastReading_append,
      List.flatMap_singleton, Option.or_assoc]
  · rw [List.map_append, List.map_singleton, ← List.concat_eq_append]
    exact h.once.concat hnew
  · rw [List.map_append, List.mem_append, List.map_singleton, List.mem_singleton]
    by_cases hi : k = i
    · subst hi
      rw [List.getElem?_set_self hlt] at hj
      obtain rfl := Option.some.inj hj
      exact iff_of_true hreturned (.inr rfl)
    · rw [List.getElem?_set_ne hi] at hj
      rw [h.returned i j hj]
      exact ⟨.inl, fun hor => hor.resolve_right (Ne.symm hi)⟩
  · rcases List.mem_append.mp hb with hb | hb
    · have hsame : (job.attempted (.returned true)).serverId = job.serverId ∧
          (job.attempted (.returned true)).entries = job.entries := ⟨rfl, rfl⟩
      exact batch_of_set hk hsame (h.batch b hb)
    · obtain rfl := List.mem_singleton.mp hb
      exact ⟨job.attempted (.returned true), List.getElem?_set_self hlt, rfl, rfl⟩
  · exact job_of_set ((h.jobs job (List.mem_of_getElem? hk)).attempted htrying _) h.jobs

theorem Inv.ends (h : Inv before w) (hk : w.jobs[k]? = some job) {n : Nat}
    (htrying : job.call = .trying n) (approved : Bool) (verdict : Verdict) :
    Inv before (w.ends k job approved verdict) ∧ Kept w.gpus (w.ends k job approved verdict).gpus := by
  cases verdict with
  | refuses error => exact ⟨h.attempted hk htrying (by simp), .refl _⟩
  | commits now =>
      cases approved with
      | false => exact ⟨h.attempted hk htrying (by simp), .refl _⟩
      | true =>
          cases hgpus : upsertTelemetry w.gpus job.serverId now job.entries with
          | none =>
              have hends : w.ends k job true (.commits now) =
                  { w with jobs := w.jobs.set k (job.attempted (.failed .data)) } := by
                simp only [World.ends, hgpus, if_true]
              exact hends ▸ ⟨h.attempted hk htrying (by simp), .refl _⟩
          | some gpus =>
              have hends : w.ends k job true (.commits now) = { w with
                  gpus := gpus
                  jobs := w.jobs.set k (job.attempted (.returned true))
                  stored := w.stored ++ [⟨k, job.serverId, job.entries, now⟩] } := by
                simp only [World.ends, hgpus, if_true]
              exact hends ▸ ⟨h.store hk htrying hgpus, (upsertTelemetry_spec hgpus k).1⟩

theorem Inv.receive (h : Inv before w) (serverId : Nat) (entries : List GpuTelemetryEntry) :
    Inv before { w with jobs := w.jobs ++ [{ serverId, entries }] } where
  latest := h.latest
  once := h.once
  returned := by
    intro i j hj
    rw [List.getElem?_append] at hj
    split at hj
    · exact h.returned i j hj
    · next hi =>
        have hnew : i ∉ w.stored.map (·.job) := by
          intro hmem
          obtain ⟨b, hb, rfl⟩ := List.mem_map.mp hmem
          obtain ⟨job, hjob, -⟩ := h.batch b hb
          exact hi (List.getElem?_eq_some_iff.mp hjob).1
        obtain rfl := List.mem_singleton.mp (List.mem_of_getElem? hj)
        exact iff_of_false (by simp [Job.call]) hnew
  batch := by
    intro b hb
    obtain ⟨job, hjob, hsame⟩ := h.batch b hb
    exact ⟨job, by rw [List.getElem?_append_left (List.getElem?_eq_some_iff.mp hjob).1, hjob], hsame⟩
  jobs := by
    intro j hj
    rcases List.mem_append.mp hj with hj | hj
    · exact h.jobs j hj
    · exact List.mem_singleton.mp hj ▸ jobInv_new serverId entries

/-- What each action keeps. -/
theorem inv_step (h : Inv before w) {a : Action} (hs : step w a = some w') :
    Inv before w' ∧ Kept w.gpus w'.gpus := by
  cases a with
  | receive serverId entries =>
      obtain rfl := Option.some.inj hs
      exact ⟨h.receive serverId entries, .refl _⟩
  | begins k =>
      simp only [step, Option.bind_eq_bind, Option.bind_eq_some_iff] at hs
      obtain ⟨job, hk, hs⟩ := hs
      have hjob := h.jobs job (List.mem_of_getElem? hk)
      split at hs
      · next n htrying _ =>
          obtain rfl := Option.some.inj hs
          have hopen : JobInv { job with approved := some (isServerApproved w.servers job.serverId) } :=
            ⟨⟨hjob.patient.1, hjob.patient.2, hjob.patient.3⟩, fun _ => ⟨n, htrying⟩, hjob.sleeping,
              hjob.fannedOut⟩
          exact ⟨h.setJob hk hopen ⟨rfl, rfl⟩ Iff.rfl, .refl _⟩
      · cases hs
  | ends k verdict =>
      simp only [step, Option.bind_eq_bind, Option.bind_eq_some_iff] at hs
      obtain ⟨job, hk, approved, happroved, hs⟩ := hs
      obtain rfl := Option.some.inj hs
      obtain ⟨n, htrying⟩ := (h.jobs job (List.mem_of_getElem? hk)).begun (by simp [happroved])
      exact h.ends hk htrying approved verdict
  | fanOut k =>
      simp only [step, Option.bind_eq_bind, Option.bind_eq_some_iff] at hs
      obtain ⟨job, hk, hs⟩ := hs
      have hjob := h.jobs job (List.mem_of_getElem? hk)
      split at hs
      · next hreturned =>
          obtain rfl := Option.some.inj hs
          have hfanned : JobInv { job with fannedOut := true } :=
            ⟨⟨hjob.patient.1, hjob.patient.2, hjob.patient.3⟩, hjob.begun, hjob.sleeping,
              fun _ => hreturned.1⟩
          exact ⟨h.setJob hk hfanned ⟨rfl, rfl⟩ Iff.rfl, .refl _⟩
      · cases hs
  | putServer server =>
      obtain rfl := Option.some.inj hs
      exact ⟨⟨⟨h.latest, h.once, h.returned, h.batch⟩, h.jobs⟩, .refl _⟩

/-- **Telemetry is stored exactly once.** Whatever batches come in, however their transactions
interleave, run into errors that are passed over or fail, and whenever servers are approved or deleted: the table shows
the last stored reading of each card, under a number that never changes. -/
theorem stores_run (servers : Table Server) (gpus : GpuTable) (as : List Action) :
    Along step (fun w _ w' => Stores (start servers gpus) w' ∧ Kept w.gpus w'.gpus)
      (start servers gpus) as :=
  along_of_keeps (I := Inv (start servers gpus))
    (fun _ _ _ h hs => ⟨(inv_step h hs).1, (inv_step h hs).1.stores, (inv_step h hs).2⟩)
    (.start servers gpus) as

end Run

end Telemetry

end CoreLab
