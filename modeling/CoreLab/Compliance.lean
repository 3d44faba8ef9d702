import CoreLab.LinkCache

/-!
# CoreLab.Compliance

The agent's compliance verdict on one GPU process, over the cache that a full
sync left.

* `evaluateProcess_compliant_iff` — a process is compliant, but for its memory,
  exactly when its user has a reservation whose cached GPU number is the index
  of the GPU it runs on;
* `evaluateProcess_refines_iff` — so the verdict follows the database exactly
  where GPU ids and GPU indices agree on the reservation that covers the process.
-/

namespace CoreLab

open Calendar Relational

/-! ## the verdict -/

/-- The policies that a process can violate. -/
inductive PolicyKey where
  | unlinkedUserOccupy | memoryOveruse | preemptOthersReservation | noReservationOccupy
deriving DecidableEq, Repr

/-- `Violation`, with the payload fields of the process policies. -/
structure Violation where
  policyKey : PolicyKey
  serverId : Nat
  gpuIdLocal : Nat
  linuxUsername : String
  pid : Int
  linkedUserIds : List Nat
  memoryUsedMb : Int
  memoryQuotaMb : Option Nat := none
  reservationId : Option Nat := none
deriving DecidableEq, Repr

/-- `_reservation_overlaps_now`: a text that is no datetime covers nothing, a
naive datetime is read as UTC. -/
def reservationOverlapsNow (startAt endAt : String) (now : Time) : Bool :=
  match Datetime.fromisoformat startAt, Datetime.fromisoformat endAt with
  | some s, some e => decide (s.instant ≤ now ∧ now < e.instant)
  | _, _ => false

/-- The reservation counts for a process on the GPU with this index. -/
def coversProcess (gpuIndex : Nat) (now : Time) (res : ActiveReservation) : Bool :=
  res.gpuId = gpuIndex && res.source ≠ .adminDeclared &&
    reservationOverlapsNow res.startAt res.endAt now

/-- `_MEMORY_OVERUSE_DEFAULT_PCT`. -/
def memoryOveruseDefaultPct : Int := 20

/-- `memory_used_mb > quota_mb * (1 + pct / 100.0)`, in floating point. -/
def exceedsQuota (memoryUsedMb : Int) (quotaMb : Nat) (thresholdPct : Int) : Bool :=
  decide (Float.ofInt memoryUsedMb > Float.ofNat quotaMb * (1 + Float.ofInt thresholdPct / 100.0))

/-- A process on a GPU, as the collector reports it. -/
structure GpuProcess where
  linuxUsername : String
  pid : Int
  memoryMb : Int
deriving DecidableEq, Repr

/-- The first reservation of a linked user that covers the process. -/
def ownReservation (cache : ReverseCache) (serverId gpuIndex : Nat) (linuxUsername : String)
    (now : Time) : Option ActiveReservation :=
  (lookupUserIds cache serverId linuxUsername).findSome? fun uid =>
    (lookupActiveReservations cache serverId linuxUsername uid).find? (coversProcess gpuIndex now)

/-- Another account of the server has a reservation on this index now. -/
def otherHolder (cache : ReverseCache) (serverId gpuIndex : Nat) (linuxUsername : String)
    (now : Time) : Bool :=
  (cache.entries.filter fun e => e.1.1 = serverId && e.1.2 ≠ linuxUsername).any fun e =>
    (lookupUserIds cache serverId e.1.2).any fun uid =>
      (lookupActiveReservations cache serverId e.1.2 uid).any (coversProcess gpuIndex now)

/-- `_evaluate_process`; `threshold` is the value of the synced memory policy, if there is one. -/
def evaluateProcess (cache : ReverseCache) (threshold : Option Int) (serverId gpuIndex : Nat)
    (proc : GpuProcess) (now : Time) : Option Violation :=
  let linkedUserIds := lookupUserIds cache serverId proc.linuxUsername
  let violation (policyKey : PolicyKey) (users : List Nat) : Violation :=
    { policyKey := policyKey, serverId := serverId, gpuIdLocal := gpuIndex
      linuxUsername := proc.linuxUsername, pid := proc.pid, linkedUserIds := users
      memoryUsedMb := proc.memoryMb }
  if linkedUserIds.isEmpty then some (violation .unlinkedUserOccupy [])
  else
    match ownReservation cache serverId gpuIndex proc.linuxUsername now with
    | some res =>
      match res.gpuMemoryMb with
      | some quotaMb =>
        if exceedsQuota proc.memoryMb quotaMb (threshold.getD memoryOveruseDefaultPct) then
          some { violation .memoryOveruse linkedUserIds with
            memoryQuotaMb := some quotaMb, reservationId := some res.reservationId }
        else none
      | none => none
    | none =>
      if otherHolder cache serverId gpuIndex proc.linuxUsername now then
        some (violation .preemptOthersReservation linkedUserIds)
      else some (violation .noReservationOccupy linkedUserIds)

/-- No violation, or one of the memory limit only. -/
def Compliant (verdict : Option Violation) : Prop :=
  ∀ v, verdict = some v → v.policyKey = .memoryOveruse

/-- A process is compliant exactly when a linked user's reservation covers it. -/
theorem evaluateProcess_compliant_iff {cache : ReverseCache} {threshold : Option Int}
    {serverId gpuIndex : Nat} {proc : GpuProcess} {now : Time} :
    Compliant (evaluateProcess cache threshold serverId gpuIndex proc now) ↔
      ∃ uid ∈ lookupUserIds cache serverId proc.linuxUsername,
        ∃ res ∈ lookupActiveReservations cache serverId proc.linuxUsername uid,
          coversProcess gpuIndex now res = true := by
  have hown : (ownReservation cache serverId gpuIndex proc.linuxUsername now).isSome ↔
      ∃ uid ∈ lookupUserIds cache serverId proc.linuxUsername,
        ∃ res ∈ lookupActiveReservations cache serverId proc.linuxUsername uid,
          coversProcess gpuIndex now res = true := by
    simp only [ownReservation, List.findSome?_isSome_iff, List.find?_isSome]
  rw [← hown]
  unfold evaluateProcess Compliant
  dsimp only
  split
  · next hempty =>
      have hnone : ownReservation cache serverId gpuIndex proc.linuxUsername now = none := by
        rw [ownReservation, List.isEmpty_iff.mp hempty]
        rfl
      simp [hnone]
  · cases hres : ownReservation cache serverId gpuIndex proc.linuxUsername now with
    | none =>
        dsimp only
        split <;> simp
    | some res =>
        dsimp only
        split
        · split <;> simp
        · simp

/-! ## the verdict and the database -/

/-- The reservation `r` gives the Linux user the GPU under this number at `now`:
it was booked through an active link, not declared by an admin, to the user's
active account. -/
structure Holds (db : Db) (serverId : Nat) (linuxUsername : String) (gpuId : Nat) (now : Time)
    (r : Reservation) : Prop where
  link : ∃ p l, Linked db serverId linuxUsername p l ∧ l.source ≠ .adminDeclared ∧
    r.accountLinkId = l.id
  mem : r ∈ db.reservations
  live : r.occupies = true
  gpu : r.gpuId = some gpuId
  started : r.startAt ≤ now
  running : now < r.endAt

/-- The Linux user may use the GPU with this index: a reservation of its row holds. -/
def Entitled (db : Db) (serverId : Nat) (linuxUsername : String) (gpuIndex : Nat) (now : Time) :
    Prop :=
  ∃ g ∈ db.gpus, g.serverId = serverId ∧ g.gpuIndex = gpuIndex ∧
    ∃ r, Holds db serverId linuxUsername g.id now r

section Refinement

variable {field : DatetimeField} (hfield : field.Lawful) {db : Db} (hready : SyncReady db)
include hfield hready

/-- A cached reservation covers a process by the number of its GPU and by its
own window: the texts mean the instants they were made from. -/
theorem coversProcess_cachedOf {gpuIndex : Nat} {now : Time} {l : AccountLink} {r : Reservation}
    (hr : r ∈ db.reservations) :
    coversProcess gpuIndex now (cachedOf field l r) = true ↔
      r.gpuId = some gpuIndex ∧ l.source ≠ .adminDeclared ∧ r.startAt ≤ now ∧ now < r.endAt := by
  obtain ⟨gpuId, hgpu⟩ := Option.isSome_iff_exists.mp (hready.gpu r hr)
  have hstart := hfield.fromisoformat_dump r.startAt (hready.startAt r hr)
  have hend := hfield.fromisoformat_dump r.endAt (hready.endAt r hr)
  have hoverlap : reservationOverlapsNow (field.dump (.utc r.startAt)) (field.dump (.utc r.endAt))
      now = decide (r.startAt ≤ now ∧ now < r.endAt) := by
    rw [reservationOverlapsNow, hstart, hend]
    simp only [Datetime.instant_utc]
  simp [coversProcess, cachedOf, hgpu, hoverlap, and_assoc]

/-- **The verdict in terms of the database**: a process is compliant exactly
when its user holds, at `now`, the GPU whose *id* is the process's GPU *index*. -/
theorem compliant_iff_holds (cache : ReverseCache) (threshold : Option Int)
    (serverId gpuIndex : Nat) (proc : GpuProcess) (composedAt now : Time) :
    Compliant (evaluateProcess
        (receiveFullSync field cache (composeFullPayload db serverId composedAt)) threshold serverId
        gpuIndex proc now) ↔
      ∃ r, Holds db serverId proc.linuxUsername gpuIndex now r ∧ composedAt ≤ r.endAt := by
  rw [evaluateProcess_compliant_iff]
  constructor
  · rintro ⟨uid, -, res, hres, hcovers⟩
    rw [mem_lookupActiveReservations hfield hready] at hres
    obtain ⟨p, l, r, hlinked, -, hr, rfl⟩ := hres
    obtain ⟨hmem, hbooked, hlive, hend⟩ := mem_liveReservations.mp hr
    obtain ⟨hgpu, hsource, hstart, hnow⟩ := (coversProcess_cachedOf hfield hready hmem).mp hcovers
    exact ⟨r, ⟨⟨p, l, hlinked, hsource, hbooked⟩, hmem, hlive, hgpu, hstart, hnow⟩, hend⟩
  · rintro ⟨r, h, hend⟩
    obtain ⟨p, l, hlinked, hsource, hbooked⟩ := h.link
    refine ⟨l.userId, ?_, cachedOf field l r, ?_, ?_⟩
    · rw [mem_lookupUserIds hfield hready]
      exact ⟨p, l, hlinked, rfl⟩
    · rw [mem_lookupActiveReservations hfield hready]
      exact ⟨p, l, r, hlinked, rfl, mem_liveReservations.mpr ⟨h.mem, hbooked, h.live, hend⟩, rfl⟩
    · exact (coversProcess_cachedOf hfield hready h.mem).mpr ⟨h.gpu, hsource, h.started, h.running⟩

/-- **The verdict refines the database** for a process exactly when, if its user
is entitled to the GPU, the user holds a reservation whose GPU id is the number
of the process's GPU index. -/
theorem evaluateProcess_refines_iff (cache : ReverseCache) (threshold : Option Int)
    (serverId gpuIndex : Nat) (proc : GpuProcess) (composedAt now : Time) :
    (Entitled db serverId proc.linuxUsername gpuIndex now →
        Compliant (evaluateProcess
          (receiveFullSync field cache (composeFullPayload db serverId composedAt)) threshold
          serverId gpuIndex proc now)) ↔
      (Entitled db serverId proc.linuxUsername gpuIndex now →
        ∃ r, Holds db serverId proc.linuxUsername gpuIndex now r ∧ composedAt ≤ r.endAt) :=
  imp_congr_right fun _ =>
    compliant_iff_holds hfield hready cache threshold serverId gpuIndex proc composedAt now

end Refinement

/-- An exclusive hour of the owner on a GPU. -/
def hourOn (gpuId : Nat) : Reservation :=
  { id := 7, userId := 41, serverId := 1, gpuId := some gpuId, accountLinkId := 31, groupId := none
    startAt := 0, endAt := hourMicros, status := .active, gpuMemoryMb := none
    gpuComputeSharePct := none, script := none, scriptScheduledStartAt := none
    scriptMaxRuntimeSeconds := none }

/-- The small lab with one hour booked, on a card under the given id and index. -/
def labWithCard (id gpuIndex : Nat) : Db :=
  { smallLab (.single (hourOn id)) with
    gpus := .single { id := id, serverId := 1, gpuIndex := gpuIndex, memoryTotalMb := some 24576 } }

theorem syncReady_labWithCard (id gpuIndex : Nat) : SyncReady (labWithCard id gpuIndex) := by
  have hrow : ∀ r ∈ (labWithCard id gpuIndex).reservations, r = hourOn id := by
    intro r hr
    exact List.mem_singleton.mp hr
  refine ⟨?_, ?_, ?_, ?_⟩
  · intro r hr
    rw [hrow r hr]
    rfl
  · intro r hr
    rw [hrow r hr]
    show InRange 0
    decide
  · intro r hr
    rw [hrow r hr]
    show InRange hourMicros
    decide
  · intro p hp q hq _ _ _ _
    rw [List.mem_singleton.mp hp, List.mem_singleton.mp hq]

theorem holds_labWithCard (id gpuIndex : Nat) :
    Holds (labWithCard id gpuIndex) 1 "alice" id 0 (hourOn id) := by
  have hlink : Linked (labWithCard id gpuIndex) 1 "alice" _ _ :=
    ⟨List.mem_singleton_self _, rfl, rfl, rfl,
      mem_linksOf.mpr ⟨List.mem_singleton_self _, rfl, rfl⟩⟩
  refine ⟨⟨_, _, hlink, by simp, rfl⟩, List.mem_singleton_self _, rfl, rfl, Int.le_refl 0, ?_⟩
  show (0 : Int) < hourMicros
  decide

theorem entitled_labWithCard (id gpuIndex : Nat) :
    Entitled (labWithCard id gpuIndex) 1 "alice" gpuIndex 0 :=
  ⟨_, List.mem_singleton_self _, rfl, rfl, hourOn id, holds_labWithCard id gpuIndex⟩

/-- A process of the owner. -/
def ownProcess : GpuProcess := { linuxUsername := "alice", pid := 100, memoryMb := 512 }

/-- On a card whose index is its id the verdict is right. -/
theorem evaluateProcess_refines_iff_same_number :
    Entitled (labWithCard 1 1) 1 "alice" 1 0 ∧
      Compliant (evaluateProcess
        (receiveFullSync zuluField .empty (composeFullPayload (labWithCard 1 1) 1 0)) none 1 1
        ownProcess 0) := by
  have hentitled := entitled_labWithCard 1 1
  have hiff := evaluateProcess_refines_iff lawful_zuluField (syncReady_labWithCard 1 1) .empty none
    1 1 ownProcess 0 0
  have hnumber : ∃ r, Holds (labWithCard 1 1) 1 "alice" 1 0 r ∧ (0 : Time) ≤ r.endAt :=
    ⟨hourOn 1, holds_labWithCard 1 1, by decide⟩
  exact ⟨hentitled, hiff.mpr (fun _ => hnumber) hentitled⟩

/-- On the first card of a server, index 0 under id 11, the owner of the hour
is reported as having none. -/
theorem evaluateProcess_not_refines :
    ¬ ∀ (field : DatetimeField), field.Lawful → ∀ (db : Db), SyncReady db →
        ∀ (cache : ReverseCache) (threshold : Option Int) (serverId gpuIndex : Nat)
          (proc : GpuProcess) (now : Time),
          Entitled db serverId proc.linuxUsername gpuIndex now →
          Compliant (evaluateProcess
            (receiveFullSync field cache (composeFullPayload db serverId now)) threshold serverId
            gpuIndex proc now) := by
  intro h
  have hcompliant := h zuluField lawful_zuluField (labWithCard 11 0) (syncReady_labWithCard 11 0)
    .empty none 1 0 ownProcess 0 (entitled_labWithCard 11 0)
  obtain ⟨v, hv, hkey⟩ : ∃ v, evaluateProcess
      (receiveFullSync zuluField .empty (composeFullPayload (labWithCard 11 0) 1 0)) none 1 0
      ownProcess 0 = some v ∧ v.policyKey = .noReservationOccupy := by
    rw [← Option.map_eq_some_iff]
    decide +kernel
  rw [hcompliant v hv] at hkey
  cases hkey

end CoreLab
