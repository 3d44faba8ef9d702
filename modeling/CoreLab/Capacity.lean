import CoreLab.ReservationService
import CoreLab.Lib.Occupancy

/-!
# CoreLab.Capacity

What bookings may hold a GPU at one instant, and what a batch booking does to
it.  A row without `gpu_memory_mb` takes the whole card; rows with it share the
card's memory and a hundred percent of its compute (`Lib.Occupancy`).

* `admits_of_classifyConflict` — an item without a conflict is admitted against
  the rows of its window;
* `createReservationBatch_capacity_iff` — a booking keeps the capacity
  invariant exactly when the items of the batch fit among themselves.
-/

namespace CoreLab

open Relational Loops Occupancy

/-- What a memory and a compute column ask of a card. -/
def demandOf (memoryMb computePct : Option Nat) : Demand :=
  match memoryMb with
  | none => .exclusive
  | some m => .shared m (computePct.getD 0)

def Reservation.demand (r : Reservation) : Demand := demandOf r.gpuMemoryMb r.gpuComputeSharePct

def ItemDraft.demand (item : ItemDraft) : Demand :=
  demandOf item.gpuMemoryMb item.gpuComputeSharePct

/-- The budgets of a card; an unknown or zero memory is not limited. -/
def Gpu.capacity (gpu : Gpu) : Capacity :=
  { memory := if gpu.memoryTotalMb.getD 0 = 0 then none else gpu.memoryTotalMb, share := 100 }

/-- The scheduled and active rows of a GPU whose window contains `t`. -/
def presentAt (rows : List Reservation) (gpuId : Nat) (t : Time) : List Reservation :=
  rows.filter fun r =>
    r.gpuId = some gpuId && r.occupies && decide (Covers Reservation.startAt Reservation.endAt t r)

/-- The items of a batch that ask for a GPU at `t`. -/
def itemsAt (items : List ItemDraft) (gpuId : Nat) (t : Time) : List ItemDraft :=
  items.filter fun item => item.gpuId = some gpuId &&
    decide (Covers (fun i : ItemDraft => i.startAt.stored) (fun i => i.endAt.stored) t item)

/-- What holds a GPU at `t`. -/
def demandAt (rows : List Reservation) (gpuId : Nat) (t : Time) : List Demand :=
  (presentAt rows gpuId t).map Reservation.demand

/-- **Capacity**: at every instant each GPU is held by one exclusive row, or by
shared rows within its memory and compute, or by none. -/
def CapacityInvariant (db : Db) : Prop :=
  ∀ gpu ∈ db.gpus, ∀ t, Fits gpu.capacity (demandAt db.reservations.rows gpu.id t)

/-! ## the conflict rules -/

theorem memory_demandOf (m p : Option Nat) : (demandOf m p).memory = m.getD 0 := by
  cases m <;> rfl

theorem isShared_demandOf (m p : Option Nat) : (demandOf m p).isShared = m.isSome := by
  cases m <;> rfl

theorem memorySum_demand (rows : List Reservation) :
    memorySum (rows.map Reservation.demand) = usedMemoryMb rows := by
  induction rows with
  | nil => rfl
  | cons r rows ih =>
      rw [List.map_cons, memorySum_cons, ih, Reservation.demand, memory_demandOf]
      rfl

/-- Shared rows ask for exactly their compute columns. -/
theorem shareSum_demand {rows : List Reservation} (h : ∀ r ∈ rows, r.gpuMemoryMb.isSome) :
    shareSum (rows.map Reservation.demand) = usedComputePct rows := by
  induction rows with
  | nil => rfl
  | cons r rows ih =>
      rw [List.map_cons, shareSum_cons, ih fun s hs => h s (List.mem_cons_of_mem r hs)]
      obtain ⟨m, hm⟩ := Option.isSome_iff_exists.mp (h r List.mem_cons_self)
      simp [Reservation.demand, demandOf, hm, Demand.share, usedComputePct]

theorem withinLimit_capacity {gpu : Gpu} {n : Nat} :
    WithinLimit gpu.capacity.memory n ↔
      (gpu.memoryTotalMb.getD 0 = 0 ∨ n ≤ gpu.memoryTotalMb.getD 0) := by
  unfold WithinLimit Gpu.capacity
  cases htotal : gpu.memoryTotalMb with
  | none => simp
  | some total =>
      by_cases hz : total = 0
      · simp [hz]
      · simp [hz]

/-- An item without a conflict is admitted against the rows of its window. -/
theorem admits_of_classifyConflict {item : ItemDraft} {inWindow : List Reservation} {gpu : Gpu}
    (h : classifyConflict item inWindow gpu = none) :
    Admits gpu.capacity (inWindow.map Reservation.demand) item.demand := by
  unfold classifyConflict at h
  by_cases hempty : inWindow = []
  · subst hempty
    unfold Admits
    split
    · rfl
    · exact Or.inl rfl
  rw [if_neg hempty] at h
  unfold ItemDraft.demand demandOf
  cases hm : item.gpuMemoryMb with
  | none =>
      -- an exclusive request conflicts with any row of the window
      rw [hm] at h
      dsimp only at h
      split at h <;> cases h
  | some memoryMb =>
      rw [hm] at h
      dsimp only at h
      split at h
      · cases h
      next hexclusive =>
      have hshared : ∀ r ∈ inWindow, r.gpuMemoryMb.isSome := by
        intro r hr
        by_contra hn
        exact hexclusive (List.ne_nil_of_mem (List.mem_filter.mpr ⟨hr, by simpa using hn⟩))
      split at h
      · cases h
      next hmemory =>
      refine Or.inr ⟨?_, ?_, ?_⟩
      · intro d hd
        obtain ⟨r, hr, rfl⟩ := List.mem_map.mp hd
        rw [Reservation.demand, isShared_demandOf]
        exact hshared r hr
      · rw [memorySum_demand, withinLimit_capacity]
        omega
      · rw [shareSum_demand hshared]
        cases hp : item.gpuComputeSharePct with
        | none => exact Or.inl rfl
        | some pct =>
            rw [hp] at h
            dsimp only at h
            split at h
            · cases h
            · next hcompute => exact Or.inr (not_lt.mp hcompute)

/-! ## the rows of a batch -/

@[simp] theorem demandAt_append (rows rows' : List Reservation) (gpuId : Nat) (t : Time) :
    demandAt (rows ++ rows') gpuId t = demandAt rows gpuId t ++ demandAt rows' gpuId t := by
  simp [demandAt, presentAt]

/-- Mapping the selected elements, as one pass over all of them. -/
private theorem map_filter_eq_filterMap {α β : Type} (p : α → Bool) (f : α → β) (l : List α) :
    (l.filter p).map f = (l.map fun a => if p a then some (f a) else none).filterMap id := by
  induction l with
  | nil => rfl
  | cons a l ih => cases h : p a <;> simp [h, ih]

/-- The created rows ask for what their items ask for. -/
theorem demandAt_createdRows (db : Db) (req : BatchRequest) (groupId : String) (gpuId : Nat)
    (t : Time) :
    demandAt (createdRows db req groupId) gpuId t =
      (itemsAt req.items gpuId t).map ItemDraft.demand := by
  rw [demandAt, presentAt, itemsAt, map_filter_eq_filterMap, map_filter_eq_filterMap]
  congr 1
  apply map_createdRows
  intro item idx id
  -- a new row is scheduled, so it occupies the window of its item
  have hscheduled : (newRow req groupId item idx id).occupies = true := rfl
  rw [hscheduled, Bool.and_true]
  rfl

/-- The rows present at an instant of a window are in the window. -/
theorem presentAt_sublist (db : Db) {gpuId : Nat} {startAt endAt t : Time} (hs : startAt ≤ t)
    (he : t < endAt) :
    (presentAt db.reservations.rows gpuId t).Sublist
      (windowActiveReservations db gpuId startAt endAt) := by
  have hsub : presentAt db.reservations.rows gpuId t =
      (windowActiveReservations db gpuId startAt endAt).filter
        fun r => decide (Covers Reservation.startAt Reservation.endAt t r) := by
    rw [presentAt, windowActiveReservations, List.filter_filter]
    apply List.filter_congr
    intro r _
    rw [Bool.eq_iff_iff]
    simp only [Bool.and_eq_true, decide_eq_true_eq]
    constructor
    · rintro ⟨⟨hg, ho⟩, hc⟩
      obtain ⟨h1, h2⟩ := covers_overlaps _ _ hs he hc
      exact ⟨hc, ⟨⟨hg, ho⟩, h1⟩, h2⟩
    · rintro ⟨hc, ⟨⟨hg, ho⟩, -⟩, -⟩
      exact ⟨⟨hg, ho⟩, hc⟩
  rw [hsub]
  exact List.filter_sublist

/-- Who holds the GPU at an instant of a window is in the window. -/
theorem demandAt_sublist (db : Db) {gpuId : Nat} {startAt endAt t : Time} (hs : startAt ≤ t)
    (he : t < endAt) :
    (demandAt db.reservations.rows gpuId t).Sublist
      ((windowActiveReservations db gpuId startAt endAt).map Reservation.demand) :=
  (presentAt_sublist db hs he).map _

/-! ## the invariant under a batch booking -/

/-- The batch fits by itself: no item asks for more memory than its card has,
and wherever items of the batch meet on a card they are shared and, with the
rows there, within its budgets. -/
structure BatchFits (db : Db) (items : List ItemDraft) : Prop where
  alone : ∀ item ∈ items, ∀ gpu ∈ db.gpus, item.gpuId = some gpu.id →
    WithinLimit gpu.capacity.memory item.demand.memory
  together : ∀ gpu ∈ db.gpus, ∀ t, 2 ≤ (itemsAt items gpu.id t).length →
    (∀ item ∈ itemsAt items gpu.id t, item.gpuMemoryMb.isSome) ∧
      WithinLimit gpu.capacity.memory (memorySum (demandAt db.reservations.rows gpu.id t) +
        memorySum ((itemsAt items gpu.id t).map ItemDraft.demand)) ∧
      shareSum (demandAt db.reservations.rows gpu.id t) +
        shareSum ((itemsAt items gpu.id t).map ItemDraft.demand) ≤ gpu.capacity.share

theorem mem_itemsAt {items : List ItemDraft} {gpuId : Nat} {t : Time} {item : ItemDraft} :
    item ∈ itemsAt items gpuId t ↔ item ∈ items ∧ item.gpuId = some gpuId ∧
      item.startAt.stored ≤ t ∧ t < item.endAt.stored := by
  simp only [itemsAt, List.mem_filter, Bool.and_eq_true, decide_eq_true_eq]
  rfl

/-- The window check of a booked item, at an instant of its window. -/
theorem Booked.admits {db db' : Db} {req : BatchRequest} {groupId : String} {now : Time}
    (hb : Booked db req groupId now db') {gpu : Gpu} (hgpu : gpu ∈ db.gpus) {t : Time}
    {item : ItemDraft} (hitem : item ∈ itemsAt req.items gpu.id t) :
    ∃ window, (demandAt db.reservations.rows gpu.id t).Sublist window ∧
      Admits gpu.capacity window item.demand := by
  obtain ⟨hmem, hid, hs, he⟩ := mem_itemsAt.mp hitem
  obtain ⟨gpu', hget, hnone⟩ := checkItemConflict_eq_ok_iff.mp (hb.noConflict item hmem) _ hid
  have hgpu' : gpu' = gpu := Table.eq_of_key_eq (Table.mem_of_get? hget) hgpu (Table.key_of_get? hget)
  subst hgpu'
  exact ⟨_, demandAt_sublist db hs he, admits_of_classifyConflict hnone⟩

/-- The store refuses a row that asks for more than all of the compute. -/
theorem Booked.share_le {db db' : Db} {req : BatchRequest} {groupId : String} {now : Time}
    (hb : Booked db req groupId now db') {item : ItemDraft} (hitem : item ∈ req.items) :
    item.demand.share ≤ 100 := by
  have hpct : (createdRows db req groupId).map Reservation.gpuComputeSharePct =
      req.items.map ItemDraft.gpuComputeSharePct := map_createdRows db req groupId _ _ fun _ _ _ => rfl
  have hmem : item.gpuComputeSharePct ∈
      (createdRows db req groupId).map Reservation.gpuComputeSharePct :=
    hpct ▸ List.mem_map.mpr ⟨item, hitem, rfl⟩
  obtain ⟨r, hr, hrp⟩ := List.mem_map.mp hmem
  unfold ItemDraft.demand demandOf
  split
  · exact Nat.zero_le _
  · cases hp : item.gpuComputeSharePct with
    | none => exact Nat.zero_le _
    | some pct => exact (share_of_checks (hb.checks r hr) (hrp.trans hp)).2

/-- What is on a card after a booking: what was there, and the items of the batch. -/
theorem Booked.demandAt_eq {db db' : Db} {req : BatchRequest} {groupId : String} {now : Time}
    (hb : Booked db req groupId now db') (gpuId : Nat) (t : Time) :
    demandAt db'.reservations.rows gpuId t =
      demandAt db.reservations.rows gpuId t ++ (itemsAt req.items gpuId t).map ItemDraft.demand := by
  rw [hb.reservations, demandAt_append, demandAt_createdRows]

/-- A batch that left the table within capacity fits by itself. -/
theorem Booked.batchFits {db db' : Db} {req : BatchRequest} {groupId : String} {now : Time}
    (hb : Booked db req groupId now db')
    (hpost : ∀ gpu ∈ db.gpus, ∀ t, Fits gpu.capacity (demandAt db'.reservations.rows gpu.id t)) :
    BatchFits db req.items := by
  refine ⟨?_, ?_⟩
  · -- at its first instant the item is among those who share the card
    intro item hitem gpu hgpu hid
    obtain ⟨_, _, htime, -, -⟩ := validateItem_eq_ok_iff.mp (hb.valid item hitem)
    have horder := (validateItemTime_eq_ok_iff.mp htime).1
    have hat : item ∈ itemsAt req.items gpu.id item.startAt.stored :=
      mem_itemsAt.mpr ⟨hitem, hid, le_refl _, horder⟩
    exact (hpost gpu hgpu item.startAt.stored).memory_le (hb.demandAt_eq _ _ ▸
      List.mem_append_right _ (List.mem_map.mpr ⟨item, hat, rfl⟩))
  · intro gpu hgpu t hlen
    have hfits := hpost gpu hgpu t
    rw [hb.demandAt_eq] at hfits
    have hshared := hfits.sharedWithin_of_two_le (by
      rw [List.length_append, List.length_map]; omega)
    refine ⟨?_, by simpa using hshared.memory, by simpa using hshared.share⟩
    intro item hitem
    have := hshared.shared item.demand
      (List.mem_append_right _ (List.mem_map.mpr ⟨item, hitem, rfl⟩))
    rwa [ItemDraft.demand, isShared_demandOf] at this

/-- A batch that fits by itself leaves a card within capacity. -/
theorem Booked.fits {db db' : Db} {req : BatchRequest} {groupId : String} {now : Time}
    (hb : Booked db req groupId now db') (hinv : CapacityInvariant db)
    (hfit : BatchFits db req.items) {gpu : Gpu} (hgpu : gpu ∈ db.gpus) (t : Time) :
    Fits gpu.capacity (demandAt db'.reservations.rows gpu.id t) := by
  rw [hb.demandAt_eq]
  -- how many items of the batch are on the card at this instant
  match hitems : itemsAt req.items gpu.id t with
  | [] => simpa using hinv gpu hgpu t
  | [item] =>
      have hat : item ∈ itemsAt req.items gpu.id t := by rw [hitems]; exact List.mem_singleton_self _
      obtain ⟨hmem, hid, -, -⟩ := mem_itemsAt.mp hat
      obtain ⟨window, hsub, hadm⟩ := hb.admits hgpu hat
      exact (fits_cons_of_admits hadm hsub (hinv gpu hgpu t) (hfit.alone item hmem gpu hgpu hid)
        (hb.share_le hmem)).perm (List.perm_append_singleton _ _).symm
  | item :: item' :: rest =>
      have hlen : 2 ≤ (itemsAt req.items gpu.id t).length := by rw [hitems]; simp
      obtain ⟨hshared, hmemory, hshare⟩ := hfit.together gpu hgpu t hlen
      rw [hitems] at hmemory hshare
      refine Or.inr ⟨?_, by simpa using hmemory, by simpa using hshare⟩
      have hat : item ∈ itemsAt req.items gpu.id t := by rw [hitems]; exact List.mem_cons_self
      obtain ⟨window, hsub, hadm⟩ := hb.admits hgpu hat
      intro d hd
      rcases List.mem_append.mp hd with hd | hd
      · exact hadm.isShared_of_shared (by
          rw [ItemDraft.demand, isShared_demandOf]; exact hshared item hat) d (hsub.subset hd)
      · obtain ⟨other, hother, rfl⟩ := List.mem_map.mp hd
        rw [ItemDraft.demand, isShared_demandOf]
        exact hshared other (hitems ▸ hother)

/-- **Capacity under a batch booking**: from a table within capacity, a
successful booking leaves one within capacity exactly when the batch fits by
itself.  The conflict check covers the rows of the table only, and no row of
an empty window, so nothing smaller will do. -/
theorem createReservationBatch_capacity_iff {db db' : Db} {req : BatchRequest} {groupId : String}
    {now : Time} {created : List Reservation}
    (h : createReservationBatch db req groupId now = .ok (db', created))
    (hinv : CapacityInvariant db) : CapacityInvariant db' ↔ BatchFits db req.items := by
  obtain ⟨hb, -⟩ := createReservationBatch_ok h
  unfold CapacityInvariant
  rw [hb.gpus]
  constructor
  · intro hpost
    exact hb.batchFits hpost
  · intro hfit gpu hgpu t
    exact hb.fits hinv hfit hgpu t

/-- One hour on the card of the small lab, for itself. -/
def exclusiveHour : ItemDraft :=
  { serverId := 1, gpuId := some 11, startAt := .ofStored 0, endAt := .ofStored 3600000000
    accountLinkId := 31 }

/-- `n` exclusive hours in one batch. -/
def exclusiveHours (n : Nat) : BatchRequest :=
  { items := List.replicate n exclusiveHour, userId := 41 }

theorem capacityInvariant_smallLab_empty : CapacityInvariant (smallLab .empty) :=
  fun _ _ _ => fits_nil _

/-- A table is within capacity if all of its rows may hold a card at once. -/
theorem capacityInvariant_of_fits {db : Db}
    (h : ∀ gpu ∈ db.gpus, Fits gpu.capacity (db.reservations.rows.map Reservation.demand)) :
    CapacityInvariant db :=
  fun gpu hgpu _ => (h gpu hgpu).sublist (List.filter_sublist.map _)

/-- Two hours on that card, with a third of its memory. -/
def sharedHours : Reservation :=
  { id := 3, userId := 41, serverId := 1, gpuId := some 11, accountLinkId := 31, groupId := none
    startAt := 0, endAt := 2 * hourMicros, status := .scheduled, gpuMemoryMb := some 8192
    gpuComputeSharePct := some 30, script := none, scriptScheduledStartAt := none
    scriptMaxRuntimeSeconds := none }

/-- The first `n` hours, with a third of its memory. -/
def thirdOfCard (n : Int) : ItemDraft :=
  { exclusiveHour with
    endAt := .ofStored (n * hourMicros), gpuMemoryMb := some 8192, gpuComputeSharePct := some 30 }

/-- Two items that meet each other and the row of the table are booked, and the equivalence applies
to them. -/
theorem createReservationBatch_capacity_iff_shared :
    ∃ db' created, createReservationBatch (smallLab (.single sharedHours))
        { items := [thirdOfCard 1, thirdOfCard 3], userId := 41 } "g" 0 = .ok (db', created) ∧
      (CapacityInvariant db' ↔
        BatchFits (smallLab (.single sharedHours)) [thirdOfCard 1, thirdOfCard 3]) := by
  have hbook : createReservationBatch (smallLab (.single sharedHours))
      { items := [thirdOfCard 1, thirdOfCard 3], userId := 41 } "g" 0 = .ok (_, _) := rfl
  refine ⟨_, _, hbook, createReservationBatch_capacity_iff hbook ?_⟩
  refine capacityInvariant_of_fits fun gpu hgpu => .inr ⟨by decide, fun m hm => ?_, by decide +revert⟩
  obtain rfl := List.mem_singleton.mp hgpu
  obtain rfl := Option.some.inj hm
  decide

/-- The same exclusive hour, twice in one batch, is booked twice. -/
theorem createReservationBatch_not_capacity :
    ¬ ∀ (db db' : Db) (req : BatchRequest) (groupId : String) (now : Time)
        (created : List Reservation), CapacityInvariant db →
        createReservationBatch db req groupId now = .ok (db', created) → CapacityInvariant db' := by
  intro h
  have hpost := h (smallLab .empty) _ (exclusiveHours 2) "g" 0 _ capacityInvariant_smallLab_empty rfl
  have hfits := hpost ⟨11, 1, 0, some 24576⟩ (List.mem_singleton_self _) 0
  have htwo := hfits.eq_singleton (by decide)
  revert htwo
  decide

end CoreLab
