import CoreLab.Capacity
import CoreLab.Lib.Transition
import CoreLab.Modify
import CoreLab.Scheduler

/-!
# CoreLab.CapacityKept

The capacity of a card after the booking: edits that move a window, cancels,
and the moves of the scheduler.

* `fits_moved` — a row that is admitted against the others of its new window
  fits at every instant of it;
* `keepsCapacity_step` — every accepted operation keeps the invariant;
* `capacityInvariant_run` — and so does every sequence of them.
-/

namespace CoreLab

open Relational Loops Occupancy

/-! ## rows that hold no more than before -/

/-- The later row asks for what the earlier one asked for, or for nothing. -/
structure HoldsNoMore (r r' : Reservation) : Prop where
  id : r'.id = r.id
  gpuId : r'.gpuId = r.gpuId
  startAt : r'.startAt = r.startAt
  endAt : r'.endAt = r.endAt
  gpuMemoryMb : r'.gpuMemoryMb = r.gpuMemoryMb
  gpuComputeSharePct : r'.gpuComputeSharePct = r.gpuComputeSharePct
  occupies : r'.occupies = true → r.occupies = true
  checks : r.checks = true → r'.checks = true

theorem HoldsNoMore.refl (r : Reservation) : HoldsNoMore r r :=
  ⟨rfl, rfl, rfl, rfl, rfl, rfl, fun h => h, fun h => h⟩

theorem holdsNoMore_cancelledRow (r : Reservation) (actorUserId : Nat) (reason : Option String)
    (now : Time) : HoldsNoMore r (cancelledRow r actorUserId reason now) :=
  ⟨rfl, rfl, rfl, rfl, rfl, rfl, fun h => (nomatch h), fun h => h⟩

theorem holdsNoMore_groupRow (groupId : String) (actorUserId : Nat) (reason : Option String)
    (now : Time) (r : Reservation) : HoldsNoMore r (groupRow groupId actorUserId reason now r) := by
  unfold groupRow
  split
  · exact holdsNoMore_cancelledRow r actorUserId reason now
  · exact .refl r

/-- A move of the status leaves a row to hold no more, if the row held its
window before. -/
theorem holdsNoMore_status {r : Reservation} (h : r.occupies = true) (status : ReservationStatus)
    (reason : Option String) :
    HoldsNoMore r { r with status := status, cancellationReason := reason } :=
  ⟨rfl, rfl, rfl, rfl, rfl, rfl, fun _ => h, fun h => h⟩

theorem holdsNoMore_tickRow (db : Db) (now : Time) (r : Reservation) :
    HoldsNoMore r (tickRow db now r) := by
  have hocc : (tickRow db now r).occupies = true → r.occupies = true := by
    intro h
    by_contra hnot
    rw [tickRow_not_occupies (Bool.eq_false_iff.mpr hnot)] at h
    cases h
  obtain ⟨_, _, _, _, hrow⟩ := tickRow_eq db now r
  rw [hrow] at hocc ⊢
  exact ⟨rfl, rfl, rfl, rfl, rfl, rfl, hocc, fun h => h⟩

/-- The rows present at an instant, after each row was left to hold no more. -/
theorem demandAt_map_sublist {f : Reservation → Reservation} {rows : List Reservation}
    (hf : ∀ r ∈ rows, HoldsNoMore r (f r)) (gpuId : Nat) (t : Time) :
    (demandAt (rows.map f) gpuId t).Sublist (demandAt rows gpuId t) := by
  induction rows with
  | nil => exact List.Sublist.refl _
  | cons r rows ih =>
      have hrest := ih fun s hs => hf s (List.mem_cons_of_mem r hs)
      have hr := hf r List.mem_cons_self
      have hdemand : (f r).demand = r.demand := by
        rw [Reservation.demand, Reservation.demand, hr.gpuMemoryMb, hr.gpuComputeSharePct]
      rw [List.map_cons]
      unfold demandAt presentAt at hrest ⊢
      rw [List.filter_cons, List.filter_cons]
      split
      · next hpresent =>
          -- a row that holds the card now held it before
          have hbefore : (r.gpuId = some gpuId && r.occupies &&
              decide (Covers Reservation.startAt Reservation.endAt t r)) = true := by
            simp only [Bool.and_eq_true, decide_eq_true_eq, hr.gpuId] at hpresent ⊢
            obtain ⟨⟨hcard, hocc⟩, hstart, hend⟩ := hpresent
            exact ⟨⟨hcard, hr.occupies hocc⟩, hr.startAt ▸ hstart, hr.endAt ▸ hend⟩
          rw [if_pos hbefore, List.map_cons, List.map_cons, hdemand]
          exact hrest.cons_cons _
      · split
        · exact hrest.cons _
        · exact hrest

/-- The invariant survives where no row holds more than before. -/
theorem capacityInvariant_of_map {db db' : Db} {f : Reservation → Reservation}
    (hrows : db'.reservations.rows = db.reservations.rows.map f) (hgpus : db'.gpus = db.gpus)
    (hf : ∀ r ∈ db.reservations, HoldsNoMore r (f r)) (hinv : CapacityInvariant db) :
    CapacityInvariant db' := by
  intro gpu hgpu t
  rw [hgpus] at hgpu
  rw [hrows]
  exact (hinv gpu hgpu t).sublist (demandAt_map_sublist hf gpu.id t)

/-- The invariant survives a write that leaves a row to hold no more. -/
theorem capacityInvariant_write {db : Db} {row row' : Reservation} {entries : List AuditEntry}
    (hrow : row ∈ db.reservations) (hless : HoldsNoMore row row') (hinv : CapacityInvariant db) :
    CapacityInvariant (db.write row' entries) := by
  refine capacityInvariant_of_map (Table.rows_put db.reservations row') rfl ?_ hinv
  intro r hr
  split
  · next hkey =>
      obtain rfl : r = row := Table.eq_of_key_eq hr hrow (hkey.trans hless.id)
      exact hless
  · exact .refl r

/-! ## a row in a new window -/

/-- The other rows of a window. -/
def othersInWindow (db : Db) (row : Reservation) (gpuId : Nat) (startAt endAt : Time) :
    List Reservation :=
  (windowActiveReservations db gpuId startAt endAt).filter fun r => r.id ≠ row.id

/-- Compute beyond the card is refused by the store. -/
theorem share_le_of_checks {r : Reservation} (h : r.checks = true) : r.demand.share ≤ 100 := by
  unfold Reservation.demand demandOf
  split
  · exact Nat.zero_le _
  · cases hp : r.gpuComputeSharePct with
    | none => exact Nat.zero_le _
    | some pct => exact (share_of_checks h hp).2

/-- A row of a table within capacity asks for no more memory than its card has:
it is on the card at the first instant of its window. -/
theorem memory_le_of_capacity {db : Db} (hinv : CapacityInvariant db) {row : Reservation}
    (hrow : row ∈ db.reservations) (hocc : row.occupies = true) (hwindow : row.startAt < row.endAt)
    {gpu : Gpu} (hgpu : gpu ∈ db.gpus) (hid : row.gpuId = some gpu.id) :
    WithinLimit gpu.capacity.memory row.demand.memory := by
  have hpresent : row ∈ presentAt db.reservations.rows gpu.id row.startAt := by
    rw [presentAt, List.mem_filter]
    exact ⟨hrow, by simp [hid, hocc, Covers, hwindow]⟩
  exact (hinv gpu hgpu row.startAt).memory_le (List.mem_map.mpr ⟨row, hpresent, rfl⟩)

/-- Whoever else is on the card at an instant of a window touches the window. -/
theorem demandAt_others_sublist (db : Db) (row : Reservation) {gpuId : Nat} {startAt endAt t : Time}
    (hs : startAt ≤ t) (he : t < endAt) :
    (demandAt (db.reservations.rows.filter fun s => s.id != row.id) gpuId t).Sublist
      ((othersInWindow db row gpuId startAt endAt).map Reservation.demand) := by
  have hothers : presentAt (db.reservations.rows.filter fun s => s.id != row.id) gpuId t =
      (presentAt db.reservations.rows gpuId t).filter fun s => s.id ≠ row.id := by
    rw [presentAt, presentAt, List.filter_filter, List.filter_filter]
    apply List.filter_congr
    intro s _
    rw [Bool.and_comm, bne, decide_not]
    rfl
  rw [demandAt, hothers]
  exact ((presentAt_sublist db hs he).filter _).map _

/-- **Moving a row is safe**: admitted against every other row that touches the
new window, it fits beside those present at any instant of it, whatever the
sums over the whole window. -/
theorem fits_moved {db : Db} (hinv : CapacityInvariant db) {row edited : Reservation}
    (hrow : row ∈ db.reservations) (hcheck : row.checks = true) (hocc : row.occupies = true)
    {gpu : Gpu} (hgpu : gpu ∈ db.gpus) {t : Time} (hid : edited.id = row.id)
    (hdemand : edited.demand = row.demand) (hgpuId : edited.gpuId = row.gpuId)
    (hadmits : row.gpuId = some gpu.id → edited.startAt ≤ t → t < edited.endAt →
      Admits gpu.capacity
        ((othersInWindow db row gpu.id edited.startAt edited.endAt).map Reservation.demand)
        row.demand) :
    Fits gpu.capacity (demandAt (db.reservations.put edited).rows gpu.id t) := by
  have hperm : (db.reservations.put edited).rows.Perm
      (edited :: db.reservations.rows.filter fun s => s.id != row.id) := Table.perm_put hrow hid
  have hothers : Fits gpu.capacity
      (demandAt (db.reservations.rows.filter fun s => s.id != row.id) gpu.id t) := by
    refine (hinv gpu hgpu t).sublist ?_
    exact (List.filter_sublist.filter _).map _
  refine Fits.perm ?_ ((hperm.filter _).map _).symm
  rw [List.filter_cons]
  split
  · next hpresent =>
      simp only [Bool.and_eq_true, decide_eq_true_eq, hgpuId] at hpresent
      obtain ⟨⟨hcard, -⟩, hstart, hend⟩ := hpresent
      rw [List.map_cons, hdemand]
      exact fits_cons_of_admits (hadmits hcard hstart hend)
        (demandAt_others_sublist db row hstart hend) hothers
        (memory_le_of_capacity hinv hrow hocc (window_of_checks hcheck) hgpu hcard)
        (share_le_of_checks hcheck)
  · exact hothers

/-! ## accepted edits -/

/-- What the window check of an edit establishes for a row on a card. -/
theorem checkWindow_admits {db : Db} {row : Reservation} {req : ModifyRequest} {a : Attrs}
    {now : Time} (h : checkWindow db row req a now = .ok ())
    (hnew : (req.startAt.isNone && req.endAt.isNone) = false) {gpu : Gpu} (hgpu : gpu ∈ db.gpus)
    (hcard : row.gpuId = some gpu.id) :
    Admits gpu.capacity
      ((othersInWindow db row gpu.id a.startAt.stored a.endAt.stored).map Reservation.demand)
      row.demand := by
  rw [checkWindow, hnew] at h
  simp only [Bool.false_eq_true, if_false, hcard, bind_eq_ok_iff] at h
  obtain ⟨-, -, h⟩ := h
  have hget : db.gpus.get? gpu.id = some gpu := Table.get?_key hgpu
  rw [hget] at h
  dsimp only at h
  split at h
  · next hnone => exact admits_of_classifyConflict hnone
  · cases h

theorem occupies_of_editable {row : Reservation} {req : ModifyRequest} {actorUserId : Nat}
    (h : checkEditable row req actorUserId = .ok ()) : row.occupies = true := by
  simp only [checkEditable, check_bind_eq_ok_iff, raiseIf_eq_ok_iff, decide_eq_false_iff_not,
    not_not] at h
  rw [Reservation.occupies, h.1]
  rfl

/-- An accepted edit keeps the invariant: of a moved row by the check of its
new window, of any other because it holds what it held. -/
theorem capacityInvariant_modify {db db' : Db} {req : ModifyRequest} {actorUserId : Nat} {now : Time}
    (h : (modifyReservation db req actorUserId now).result = .ok db') (hinv : CapacityInvariant db)
    (hchecks : ∀ r ∈ db.reservations, r.checks = true) : CapacityInvariant db' := by
  obtain ⟨row, edited, hacc, rfl⟩ := modifyReservation_ok h
  obtain ⟨a, rfl, hstart, hend⟩ := hacc.flushed
  have hrow : row ∈ db.reservations := Table.mem_of_get? hacc.stored
  have hocc := occupies_of_editable hacc.editable
  cases hnew : req.startAt.isNone && req.endAt.isNone with
  | true =>
      rw [Bool.and_eq_true, Option.isNone_iff_eq_none, Option.isNone_iff_eq_none] at hnew
      have hwindow : a.startAt.stored = row.startAt ∧ a.endAt.stored = row.endAt := by
        rw [hstart, hend]
        simp only [assignWindow, hnew.1, hnew.2, Option.getD_none]
        exact ⟨rfl, rfl⟩
      exact capacityInvariant_write hrow
        ⟨rfl, rfl, hwindow.1, hwindow.2, rfl, rfl, fun _ => hocc, fun _ => hacc.checks⟩ hinv
  | false =>
      intro gpu hgpu t
      refine fits_moved hinv hrow (hchecks row hrow) hocc hgpu rfl rfl rfl fun hcard _ _ => ?_
      have hadmits := checkWindow_admits hacc.window hnew hgpu hcard
      rw [← hstart, ← hend] at hadmits
      exact hadmits

/-! ## runs -/

namespace CapacityKept

/-- What happens to booked reservations: accepted edits, cancels, the moves of
the scheduler on one row, and whole ticks. -/
inductive Operation where
  | modify (req : ModifyRequest) (actorUserId : Nat) (now : Time)
  | cancel (reservationId actorUserId : Nat) (actorCanAdmin : Bool) (reason : Option String)
      (now : Time)
  | cancelGroup (groupId : String) (actorUserId : Nat) (actorCanAdmin : Bool)
      (reason : Option String) (now : Time)
  | promote (reservationId : Nat)
  | complete (reservationId : Nat)
  | fail (reservationId : Nat) (reason : String)
  | tick (now : Time)

/-- The reservation under a key, moved by one of the status functions. -/
def onRow (db : Db) (reservationId : Nat) (f : Reservation → Except Failure Db) : Option Db :=
  (db.reservations.get? reservationId).bind fun r => (f r).toOption

/-- One accepted operation; a refused one is not a step. -/
def step (db : Db) : Operation → Option Db
  | .modify req actorUserId now => (modifyReservation db req actorUserId now).result.toOption
  | .cancel id actorUserId actorCanAdmin reason now =>
      (cancelReservation db id actorUserId actorCanAdmin reason now).toOption
  | .cancelGroup groupId actorUserId actorCanAdmin reason now =>
      (CoreLab.cancelGroup db groupId actorUserId actorCanAdmin reason now).toOption
  | .promote id => onRow db id (transitionToActive db)
  | .complete id => onRow db id (transitionToCompleted db)
  | .fail id reason => onRow db id fun r => transitionToFailed db r reason
  | .tick now => ((tickBody db now).map TickSession.db).toOption

/-- What a run keeps: capacity, and the constraints of the store. -/
structure Inv (db : Db) : Prop where
  capacity : CapacityInvariant db
  checks : ∀ r ∈ db.reservations, r.checks = true

section Step

variable {db db' : Db}

theorem inv_of_map {f : Reservation → Reservation} (hinv : Inv db)
    (hrows : db'.reservations.rows = db.reservations.rows.map f) (hgpus : db'.gpus = db.gpus)
    (hf : ∀ r ∈ db.reservations, HoldsNoMore r (f r)) : Inv db' := by
  refine ⟨capacityInvariant_of_map hrows hgpus hf hinv.capacity, fun r' hr' => ?_⟩
  rw [Table.mem_def, hrows] at hr'
  obtain ⟨r, hr, rfl⟩ := List.mem_map.mp hr'
  exact (hf r hr).checks (hinv.checks r hr)

theorem inv_write {row row' : Reservation} {entries : List AuditEntry} (hinv : Inv db)
    (hrow : row ∈ db.reservations) (hless : HoldsNoMore row row') :
    Inv (db.write row' entries) := by
  refine ⟨capacityInvariant_write hrow hless hinv.capacity, fun r hr => ?_⟩
  rcases Table.mem_put hr with rfl | hold
  · exact hless.checks (hinv.checks row hrow)
  · exact hinv.checks r hold

theorem inv_modify {req : ModifyRequest} {actorUserId : Nat} {now : Time} (hinv : Inv db)
    (h : (modifyReservation db req actorUserId now).result = .ok db') : Inv db' := by
  refine ⟨capacityInvariant_modify h hinv.capacity hinv.checks, ?_⟩
  obtain ⟨row, edited, hacc, rfl⟩ := modifyReservation_ok h
  intro r hr
  rcases Table.mem_put hr with rfl | hold
  · exact hacc.checks
  · exact hinv.checks r hold

/-- A status function found its row in a status that occupies the window. -/
theorem occupies_of_allowed {r : Reservation} {target : ReservationStatus}
    (h : assertTransitionAllowed r.status target = .ok ()) : r.occupies = true := by
  rw [assertTransitionAllowed, raiseIf_eq_ok_iff, Bool.not_eq_false'] at h
  revert h
  unfold Reservation.occupies
  cases r.status <;> cases target <;> decide

theorem inv_onRow {reservationId : Nat} {f : Reservation → Except Failure Db} (hinv : Inv db)
    (hf : ∀ r db', f r = .ok db' → r.occupies = true ∧ ∃ status reason entries,
      db' = db.write { r with status := status, cancellationReason := reason } entries)
    (h : onRow db reservationId f = some db') : Inv db' := by
  obtain ⟨r, hr, hmove⟩ := Option.bind_eq_some_iff.mp h
  obtain ⟨hocc, status, reason, entries, rfl⟩ := hf r db' (toOption_eq_some_iff.mp hmove)
  exact inv_write hinv (Table.mem_of_get? hr) (holdsNoMore_status hocc status reason)

/-- **One accepted operation** keeps every card within its capacity. -/
theorem keepsCapacity_step {op : Operation} (hinv : Inv db) (h : step db op = some db') :
    Inv db' := by
  cases op with
  | modify req actorUserId now => exact inv_modify hinv (toOption_eq_some_iff.mp h)
  | cancel id actorUserId actorCanAdmin reason now =>
      obtain ⟨r, hr, -, rfl⟩ := cancelReservation_ok (toOption_eq_some_iff.mp h)
      exact inv_write hinv (Table.mem_of_get? hr) (holdsNoMore_cancelledRow r actorUserId reason now)
  | cancelGroup groupId actorUserId actorCanAdmin reason now =>
      obtain ⟨first, -, -, -, rfl⟩ := cancelGroup_eq (toOption_eq_some_iff.mp h)
      exact inv_of_map hinv rfl rfl fun r _ => holdsNoMore_groupRow groupId actorUserId reason now r
  | promote id =>
      refine inv_onRow hinv (fun r db' hr => ?_) h
      have hmove := transitionToActive_ok hr
      simp only [transitionToActive, check_bind_eq_ok_iff] at hr
      exact ⟨occupies_of_allowed hr.1, .active, r.cancellationReason, _, hmove⟩
  | complete id =>
      refine inv_onRow hinv (fun r db' hr => ?_) h
      have hmove := transitionToCompleted_ok hr
      simp only [transitionToCompleted, check_bind_eq_ok_iff] at hr
      exact ⟨occupies_of_allowed hr.1, .completed, r.cancellationReason, _, hmove⟩
  | fail id reason =>
      refine inv_onRow hinv (fun r db' hr => ?_) h
      have hmove := transitionToFailed_ok hr
      simp only [transitionToFailed, check_bind_eq_ok_iff] at hr
      exact ⟨occupies_of_allowed hr.1, .failed, _, _, hmove⟩
  | tick now =>
      obtain ⟨s, hs, rfl⟩ := map_eq_ok_iff.mp (toOption_eq_some_iff.mp h)
      have hres := tickBody_ok hs
      exact inv_of_map hinv hres.rows hres.context.gpus fun r _ => holdsNoMore_tickRow db now r

end Step

/-- **Capacity outside booking**: any sequence of accepted edits, cancels and
moves of the scheduler leaves a table within capacity, if it was one whose rows
the store admits. -/
theorem capacityInvariant_run {db db' : Db} {ops : List Operation}
    (hinv : CapacityInvariant db) (hchecks : ∀ r ∈ db.reservations, r.checks = true)
    (h : Transition.exec step db ops = some db') : CapacityInvariant db' :=
  (Transition.exec_invariant (fun _ _ _ hI _ ht => keepsCapacity_step hI ht)
    ⟨hinv, hchecks⟩ (Transition.meets_true db ops) h : Inv db').capacity

/-- Two rows that share the card for an hour. -/
def sharedCard : Db :=
  smallLab ⟨[sharedHours, { sharedHours with id := 4, startAt := hourMicros
                                             endAt := 3 * hourMicros }], by decide⟩

/-- Move the second row onto the window of the first, start both, and cancel the second. -/
def moveStartCancel : List Operation :=
  [.modify { reservationId := 4, startAt := some (.ofStored 0)
             endAt := some (.ofStored (2 * hourMicros)) } 41 0,
    .tick hourMicros, .cancel 4 41 false none hourMicros]

theorem capacityInvariant_run_moved :
    ∃ db', Transition.exec step sharedCard moveStartCancel = some db' ∧ CapacityInvariant db' := by
  have hrun : Transition.exec step sharedCard moveStartCancel = some _ := rfl
  refine ⟨_, hrun, capacityInvariant_run ?_ (by decide) hrun⟩
  refine capacityInvariant_of_fits fun gpu hgpu => .inr ⟨by decide, fun m hm => ?_, by decide +revert⟩
  obtain rfl := List.mem_singleton.mp hgpu
  obtain rfl := Option.some.inj hm
  decide

end CapacityKept

end CoreLab
