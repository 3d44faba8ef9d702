import CoreLab.Operations
import CoreLab.ReservationRows

/-!
# CoreLab.ActivatedScripts

`script_status` over whole runs of the backend, with two history variables: the
reservations that have been active, and those that a tick has found active with a due
trigger.  A started frame may name any reservation; the handler looks at the script
status of its row and not at its status.

* `moved_step` — what a step does to the reservations, column by column;
* `inv_step` — what one step keeps;
* `activated_run` — the runs in which scripts belong to activated reservations, move
  along the allowed edges, and are dispatched by the first tick that finds them due.
-/

namespace CoreLab

open Relational Loops Transition

namespace ActivatedScripts

open AgentWs (Backend Frame)
open Operations (Operation settle)
open ReservationRows (DispatchedBy dispatchedBy_of_active)

/-! ## where rows come from -/

/-- What a step does to a row that it keeps. -/
inductive Progress (b : Backend) (op : Operation) (r r' : Reservation) : Prop where
  | same (eq : r' = r)
  | edited (before : r.status = .scheduled) (after : r'.status = .scheduled)
      (script : r'.scriptStatus = r.scriptStatus)
  | cancelled (after : r'.status = .cancelled) (script : r'.scriptStatus = r.scriptStatus)
  | ticked (now : Time) (s : TickSession) (isTick : op = .tick now)
      (commits : tickBody b.db now = .ok s) (eq : r' = tickRow b.db now r)
  | output (booking : SameBooking r r') (script : r'.scriptStatus = r.scriptStatus)
  | started (serverId : Nat) (p : ScriptStartedEvent) (isFrame : op = .frame serverId (.scriptStarted p))
      (named : findReservation b.db p.reservationId = some r) (booking : SameBooking r r')
      (live : r.scriptStatus = none ∨ r.scriptStatus = some .running)
      (running : r'.scriptStatus = some .running)
  | finished (booking : SameBooking r r') (running : r.scriptStatus = some .running)
      (new : ScriptStatus) (ended : new ≠ .running) (script : r'.scriptStatus = some new)

/-- The reservations after a step: the rows that were there, and new ones that are scheduled
and not fired. -/
structure Moved (b : Backend) (op : Operation) (db' : Db) : Prop where
  kept : b.db.reservations.Extends (Progress b op) db'.reservations
  booked : ∀ r' ∈ db'.reservations, b.db.reservations.get? r'.id = none →
    r'.status = .scheduled ∧ r'.scriptStatus = none

section Moved

variable {b : Backend} {op : Operation} {db' : Db}

theorem progress_refl (r : Reservation) : Progress b op r r := .same rfl

theorem moved_of_same (h : db'.reservations = b.db.reservations) : Moved b op db' where
  kept := h ▸ Table.extends_refl progress_refl _
  booked r' hr' hnone := by
    rw [h] at hr'
    rw [Db.get?_id hr'] at hnone
    cases hnone

/-- Every row is rewritten. -/
theorem moved_of_map {f : Reservation → Reservation}
    (hrows : db'.reservations.rows = b.db.reservations.rows.map f) (hid : ∀ r, (f r).id = r.id)
    (h : ∀ r ∈ b.db.reservations, Progress b op r (f r)) : Moved b op db' where
  kept k r hr := by
    refine ⟨f r, ?_, h r (Table.mem_of_get? hr)⟩
    rw [Table.get?_of_rows_eq_map hrows hid, hr, Option.map_some]
  booked r' hr' hnone := by
    rw [Table.mem_def, hrows] at hr'
    obtain ⟨r, hr, rfl⟩ := List.mem_map.mp hr'
    rw [hid, Db.get?_id hr] at hnone
    cases hnone

/-- One row is rewritten. -/
theorem moved_of_put {row row' : Reservation} (hmem : row ∈ b.db.reservations) (hid : row'.id = row.id)
    (h : Progress b op row row') (hdb : db'.reservations = b.db.reservations.put row') :
    Moved b op db' := by
  have hrows : db'.reservations.rows =
      b.db.reservations.rows.map fun r => if r.id = row'.id then row' else r := by
    rw [hdb]
    exact Table.rows_put _ _
  refine moved_of_map hrows (fun r => ?_) fun r hr => ?_
  · split
    · next heq => exact heq.symm
    · rfl
  · split
    · next heq =>
        obtain rfl : r = row := Table.eq_of_key_eq hr hmem (heq.trans hid)
        exact h
    · exact progress_refl r

theorem moved_settle {ε : Type} {result : Except ε Db} (h : ∀ db', result = .ok db' → Moved b op db') :
    Moved b op (settle b.db result) := by
  cases result with
  | ok db' => exact h db' rfl
  | error e => exact moved_of_same rfl

/-- Links and accounts leave the reservations alone. -/
theorem moved_access (h : Operations.AccessEffect b.db op db') : Moved b op db' := by
  refine moved_of_same ?_
  cases h <;> rfl

theorem moved_frame {serverId : Nat} {f : Frame} {b' : Backend} (h : Operations.FrameEffect b f b') :
    Moved b (.frame serverId f) b'.db := by
  cases h with
  | quiet => exact moved_of_same rfl
  | telemetry => exact moved_of_same rfl
  | scanned => exact moved_of_same rfl
  | audited => exact moved_of_same rfl
  | outputChunk p =>
      obtain heq | ⟨row, row', hrow, -, booking, hstatus, -, heq⟩ := onScriptOutputChunk_cases b.db p
      · exact moved_of_same (congrArg Db.reservations heq)
      · exact moved_of_put (Table.mem_of_get? (findReservation_eq_some hrow).2) booking.id
          (.output booking hstatus) (congrArg Db.reservations heq)
  | started p db' h =>
      cases h with
      | unknown _ eq | stale _ _ _ eq => exact moved_of_same (congrArg Db.reservations eq)
      | recorded row row' entries hrow live booking running _ _ _ _ eq =>
          exact moved_of_put (Table.mem_of_get? (findReservation_eq_some hrow).2) booking.id
            (.started serverId p rfl hrow booking live running) (congrArg Db.reservations eq)
  | finished p db' kills' h =>
      cases h with
      | unknown _ eq | stale _ _ _ eq => exact moved_of_same (congrArg Db.reservations eq)
      | ended row row' entries hrow running booking status _ _ eq =>
          exact moved_of_put (Table.mem_of_get? (findReservation_eq_some hrow).2) booking.id
            (.finished booking running p.newStatus (newStatus_ne_running p) status)
            (congrArg Db.reservations eq)

theorem moved_book {req : BatchRequest} {groupId : String} {now : Time} {created : List Reservation}
    (h : createReservationBatch b.db req groupId now = .ok (db', created)) : Moved b op db' := by
  have hrows := (createReservationBatch_ok h).1.reservations
  refine ⟨fun k r hr => ⟨r, Table.get?_eq_some_iff.mpr ⟨?_, Table.key_of_get? hr⟩, progress_refl r⟩,
    fun r' hr' hnone => ?_⟩
  · rw [Table.mem_def, hrows]
    exact List.mem_append_left _ (Table.mem_of_get? hr)
  · rw [Table.mem_def, hrows] at hr'
    cases List.mem_append.mp hr' with
    | inl hold =>
        rw [Db.get?_id hold] at hnone
        cases hnone
    | inr hnew =>
        obtain ⟨item, idx, id, -, rfl⟩ := mem_createdRows hnew
        exact ⟨rfl, rfl⟩

theorem moved_patch (req : ModifyRequest) (actorUserId : Nat) (now : Time) :
    Moved b op (patchReservation b.db req actorUserId now).1 := by
  cases patchReservation_cases b.db req actorUserId now with
  | same hsame => exact moved_of_same (congrArg Db.reservations hsame)
  | refused row a hedit hput | accepted row a hedit hput =>
      have hscheduled := status_of_checkEditable hedit.editable
      refine moved_of_put (Table.mem_of_get? hedit.stored) ?_ ?_ (congrArg Db.reservations hput)
      · rfl
      · exact .edited hscheduled hscheduled rfl

theorem moved_cancelGroup {groupId : String} {actorUserId : Nat} {actorCanAdmin : Bool}
    {reason : Option String} {now : Time}
    (h : cancelGroup b.db groupId actorUserId actorCanAdmin reason now = .ok db') : Moved b op db' := by
  obtain ⟨first, -, -, -, rfl⟩ := cancelGroup_eq h
  refine moved_of_map rfl (groupRow_id groupId actorUserId reason now) fun r _ => ?_
  unfold groupRow
  split
  · exact .cancelled rfl rfl
  · exact progress_refl r

theorem moved_tick {now : Time} {s : TickSession} (hs : tickBody b.db now = .ok s) :
    Moved b (.tick now) s.db :=
  moved_of_map (tickBody_ok hs).rows (tickRow_id b.db now) fun _ _ => .ticked now s rfl hs rfl

/-- **What a step does to the reservations**, column by column. -/
theorem moved_step {b' : Backend} (h : Operations.step b op = some b') : Moved b op b'.db := by
  cases op with
  | frame serverId f =>
      obtain rfl := Option.some.inj h
      exact moved_frame (Operations.frameEffect_receive b serverId f)
  | book req groupId now =>
      obtain rfl := Option.some.inj h
      refine moved_settle fun db' hdb => ?_
      obtain ⟨⟨db, created⟩, hbook, rfl⟩ := map_eq_ok_iff.mp hdb
      exact moved_book hbook
  | patch req actorUserId now =>
      obtain rfl := Option.some.inj h
      exact moved_patch req actorUserId now
  | cancel id actorUserId actorCanAdmin reason now =>
      obtain rfl := Option.some.inj h
      refine moved_settle fun db' hdb => ?_
      obtain ⟨r, hr, -, rfl⟩ := cancelReservation_ok hdb
      refine moved_of_put (Table.mem_of_get? hr) ?_ ?_ rfl
      · rfl
      · exact .cancelled rfl rfl
  | cancelGroup groupId actorUserId actorCanAdmin reason now =>
      obtain rfl := Option.some.inj h
      exact moved_settle fun db' hdb => moved_cancelGroup hdb
  | tick now =>
      obtain rfl := Option.some.inj h
      refine moved_settle fun db' hdb => ?_
      obtain ⟨s, hs, rfl⟩ := map_eq_ok_iff.mp hdb
      exact moved_tick hs
  | dispatchFailed d =>
      obtain rfl := Option.some.inj h
      exact moved_of_same rfl
  | establishViaPam userId paId serverId | establishViaSshChallenge userId paId serverId
  | adminDeclareLink paId ownerUserId declaredByUserId serverId =>
      obtain rfl := Option.some.inj h
      exact moved_access
        (Operations.accessEffect_settle fun db' hdb => Operations.accessEffect_insertLink hdb)
  | upgradeLink userId paId serverId now =>
      obtain rfl := Option.some.inj h
      exact moved_access
        (Operations.accessEffect_settle fun db' hdb => Operations.accessEffect_upgrade hdb)
  | revokeLink linkId labId actorUserId reason now =>
      obtain rfl := Option.some.inj h
      exact moved_access
        (Operations.accessEffect_settle fun db' hdb => Operations.accessEffect_revokeLink hdb)
  | createAccount serverId linuxUsername actorUserId labId =>
      obtain rfl := Option.some.inj h
      exact moved_access
        (Operations.accessEffect_settle fun db' hdb => Operations.accessEffect_createAccount hdb)
  | deleteAccount paId actorUserId labId =>
      obtain rfl := Option.some.inj h
      exact moved_access
        (Operations.accessEffect_settle fun db' hdb => Operations.accessEffect_deleteAccount hdb)

/-- A row after a step is new, or comes from the row that had its key. -/
theorem Moved.source {r' : Reservation} (h : Moved b op db') (hr' : r' ∈ db'.reservations) :
    (b.db.reservations.get? r'.id = none ∧ r'.status = .scheduled ∧ r'.scriptStatus = none) ∨
      ∃ r ∈ b.db.reservations, r.id = r'.id ∧ Progress b op r r' := by
  cases hget : b.db.reservations.get? r'.id with
  | none => exact .inl ⟨rfl, h.booked r' hr' hget⟩
  | some r =>
      obtain ⟨s, hs, hprogress⟩ := h.kept _ r hget
      obtain rfl : r' = s := by
        rw [Db.get?_id hr'] at hs
        exact Option.some.inj hs
      exact .inr ⟨r, Table.mem_of_get? hget, Table.key_of_get? hget, hprogress⟩

end Moved

/-! ## rows in a tick -/

section Tick

variable {db : Db} {now : Time} {r : Reservation}

/-- The tick finds the row active, with a script whose trigger is due. -/
def activeAndDue (db : Db) (now : Time) (r : Reservation) : Bool :=
  (rowAtDispatch db now r).status = .active && r.script.isSome &&
    r.scriptScheduledStartAt.any fun t => decide (t ≤ now)

theorem activeAndDue_of_firstDispatch (h : firstDispatch db now r = true) :
    activeAndDue db now r = true := by
  simp only [firstDispatch, dueToDispatch, Bool.and_eq_true, rowAtDispatch_script,
    rowAtDispatch_scriptScheduledStartAt, decide_eq_true_eq] at h
  simp [activeAndDue, h.1.1.1.1.1, h.1.1.1.1.2, h.1.1.1.2]

/-- Nothing after the dispatch makes a row active. -/
theorem status_rowAtDispatch_of_tickRow (h : (tickRow db now r).status = .active) :
    (rowAtDispatch db now r).status = .active := by
  cases tickCase db now r with
  | dispatched _ row _ | retried _ row _ | healed _ row _ | idle row _ => simpa [row] using h
  | gaveUp _ row _ => simp [row, failedRow] at h

/-- A tick activates scheduled rows only. -/
theorem live_of_rowAtDispatch (h : (rowAtDispatch db now r).status = .active) :
    r.status = .scheduled ∨ r.status = .active := by
  cases hocc : r.occupies with
  | false =>
      rw [rowAtDispatch_of_not_occupies hocc] at h
      exact .inr h
  | true =>
      revert hocc
      unfold Reservation.occupies
      cases r.status <;> simp [ReservationStatus.occupies]

theorem scheduled_of_rowAtDispatch (h : (rowAtDispatch db now r).status = .scheduled) :
    r.status = .scheduled := by
  by_contra hne
  have hpromote : rowAfter (promoteEffect db now) r = r := by
    simp [rowAfter, promoteEffect, dueToStart_of_status hne]
  rw [rowAtDispatch, hpromote, rowAfter, closeEffect] at h
  split at h
  · have hclosed := not_occupies_closedRow r
    simp only [Option.elim_some] at h
    simp [Reservation.occupies, h, ReservationStatus.occupies] at hclosed
  · exact hne h

/-- No tick takes a row back to scheduled. -/
theorem scheduled_of_tickRow (h : (tickRow db now r).status = .scheduled) : r.status = .scheduled := by
  have hrow : (rowAtDispatch db now r).status = .scheduled := by
    cases tickCase db now r with
    | dispatched _ row _ | retried _ row _ | healed _ row _ | idle row _ => simpa [row] using h
    | gaveUp _ row _ => simp [row, failedRow] at h
  exact scheduled_of_rowAtDispatch hrow

/-- A script that starts to run in a tick was found active and due. -/
theorem fired_of_tickRow (hnone : r.scriptStatus = none) (h : (tickRow db now r).scriptStatus ≠ none) :
    activeAndDue db now r = true ∧ (tickRow db now r).status = .active := by
  cases tickCase db now r with
  | dispatched hfirst row _ =>
      have hdue := activeAndDue_of_firstDispatch hfirst
      refine ⟨hdue, ?_⟩
      simp only [activeAndDue, Bool.and_eq_true, decide_eq_true_eq] at hdue
      rw [row]
      exact hdue.1.1
  | retried _ row _ | healed _ row _ | idle row _ => simp [row, hnone] at h
  | gaveUp _ row _ => simp [row, failedRow, hnone] at h

end Tick

/-! ## runs with their history -/

/-- The backend, the reservations that have been active, and those that a tick has found
active with a due trigger. -/
structure World where
  backend : Backend
  activated : List Nat
  due : List Nat

namespace World

/-- The reservations of a world. -/
abbrev rows (w : World) : Table Reservation := w.backend.db.reservations

end World

def activeIds (db : Db) : List Nat :=
  (db.reservations.rows.filter fun r => r.status = .active).map (·.id)

/-- The rows that a tick finds active and due, if it commits. -/
def dueIds (db : Db) : Operation → List Nat
  | .tick now =>
    if (tickBody db now).isOk then (db.reservations.rows.filter (activeAndDue db now)).map (·.id) else []
  | _ => []

/-- One step of the backend, recorded. -/
def step (w : World) (op : Operation) : Option World :=
  (Operations.step w.backend op).map fun b =>
    ⟨b, w.activated ++ activeIds b.db, w.due ++ dueIds w.backend.db op⟩

/-- The history begins. -/
def start (b : Backend) : World := ⟨b, activeIds b.db, []⟩

/-- No script has fired yet. -/
def Unfired (b : Backend) : Prop := ∀ r ∈ b.db.reservations, r.scriptStatus = none

instance (b : Backend) : Decidable (Unfired b) :=
  inferInstanceAs (Decidable (∀ r ∈ b.db.reservations.rows, r.scriptStatus = none))

/-- What is promised of a step: script statuses move along the allowed edges, from "not fired"
on; they are set only on reservations that have been active; and the first tick that finds a
reservation active with a due trigger dispatches it. -/
structure Lawful (w : World) (op : Operation) (w' : World) : Prop where
  edges : ∀ k r r', w.rows.get? k = some r → w'.rows.get? k = some r' →
    r'.scriptStatus = r.scriptStatus ∨
      ∃ new, ScriptStatus.allowed r.scriptStatus new = true ∧ r'.scriptStatus = some new
  created : ∀ k r', w.rows.get? k = none → w'.rows.get? k = some r' → r'.scriptStatus = none
  activated : ∀ r ∈ w'.rows, r.scriptStatus ≠ none → r.id ∈ w'.activated
  dispatched : ∀ now, op = .tick now → Referenced w.backend.db → ∀ r ∈ w.rows, r.id ∉ w.due →
    activeAndDue w.backend.db now r = true → DispatchedBy w.backend.db now r

/-- The row waits for its trigger. -/
def waits (r : Reservation) : Bool :=
  r.status = .active && r.script.isSome && r.scriptScheduledStartAt.isSome

def startedFrame : Operation → Option ScriptStartedEvent
  | .frame _ (.scriptStarted p) => some p
  | _ => none

/-- A started frame for a script that was not dispatched names a reservation that has been
active, and waits for no trigger. -/
def StartsActivated (w : World) (op : Operation) : Prop :=
  ∀ p ∈ startedFrame op, ∀ r ∈ findReservation w.backend.db p.reservationId,
    r.scriptStatus = none → r.id ∈ w.activated ∧ waits r = false

instance (w : World) (op : Operation) : Decidable (StartsActivated w op) :=
  inferInstanceAs (Decidable (∀ p ∈ startedFrame op, ∀ r ∈ findReservation w.backend.db p.reservationId, _))

/-! ## the invariant -/

structure Inv (w : World) : Prop where
  scheduled : ∀ r ∈ w.rows, r.status = .scheduled → r.id ∉ w.activated
  known : ∀ id ∈ w.activated, (w.rows.get? id).isSome = true
  fired : ∀ r ∈ w.rows, r.scriptStatus ≠ none → r.id ∈ w.activated
  waiting : ∀ r ∈ w.rows, waits r = true → r.scriptStatus ≠ none → r.id ∈ w.due

section Inv

variable {w w' : World} {op : Operation} {r r' : Reservation} {b : Backend}

theorem mem_activeIds {db : Db} (hr : r ∈ db.reservations) :
    r.id ∈ activeIds db ↔ r.status = .active := by
  constructor
  · intro h
    obtain ⟨q, hq, hid⟩ := List.mem_map.mp h
    obtain ⟨hmem, hactive⟩ := List.mem_filter.mp hq
    obtain rfl : q = r := Table.eq_of_key_eq hmem hr hid
    simpa using hactive
  · intro h
    exact List.mem_map.mpr ⟨r, List.mem_filter.mpr ⟨hr, by simpa using h⟩, rfl⟩

theorem isSome_of_mem_activeIds {db : Db} {id : Nat} (h : id ∈ activeIds db) :
    (db.reservations.get? id).isSome = true := by
  obtain ⟨q, hq, rfl⟩ := List.mem_map.mp h
  rw [Db.get?_id (List.mem_filter.mp hq).1]
  rfl

theorem inv_start (h : Unfired b) : Inv (start b) where
  scheduled r hr hs hmem := by
    rw [show r.id ∈ (start b).activated ↔ r.status = .active from mem_activeIds hr, hs] at hmem
    cases hmem
  known _ hid := isSome_of_mem_activeIds hid
  fired r hr hfired := absurd (h r hr) hfired
  waiting r hr _ hfired := absurd (h r hr) hfired

/-- Every change of a script status is an allowed one. -/
theorem edge_of_progress (h : Progress b op r r') : r'.scriptStatus = r.scriptStatus ∨
    ∃ new, ScriptStatus.allowed r.scriptStatus new = true ∧ r'.scriptStatus = some new := by
  cases h with
  | same eq => exact .inl (by rw [eq])
  | edited _ _ script | cancelled _ script | output _ script => exact .inl script
  | ticked now s _ _ eq =>
      obtain hsame | ⟨hnone, hrunning⟩ := tickRow_scriptStatus b.db now r
      · exact .inl (by rw [eq, hsame])
      · exact .inr ⟨.running, by rw [hnone]; rfl, by rw [eq, hrunning]⟩
  | started _ _ _ _ _ live running =>
      obtain hnone | hsome := live
      · exact .inr ⟨.running, by rw [hnone]; rfl, running⟩
      · exact .inl (running.trans hsome.symm)
  | finished _ running new ended script =>
      refine .inr ⟨new, ?_, script⟩
      rw [running]
      cases new <;> first | rfl | exact absurd rfl ended

theorem scheduled_of_progress (h : Progress b op r r') (hs : r'.status = .scheduled) :
    r.status = .scheduled := by
  cases h with
  | same eq => exact eq ▸ hs
  | edited before _ _ => exact before
  | cancelled after _ => simp [after] at hs
  | ticked now s _ _ eq => exact scheduled_of_tickRow (eq ▸ hs)
  | output booking _ | started _ _ _ _ booking _ _ | finished booking _ _ _ _ =>
      exact booking.status ▸ hs

/-- A script status was set before, or on a row that is active now, or by a started frame. -/
theorem fired_of_progress (h : Progress b op r r') (hfired : r'.scriptStatus ≠ none) :
    r.scriptStatus ≠ none ∨ r'.status = .active ∨ ∃ serverId p,
      op = .frame serverId (.scriptStarted p) ∧ findReservation b.db p.reservationId = some r := by
  by_cases hnone : r.scriptStatus = none
  · right
    cases h with
    | same eq => simp [eq, hnone] at hfired
    | edited _ _ script | cancelled _ script | output _ script => simp [script, hnone] at hfired
    | ticked now s _ _ eq =>
        rw [eq] at hfired ⊢
        exact .inl (fired_of_tickRow hnone hfired).2
    | started serverId p isFrame named _ _ _ => exact .inr ⟨serverId, p, isFrame, named⟩
    | finished _ running _ _ _ => simp [running] at hnone
  · exact .inl hnone

theorem waits_of_booking (h : SameBooking r r') : waits r' = waits r := by
  simp [waits, h.status, h.script, h.scriptScheduledStartAt]

/-- A tick leaves the script and its trigger alone. -/
theorem waits_of_tickRow {db : Db} {now : Time} (hactive : r.status = .active)
    (h : waits (tickRow db now r) = true) : waits r = true := by
  obtain ⟨status, reason, scriptStatus, marker, heq⟩ := tickRow_eq db now r
  rw [heq] at h
  simp only [waits, Bool.and_eq_true] at h
  simp [waits, hactive, h.1.2, h.2]

/-- A fired row that waits did so before, or was just found due; or it was scheduled with a
status already, or a started frame named it while it waited. -/
theorem waits_of_progress (h : Progress b op r r') (hwaits : waits r' = true)
    (hfired : r'.scriptStatus ≠ none) :
    (waits r = true ∧ r.scriptStatus ≠ none) ∨
      (∃ now s, op = .tick now ∧ tickBody b.db now = .ok s ∧ activeAndDue b.db now r = true) ∨
        (r.status = .scheduled ∧ r.scriptStatus ≠ none) ∨
          ∃ serverId p, op = .frame serverId (.scriptStarted p) ∧
            findReservation b.db p.reservationId = some r ∧ r.scriptStatus = none ∧ waits r = true := by
  cases h with
  | same eq => exact .inl ⟨eq ▸ hwaits, eq ▸ hfired⟩
  | edited _ after _ => simp [waits, after] at hwaits
  | cancelled after _ => simp [waits, after] at hwaits
  | output booking script => exact .inl ⟨waits_of_booking booking ▸ hwaits, script ▸ hfired⟩
  | ticked now s isTick commits eq =>
      rw [eq] at hwaits hfired
      by_cases hnone : r.scriptStatus = none
      · exact .inr (.inl ⟨now, s, isTick, commits, (fired_of_tickRow hnone hfired).1⟩)
      · have hactive : (tickRow b.db now r).status = .active := by
          simp only [waits, Bool.and_eq_true, decide_eq_true_eq] at hwaits
          exact hwaits.1.1
        obtain hs | hr := live_of_rowAtDispatch (status_rowAtDispatch_of_tickRow hactive)
        · exact .inr (.inr (.inl ⟨hs, hnone⟩))
        · exact .inl ⟨waits_of_tickRow hr hwaits, hnone⟩
  | started serverId p isFrame named booking live _ =>
      have hwaits' := waits_of_booking booking ▸ hwaits
      obtain hnone | hrunning := live
      · exact .inr (.inr (.inr ⟨serverId, p, isFrame, named, hnone, hwaits'⟩))
      · exact .inl ⟨hwaits', by simp [hrunning]⟩
  | finished booking running _ _ _ => exact .inl ⟨waits_of_booking booking ▸ hwaits, by simp [running]⟩

/-- **One step** keeps the invariant, if a started frame names an activated reservation. -/
theorem inv_step (h : Inv w) (hok : StartsActivated w op) (hstep : step w op = some w') : Inv w' := by
  obtain ⟨b, hb, rfl⟩ := Option.map_eq_some_iff.mp hstep
  have hmoved := moved_step hb
  refine ⟨fun r' hr' hs hmem => ?_, fun id hid => ?_, fun r' hr' hfired => ?_,
    fun r' hr' hwaits hfired => ?_⟩
  · cases List.mem_append.mp hmem with
    | inr hactive =>
        rw [mem_activeIds hr', hs] at hactive
        cases hactive
    | inl hold =>
        obtain ⟨hnone, -⟩ | ⟨r, hr, hid, hprogress⟩ := hmoved.source hr'
        · have hknown := h.known _ hold
          rw [World.rows, hnone] at hknown
          cases hknown
        · exact h.scheduled r hr (scheduled_of_progress hprogress hs) (hid ▸ hold)
  · cases List.mem_append.mp hid with
    | inr hactive => exact isSome_of_mem_activeIds hactive
    | inl hold =>
        obtain ⟨r, hr⟩ := Option.isSome_iff_exists.mp (h.known _ hold)
        obtain ⟨r', hr', -⟩ := hmoved.kept _ r hr
        exact Option.isSome_iff_exists.mpr ⟨r', hr'⟩
  · obtain ⟨-, -, hnone⟩ | ⟨r, hr, hid, hprogress⟩ := hmoved.source hr'
    · exact absurd hnone hfired
    · refine List.mem_append.mpr ?_
      obtain hbefore | hactive | ⟨serverId, p, rfl, hnamed⟩ := fired_of_progress hprogress hfired
      · exact .inl (hid ▸ h.fired r hr hbefore)
      · exact .inr ((mem_activeIds hr').mpr hactive)
      · by_cases hnone : r.scriptStatus = none
        · exact .inl (hid ▸ (hok p rfl r hnamed hnone).1)
        · exact .inl (hid ▸ h.fired r hr hnone)
  · obtain ⟨-, -, hnone⟩ | ⟨r, hr, hid, hprogress⟩ := hmoved.source hr'
    · exact absurd hnone hfired
    · refine List.mem_append.mpr ?_
      obtain ⟨hbefore, hfired⟩ | ⟨now, s, rfl, hs, hdue⟩ | ⟨hs, hfired⟩ |
          ⟨serverId, p, rfl, hnamed, hnone, hwait⟩ := waits_of_progress hprogress hwaits hfired
      · exact .inl (hid ▸ h.waiting r hr hbefore hfired)
      · right
        rw [dueIds, hs, ← hid]
        exact List.mem_map.mpr ⟨r, List.mem_filter.mpr ⟨hr, hdue⟩, rfl⟩
      · exact absurd (h.fired r hr hfired) (h.scheduled r hr hs)
      · have hfalse := (hok p rfl r hnamed hnone).2
        simp [hwait] at hfalse

/-- The script of a row that no tick has found due has not fired when one does. -/
theorem unfired_of_activeAndDue (h : Inv w) {now : Time} (hr : r ∈ w.rows) (hfirst : r.id ∉ w.due)
    (hdue : activeAndDue w.backend.db now r = true) : r.scriptStatus = none := by
  by_contra hfired
  simp only [activeAndDue, Bool.and_eq_true, decide_eq_true_eq] at hdue
  obtain ⟨⟨hactive, hscript⟩, htrigger⟩ := hdue
  obtain hs | hactive := live_of_rowAtDispatch hactive
  · exact h.scheduled r hr hs (h.fired r hr hfired)
  · obtain ⟨t, ht, -⟩ := (Option.any_eq_true _ _).mp htrigger
    exact hfirst (h.waiting r hr (by simp [waits, hactive, hscript, ht]) hfired)

theorem lawful_step (h : Inv w) (hok : StartsActivated w op) (hstep : step w op = some w') :
    Lawful w op w' := by
  have hinv := inv_step h hok hstep
  obtain ⟨b, hb, rfl⟩ := Option.map_eq_some_iff.mp hstep
  have hmoved := moved_step hb
  refine ⟨fun k r r' hr hr' => ?_, fun k r' hnone hr' => ?_, hinv.fired,
    fun now _ href r hr hfirst hdue => ?_⟩
  · obtain ⟨s, hs, hprogress⟩ := hmoved.kept k r hr
    obtain rfl : r' = s := Option.some.inj (hr'.symm.trans hs)
    exact edge_of_progress hprogress
  · obtain rfl : r'.id = k := Table.key_of_get? hr'
    exact (hmoved.booked r' (Table.mem_of_get? hr') hnone).2
  · have hunfired := unfired_of_activeAndDue h hr hfirst hdue
    simp only [activeAndDue, Bool.and_eq_true, decide_eq_true_eq] at hdue
    obtain ⟨⟨hactive, hscript⟩, htrigger⟩ := hdue
    obtain ⟨t, ht, hle⟩ := (Option.any_eq_true _ _).mp htrigger
    exact dispatchedBy_of_active hr hactive hunfired hscript ht (by simpa using hle)
      (href.server r hr) (href.account r hr)

end Inv

/-- **Scripts of activated reservations**: in every run whose started frames name activated
reservations, script statuses move along the allowed edges and are set only on reservations
that have been active, and the first tick that finds a reservation active with a due trigger
dispatches it. -/
theorem activated_run {b : Backend} {ops : List Operation} (hb : Unfired b)
    (hok : Meets step StartsActivated (start b) ops) : Along step Lawful (start b) ops :=
  along_of_invariant (fun _ _ _ h ho hs => ⟨inv_step h ho hs, lawful_step h ho hs⟩) (inv_start hb) hok

/-! ## a frame that comes too early -/

/-- The agent reports the start of reservation 1. -/
def startOfOne : Operation := .frame 1 (.scriptStarted ⟨1, .ofStored 0, none⟩)

/-- The two booked hours, dispatched by the tick at their start and then reported. -/
theorem activated_run_reported :
    Along step Lawful (start ⟨smallLab (.single TimeZones.bookedHours), []⟩) [.tick 0, startOfOne] :=
  activated_run (by decide) (by decide +kernel)

/-- The same report before the tick: the reservation has a running script and was never active,
and the tick that activates it does not dispatch it. -/
theorem not_activated :
    ¬ (∀ (b : Backend) (ops : List Operation), Unfired b → Along step Lawful (start b) ops) ∧
      ∃ w r s, step (start ⟨smallLab (.single TimeZones.bookedHours), []⟩) startOfOne = some w ∧
        r ∈ w.rows ∧ r.id ∉ w.due ∧ activeAndDue w.backend.db 0 r = true ∧
          tickBody w.backend.db 0 = .ok s ∧ s.pending = [] := by
  constructor
  · intro h
    have halong := h ⟨smallLab (.single TimeZones.bookedHours), []⟩ [startOfOne] (by decide)
    have hlawful := (halong _ rfl).1
    have hactivated := hlawful.activated _ (.head _) (by decide +kernel)
    revert hactivated
    decide +kernel
  · exact ⟨_, _, _, rfl, .head _, by decide +kernel, by decide +kernel, rfl, by decide +kernel⟩

end ActivatedScripts

end CoreLab
