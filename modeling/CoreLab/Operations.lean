import CoreLab.AccountService
import CoreLab.AgentWs
import CoreLab.Modify
import CoreLab.Scheduler

/-!
# CoreLab.Operations

The backend as one state machine over its database: every operation that
writes a reservation, an account link or a physical account, in any order.  A
refused operation leaves the database as it is, but for an edit that is stored
although it was refused (`CoreLab.Modify`).

* `rowOrigin_step` — where a reservation row of the later database comes from;
* `contextKept_step` — servers stay, and so do the owners of cards, links and
  accounts.
-/

namespace CoreLab

open Relational Loops

namespace Operations

open AgentWs (Backend Frame)

/-! ## operations -/

/-- One operation, with the arguments of its request. -/
inductive Operation where
  | book (req : BatchRequest) (groupId : String) (now : Time)
  | patch (req : ModifyRequest) (actorUserId : Nat) (now : Time)
  | cancel (reservationId actorUserId : Nat) (actorCanAdmin : Bool) (reason : Option String) (now : Time)
  | cancelGroup (groupId : String) (actorUserId : Nat) (actorCanAdmin : Bool)
      (reason : Option String) (now : Time)
  | establishViaPam (userId physicalAccountId serverId : Nat)
  | establishViaSshChallenge (userId physicalAccountId serverId : Nat)
  | adminDeclareLink (physicalAccountId ownerUserId declaredByUserId serverId : Nat)
  | upgradeLink (userId physicalAccountId serverId : Nat) (now : Time)
  | revokeLink (linkId labId actorUserId : Nat) (reason : RevokeReason) (now : Time)
  | createAccount (serverId : Nat) (linuxUsername : String) (actorUserId labId : Nat)
  | deleteAccount (paId actorUserId labId : Nat)
  | tick (now : Time)
  | dispatchFailed (d : Dispatch)
  | frame (serverId : Nat) (f : Frame)

/-- The committed database; a raised error rolls the session back. -/
def settle {ε : Type} (db : Db) : Except ε Db → Db
  | .ok db' => db'
  | .error _ => db

/-- `_record_dispatch_attempt_failed`. -/
def recordDispatchFailed (db : Db) (d : Dispatch) : Db :=
  db.audit
    { action := .scriptDispatchAttemptFailed, actorUserId := none, targetType := .reservation
      targetId := some d.reservationId, targetServerId := some d.serverId }

/-- The database after an operation other than a frame. -/
def run (db : Db) : Operation → Db
  | .book req groupId now => settle db ((createReservationBatch db req groupId now).map Prod.fst)
  | .patch req actorUserId now => (patchReservation db req actorUserId now).1
  | .cancel id actorUserId actorCanAdmin reason now =>
      settle db (cancelReservation db id actorUserId actorCanAdmin reason now)
  | .cancelGroup groupId actorUserId actorCanAdmin reason now =>
      settle db (CoreLab.cancelGroup db groupId actorUserId actorCanAdmin reason now)
  | .establishViaPam userId paId serverId => settle db (CoreLab.establishViaPam db userId paId serverId)
  | .establishViaSshChallenge userId paId serverId =>
      settle db (CoreLab.establishViaSshChallenge db userId paId serverId)
  | .adminDeclareLink paId ownerUserId declaredByUserId serverId =>
      settle db (CoreLab.adminDeclareLink db paId ownerUserId declaredByUserId serverId)
  | .upgradeLink userId paId serverId now =>
      settle db (upgradeAdminDeclaredToSsh db userId paId serverId now)
  | .revokeLink linkId labId actorUserId reason now =>
      settle db (CoreLab.revokeLink db linkId labId actorUserId reason now)
  | .createAccount serverId linuxUsername actorUserId labId =>
      settle db (CoreLab.createAccount db serverId linuxUsername actorUserId labId)
  | .deleteAccount paId actorUserId labId =>
      settle db (CoreLab.deleteAccount db paId actorUserId labId)
  | .tick now => settle db ((tickBody db now).map TickSession.db)
  | .dispatchFailed d => recordDispatchFailed db d
  | .frame _ _ => db

/-- One step; every operation is possible at any time. -/
def step (b : Backend) : Operation → Option Backend
  | .frame serverId f => some (AgentWs.receive ⟨serverId, b, true⟩ f).backend
  | op => some { b with db := run b.db op }

/-! ## scripts that may still be sent -/

/-- A tick may still send the row's script: it has not fired and is complete, or
its dispatch is neither acknowledged nor given up. -/
def canSend (db : Db) (r : Reservation) : Bool :=
  r.occupies && match r.scriptStatus with
    | none => r.script.isSome && r.scriptScheduledStartAt.isSome
    | some .running => r.scriptDispatchStartedAt.isSome && !lifecycleStartedSeen db r.id &&
        decide (countDispatchFailures db r.id < watchdogMaxDispatchAttempts)
    | some _ => false

/-- The later database remembers every start and every failed dispatch. -/
structure Remembers (db db' : Db) : Prop where
  started : ∀ id, lifecycleStartedSeen db id = true → lifecycleStartedSeen db' id = true
  failures : ∀ id, countDispatchFailures db id ≤ countDispatchFailures db' id

theorem Remembers.refl (db : Db) : Remembers db db := ⟨fun _ h => h, fun _ => Nat.le_refl _⟩

theorem remembers_of_append {db db' : Db} {entries : List AuditEntry}
    (h : db'.auditLog = db.auditLog ++ entries) : Remembers db db' := by
  refine ⟨fun _ hs => lifecycleStartedSeen_mono h hs, fun id => ?_⟩
  rw [countDispatchFailures, countDispatchFailures, h, countAudit_append]
  exact Nat.le_add_right _ _

theorem remembers_of_sameContext {db db' : Db} (h : SameContext db db') : Remembers db db' :=
  ⟨fun id hs => (h.started id).trans hs, fun id => (h.failures id).ge⟩

/-- A row that differs in nothing `canSend` reads. -/
theorem canSend_of_same {db db' : Db} {r r' : Reservation} (hrem : Remembers db db')
    (hid : r'.id = r.id) (hocc : r'.occupies = true → r.occupies = true)
    (hstatus : r'.scriptStatus = r.scriptStatus) (hscript : r'.script = r.script)
    (htrigger : r'.scriptScheduledStartAt = r.scriptScheduledStartAt)
    (hmarker : r'.scriptDispatchStartedAt = r.scriptDispatchStartedAt)
    (h : canSend db' r' = true) : canSend db r = true := by
  unfold canSend at h ⊢
  rw [hstatus, hscript, htrigger, hmarker, hid, Bool.and_eq_true] at h
  rw [Bool.and_eq_true]
  refine ⟨hocc h.1, ?_⟩
  revert h
  rintro ⟨-, h⟩
  split at h
  · exact h
  · simp only [Bool.and_eq_true, Bool.not_eq_true', decide_eq_true_eq] at h ⊢
    obtain ⟨⟨hm, hseen⟩, hfew⟩ := h
    refine ⟨⟨hm, ?_⟩, Nat.lt_of_le_of_lt (hrem.failures r.id) hfew⟩
    by_contra hbefore
    rw [hrem.started r.id (Bool.not_eq_false _ ▸ hbefore)] at hseen
    cases hseen
  · cases h

theorem occupies_of_canSend {db : Db} {r : Reservation} (h : canSend db r = true) :
    r.occupies = true := by
  unfold canSend at h
  exact (Bool.and_eq_true _ _ ▸ h).1

/-! ### ticks -/

section Tick

variable {db db' : Db} {now : Time} {r : Reservation}

theorem occupies_of_rowAtDispatch (h : (rowAtDispatch db now r).occupies = true) :
    r.occupies = true := by
  by_contra hnot
  rw [rowAtDispatch_of_not_occupies (Bool.eq_false_iff.mpr hnot)] at h
  exact hnot h

theorem occupies_of_active (h : r.status = .active) : r.occupies = true := by
  rw [Reservation.occupies, h]
  rfl

theorem canSend_of_firstDispatch (h : firstDispatch db now r = true) : canSend db r = true := by
  simp only [firstDispatch, dueToDispatch, Bool.and_eq_true, decide_eq_true_eq,
    rowAtDispatch_script, rowAtDispatch_scriptScheduledStartAt, rowAtDispatch_scriptStatus,
    Option.isNone_iff_eq_none] at h
  obtain ⟨⟨⟨⟨⟨hactive, hscript⟩, htrigger⟩, hfresh⟩, -⟩, -⟩ := h
  have hocc : r.occupies = true := occupies_of_rowAtDispatch (occupies_of_active hactive)
  have hset : r.scriptScheduledStartAt.isSome = true := by
    cases ht : r.scriptScheduledStartAt with
    | none => rw [ht] at htrigger; cases htrigger
    | some t => rfl
  simp [canSend, hocc, hfresh, hscript, hset]

theorem canSend_of_retries (h : retries db now r = true) : canSend db r = true := by
  obtain ⟨hrunning, hseen⟩ := unacknowledged_running (retries_unacknowledged h)
  simp only [retries, unacknowledged, stuck, Bool.and_eq_true, decide_eq_true_eq,
    rowAtDispatch_scriptDispatchStartedAt] at h
  obtain ⟨⟨⟨⟨⟨⟨hactive, -⟩, hmarker⟩, -⟩, -⟩, hfew⟩, -⟩ := h
  have hocc : r.occupies = true := occupies_of_rowAtDispatch (occupies_of_active hactive)
  have hset : r.scriptDispatchStartedAt.isSome = true := by
    cases ht : r.scriptDispatchStartedAt with
    | none => rw [ht] at hmarker; cases hmarker
    | some t => rfl
  simp [canSend, hocc, hrunning, hseen, hfew, hset]

/-- **A tick sends only what could be sent.** -/
theorem canSend_of_mem_tickQueue {d : Dispatch} (h : d ∈ tickQueue db now r) :
    canSend db r = true := by
  rcases (mem_tickQueue h).2 with hfirst | hretry
  · exact canSend_of_firstDispatch hfirst
  · exact canSend_of_retries hretry

/-- A tick makes no further script sendable. -/
theorem canSend_of_tickRow (hrem : Remembers db db') (h : canSend db' (tickRow db now r) = true) :
    canSend db r = true := by
  have hocc : (tickRow db now r).occupies = true := occupies_of_canSend h
  cases tickCase db now r with
  | dispatched hfirst _ _ => exact canSend_of_firstDispatch hfirst
  | retried hretry _ _ => exact canSend_of_retries hretry
  | gaveUp _ row _ =>
      rw [row] at hocc
      cases hocc
  | healed _ row _ =>
      rw [row] at h hocc
      cases hstatus : r.scriptStatus with
      | none =>
          have hparts := h
          simp only [canSend, rowAtDispatch_scriptStatus, hstatus, rowAtDispatch_script,
            rowAtDispatch_scriptScheduledStartAt, Bool.and_eq_true] at hparts
          simp [canSend, hstatus, hparts.2.1, hparts.2.2, occupies_of_rowAtDispatch hocc]
      | some status =>
          -- without its marker the watchdog does not look at it again
          simp only [canSend, rowAtDispatch_scriptStatus, hstatus, Bool.and_eq_true] at h
          cases status <;> simp at h
  | idle row _ =>
      rw [row] at h
      exact canSend_of_same hrem (rowAtDispatch_id db now r) occupies_of_rowAtDispatch
        (rowAtDispatch_scriptStatus db now r) (rowAtDispatch_script db now r)
        (rowAtDispatch_scriptScheduledStartAt db now r)
        (rowAtDispatch_scriptDispatchStartedAt db now r) h

end Tick

/-! ## where a row comes from -/

/-- The two rows are of one booking. -/
structure Carried (r r' : Reservation) : Prop where
  id : r'.id = r.id
  userId : r'.userId = r.userId
  serverId : r'.serverId = r.serverId
  gpuId : r'.gpuId = r.gpuId
  accountLinkId : r'.accountLinkId = r.accountLinkId

/-- The later row has the window of the earlier one, and is no more sendable. -/
structure Kept (db db' : Db) (r r' : Reservation) : Prop extends Carried r r' where
  startAt : r'.startAt = r.startAt
  endAt : r'.endAt = r.endAt
  send : canSend db' r' = true → canSend db r = true

/-- Where a row of the later database comes from. -/
inductive RowOrigin (db db' : Db) (r' : Reservation) : Operation → Prop where
  | kept {op : Operation} (r : Reservation) (mem : r ∈ db.reservations) (kept : Kept db db' r r') :
      RowOrigin db db' r' op
  | booked {req : BatchRequest} {groupId : String} {now : Time} (created : List Reservation)
      (accepted : createReservationBatch db req groupId now = .ok (db', created))
      (mem : r' ∈ created) : RowOrigin db db' r' (.book req groupId now)
  | patched {req : ModifyRequest} {actorUserId : Nat} {now : Time} (row : Reservation) (a : Attrs)
      (edit : Patched db req actorUserId now row a) (eq : r' = a.flushed row)
      (remembers : Remembers db db') : RowOrigin db db' r' (.patch req actorUserId now)

section RowOrigin

variable {db db' : Db} {op : Operation}

theorem kept_refl (hrem : Remembers db db') (r : Reservation) : Kept db db' r r :=
  ⟨⟨rfl, rfl, rfl, rfl, rfl⟩, rfl, rfl, canSend_of_same hrem rfl (fun h => h) rfl rfl rfl rfl⟩

/-- An operation that leaves the reservations alone. -/
theorem rowOrigin_of_same (hsame : db'.reservations = db.reservations) (hrem : Remembers db db') :
    ∀ r' ∈ db'.reservations, RowOrigin db db' r' op :=
  fun r' hr' => .kept r' (hsame ▸ hr') (kept_refl hrem r')

theorem rowOrigin_of_eq (h : db' = db) : ∀ r' ∈ db'.reservations, RowOrigin db db' r' op :=
  rowOrigin_of_same (congrArg Db.reservations h) (h ▸ .refl db)

/-- Rewriting one row. -/
theorem rowOrigin_of_write {row row' : Reservation} {entries : List AuditEntry}
    (hrow : row ∈ db.reservations) (hkept : Kept db (db.write row' entries) row row') :
    ∀ r' ∈ (db.write row' entries).reservations, RowOrigin db (db.write row' entries) r' op := by
  intro r' hr'
  rcases Table.mem_put hr' with rfl | hold
  · exact .kept row hrow hkept
  · exact .kept r' hold (kept_refl (remembers_of_append (Db.auditLog_write db row' entries)) r')

theorem carried_of_sameBooking {r r' : Reservation} (h : SameBooking r r') : Carried r r' :=
  ⟨h.id, h.userId, h.serverId, h.gpuId, h.accountLinkId⟩

/-- A row whose script has ended is not sent. -/
theorem not_canSend_of_ended {r : Reservation} {status : ScriptStatus}
    (hstatus : r.scriptStatus = some status) (hended : status ≠ .running) : canSend db r = false := by
  unfold canSend
  rw [hstatus]
  cases status with
  | running => exact absurd rfl hended
  | completed | failed | killed => exact Bool.and_false _

/-- A row whose start is on record is not sent again. -/
theorem not_canSend_of_seen {r : Reservation} (hstatus : r.scriptStatus = some .running)
    (hseen : lifecycleStartedSeen db r.id = true) : canSend db r = false := by
  unfold canSend
  rw [hstatus]
  simp [hseen]

theorem not_canSend_of_not_occupies {r : Reservation} (h : r.occupies = false) :
    canSend db r = false := by
  rw [canSend, h, Bool.false_and]

theorem rowOrigin_started {p : ScriptStartedEvent} (h : StartedCase db p db') :
    ∀ r' ∈ db'.reservations, RowOrigin db db' r' op := by
  cases h with
  | unknown _ eq => exact rowOrigin_of_eq eq
  | stale _ _ _ eq => exact rowOrigin_of_eq eq
  | recorded row row' entries hrow _ booking running _ _ record _ eq =>
      have hmem : row ∈ db.reservations := Table.mem_of_get? (findReservation_eq_some hrow).2
      rw [eq]
      refine rowOrigin_of_write hmem
        ⟨carried_of_sameBooking booking, booking.startAt, booking.endAt, fun hsend => ?_⟩
      have hseen : lifecycleStartedSeen (db.write row' entries) row'.id = true :=
        booking.id ▸ lifecycleStartedSeen_of_record (Db.auditLog_write db row' entries) record
      rw [not_canSend_of_seen running hseen] at hsend
      cases hsend

theorem rowOrigin_outputChunk (p : ScriptOutputChunkEvent) :
    ∀ r' ∈ (onScriptOutputChunk db p).reservations, RowOrigin db (onScriptOutputChunk db p) r' op := by
  rcases onScriptOutputChunk_cases db p with heq | ⟨row, row', hrow, -, booking, hstatus, hmarker, heq⟩
  · rw [heq]
    exact rowOrigin_of_eq rfl
  · have hmem : row ∈ db.reservations := Table.mem_of_get? (findReservation_eq_some hrow).2
    rw [heq]
    refine rowOrigin_of_write hmem
      ⟨carried_of_sameBooking booking, booking.startAt, booking.endAt, ?_⟩
    refine canSend_of_same (remembers_of_append (Db.auditLog_write db row' [])) booking.id ?_ hstatus
      booking.script booking.scriptScheduledStartAt hmarker
    rw [Reservation.occupies, Reservation.occupies, booking.status]
    exact fun h => h

theorem rowOrigin_finished {kills kills' : PendingKills} {p : ScriptFinishedEvent}
    (h : FinishedCase db kills p db' kills') : ∀ r' ∈ db'.reservations, RowOrigin db db' r' op := by
  cases h with
  | unknown _ eq _ => exact rowOrigin_of_eq eq
  | stale _ _ _ eq _ => exact rowOrigin_of_eq eq
  | ended row row' entries hrow _ booking status _ _ eq _ =>
      have hmem : row ∈ db.reservations := Table.mem_of_get? (findReservation_eq_some hrow).2
      rw [eq]
      refine rowOrigin_of_write hmem
        ⟨carried_of_sameBooking booking, booking.startAt, booking.endAt, fun hsend => ?_⟩
      rw [not_canSend_of_ended status (newStatus_ne_running p)] at hsend
      cases hsend

theorem rowOrigin_tick {now : Time} {s : TickSession} (h : TickResult db now s) :
    ∀ r' ∈ s.db.reservations, RowOrigin db s.db r' op := by
  intro r' hr'
  rw [Table.mem_def, h.rows] at hr'
  obtain ⟨r, hr, rfl⟩ := List.mem_map.mp hr'
  obtain ⟨status, reason, scriptStatus, marker, heq⟩ := tickRow_eq db now r
  refine .kept r hr ⟨?_, ?_, ?_, canSend_of_tickRow (remembers_of_sameContext h.context)⟩
  · rw [heq]
    constructor <;> rfl
  · rw [heq]
  · rw [heq]

theorem rowOrigin_cancel {id actorUserId : Nat} {actorCanAdmin : Bool} {reason : Option String}
    {now : Time} (h : cancelReservation db id actorUserId actorCanAdmin reason now = .ok db') :
    ∀ r' ∈ db'.reservations, RowOrigin db db' r' op := by
  obtain ⟨r, hr, -, rfl⟩ := cancelReservation_ok h
  refine rowOrigin_of_write (Table.mem_of_get? hr) ⟨⟨rfl, rfl, rfl, rfl, rfl⟩, rfl, rfl, fun hsend => ?_⟩
  rw [not_canSend_of_not_occupies rfl] at hsend
  cases hsend

theorem rowOrigin_cancelGroup {groupId : String} {actorUserId : Nat} {actorCanAdmin : Bool}
    {reason : Option String} {now : Time}
    (h : cancelGroup db groupId actorUserId actorCanAdmin reason now = .ok db') :
    ∀ r' ∈ db'.reservations, RowOrigin db db' r' op := by
  intro r' hr'
  have hcancelled := cancelGroup_ok h
  obtain ⟨e, haudit⟩ := hcancelled.auditLog
  obtain ⟨r, hr, heq | heq⟩ := hcancelled.rows r' hr'
  · rw [heq]
    exact .kept r hr (kept_refl (remembers_of_append haudit) r)
  · rw [heq]
    refine .kept r hr ⟨⟨rfl, rfl, rfl, rfl, rfl⟩, rfl, rfl, fun hsend => ?_⟩
    rw [not_canSend_of_not_occupies rfl] at hsend
    cases hsend

theorem rowOrigin_book {req : BatchRequest} {groupId : String} {now : Time} {created : List Reservation}
    (h : createReservationBatch db req groupId now = .ok (db', created)) :
    ∀ r' ∈ db'.reservations, RowOrigin db db' r' (.book req groupId now) := by
  intro r' hr'
  obtain ⟨hbooked, hcreated⟩ := createReservationBatch_ok h
  rw [Table.mem_def, hbooked.reservations] at hr'
  rcases List.mem_append.mp hr' with hold | hnew
  · exact .kept r' hold (kept_refl (remembers_of_append hbooked.auditLog) r')
  · exact .booked created h (hcreated ▸ hnew)

/-- The rows after an edited one was put back. -/
theorem rowOrigin_put {db' : Db} {req : ModifyRequest} {actorUserId : Nat} {now : Time}
    {row r' : Reservation} {a : Attrs} (hedit : Patched db req actorUserId now row a)
    (hrem : Remembers db db') (hmem : r' ∈ db.reservations.put (a.flushed row)) :
    RowOrigin db db' r' (.patch req actorUserId now) := by
  rcases Table.mem_put hmem with heq | hold
  · exact .patched row a hedit heq hrem
  · exact .kept r' hold (kept_refl hrem r')

theorem rowOrigin_patch {req : ModifyRequest} {actorUserId : Nat} {now : Time} :
    ∀ r' ∈ (patchReservation db req actorUserId now).1.reservations,
      RowOrigin db (patchReservation db req actorUserId now).1 r' (.patch req actorUserId now) := by
  intro r' hr'
  cases patchReservation_cases db req actorUserId now with
  | same hsame =>
      rw [hsame] at hr' ⊢
      exact .kept r' hr' (kept_refl (.refl db) r')
  | refused row a hedit hput =>
      have hrem : Remembers db (patchReservation db req actorUserId now).1 := by
        rw [hput]
        exact remembers_of_append (List.append_nil _).symm
      have hmem : r' ∈ db.reservations.put (a.flushed row) := by
        rw [hput] at hr'
        exact hr'
      exact rowOrigin_put hedit hrem hmem
  | accepted row a hedit hput =>
      have hrem : Remembers db (patchReservation db req actorUserId now).1 := by
        rw [hput]
        exact remembers_of_append rfl
      have hmem : r' ∈ db.reservations.put (a.flushed row) := by
        rw [hput] at hr'
        exact hr'
      exact rowOrigin_put hedit hrem hmem

end RowOrigin

/-! ## writers of links and accounts -/

/-- What an operation on links or accounts does to the database: nothing, or one
change and its audit row. -/
inductive AccessEffect (db : Db) : Operation → Db → Prop where
  | refused (op : Operation) : AccessEffect db op db
  | linkInserted (op : Operation) (b : Table.Insertion AccountLink) (e : AuditEntry) :
      AccessEffect db op ({ db with accountLinks := db.accountLinks.append b }.audit e)
  | linkUpgraded (op : Operation) (old : AccountLink) (b : Table.Insertion AccountLink) (now : Time)
      (actorUserId : Nat) (e : AuditEntry) (stored : db.accountLinks.get? old.id = some old)
      (declared : old.source = .adminDeclared) :
      AccessEffect db op ({ db with accountLinks :=
        (db.accountLinks.put (old.revoked actorUserId .upgradedToVerified now)).append b }.audit e)
  | linkRevoked {linkId labId actorUserId : Nat} {reason : RevokeReason} {now : Time} (link : AccountLink)
      (e : AuditEntry) (stored : db.accountLinks.get? linkId = some link)
      (accepted : (revokeLink db linkId labId actorUserId reason now).isOk = true) :
      AccessEffect db (.revokeLink linkId labId actorUserId reason now)
        ({ db with accountLinks := db.accountLinks.put (link.revoked actorUserId reason now) }.audit e)
  | accountCreated (op : Operation) (b : Table.Insertion PhysicalAccount) (e : AuditEntry) :
      AccessEffect db op ({ db with physicalAccounts := db.physicalAccounts.append b }.audit e)
  | accountDeleted {paId actorUserId labId : Nat} (pa : PhysicalAccount) (e : AuditEntry)
      (stored : db.physicalAccounts.get? paId = some pa)
      (accepted : (deleteAccount db paId actorUserId labId).isOk = true) :
      AccessEffect db (.deleteAccount paId actorUserId labId)
        ({ db with physicalAccounts := db.physicalAccounts.put { pa with isActive := false } }.audit e)

section AccessEffect

variable {db db' : Db} {op : Operation}

theorem accessEffect_settle {ε : Type} {result : Except ε Db}
    (h : ∀ db', result = .ok db' → AccessEffect db op db') : AccessEffect db op (settle db result) := by
  cases result with
  | ok db' => exact h db' rfl
  | error e => exact .refused op

theorem accessEffect_insertLink {userId paId serverId actorUserId : Nat} {source : LinkSource}
    {action : AuditAction} (h : insertLink db userId paId serverId source action actorUserId = .ok db') :
    AccessEffect db op db' := by
  unfold insertLink at h
  split at h
  · cases h
  · rw [← Except.ok.inj h]
    exact .linkInserted op _ _

theorem accessEffect_upgrade {userId paId serverId : Nat} {now : Time}
    (h : upgradeAdminDeclaredToSsh db userId paId serverId now = .ok db') : AccessEffect db op db' := by
  unfold upgradeAdminDeclaredToSsh at h
  split at h
  · cases h
  · next old hold =>
      dsimp only at h
      split at h
      · cases h
      · next hdeclared =>
          rw [← Except.ok.inj h]
          exact .linkUpgraded op old _ now userId _ (Table.get?_key (List.mem_of_find?_eq_some hold))
            (not_not.mp hdeclared)

theorem accessEffect_revokeLink {linkId labId actorUserId : Nat} {reason : RevokeReason} {now : Time}
    (h : revokeLink db linkId labId actorUserId reason now = .ok db') :
    AccessEffect db (.revokeLink linkId labId actorUserId reason now) db' := by
  have haccepted := h
  rw [revokeLink, bind_eq_ok_iff] at h
  obtain ⟨⟨link, pa⟩, hload, h⟩ := h
  dsimp only at h
  split at h
  · rw [← Except.ok.inj h]
    refine .linkRevoked link _ ?_ (by rw [haccepted]; rfl)
    unfold loadLinkInLab at hload
    split at hload
    · cases hload
    · next l hl =>
        split at hload
        · cases hload
        · split at hload
          · cases hload
          · obtain ⟨rfl, -⟩ := Prod.mk.inj (Except.ok.inj hload)
            exact hl
  · cases h

theorem accessEffect_createAccount {serverId actorUserId labId : Nat} {linuxUsername : String}
    (h : createAccount db serverId linuxUsername actorUserId labId = .ok db') :
    AccessEffect db op db' := by
  unfold createAccount at h
  split at h
  · cases h
  · split at h
    · cases h
    · rw [← Except.ok.inj h]
      exact .accountCreated op _ _

theorem accessEffect_deleteAccount {paId actorUserId labId : Nat}
    (h : deleteAccount db paId actorUserId labId = .ok db') :
    AccessEffect db (.deleteAccount paId actorUserId labId) db' := by
  have haccepted := h
  unfold deleteAccount at h
  split at h
  · cases h
  · next pa hpa =>
      split at h
      · cases h
      · split at h
        · rw [← Except.ok.inj h]
          exact .refused _
        · rw [← Except.ok.inj h]
          exact .accountDeleted pa _ hpa (by rw [haccepted]; rfl)

/-- Operations on links and accounts leave the reservations alone. -/
theorem rowOrigin_access (h : AccessEffect db op db') :
    ∀ r' ∈ db'.reservations, RowOrigin db db' r' op := by
  cases h with
  | refused => exact rowOrigin_of_eq rfl
  | linkInserted | linkUpgraded | linkRevoked | accountCreated | accountDeleted =>
      exact rowOrigin_of_same rfl (remembers_of_append rfl)

end AccessEffect

/-! ## frames -/

/-- What a frame that is handled does to the database. -/
inductive FrameEffect (b : Backend) : Frame → Backend → Prop where
  | quiet (f : Frame) : FrameEffect b f b
  | telemetry (f : Frame) (gpus : Table Gpu)
      (extends' : b.db.gpus.Extends (fun g g' => g'.serverId = g.serverId) gpus) :
      FrameEffect b f { b with db := { b.db with gpus := gpus } }
  | scanned (f : Frame) (accounts : Table PhysicalAccount) (entries : List AuditEntry)
      (extends' : b.db.physicalAccounts.Extends Eq accounts) :
      FrameEffect b f { b with db :=
        { b.db with physicalAccounts := accounts, auditLog := b.db.auditLog ++ entries } }
  | started (p : ScriptStartedEvent) (db' : Db) (h : StartedCase b.db p db') :
      FrameEffect b (.scriptStarted p) { b with db := db' }
  | outputChunk (p : ScriptOutputChunkEvent) :
      FrameEffect b (.scriptOutputChunk p) { b with db := onScriptOutputChunk b.db p }
  | finished (p : ScriptFinishedEvent) (db' : Db) (kills' : PendingKills)
      (h : FinishedCase b.db b.kills p db' kills') : FrameEffect b (.scriptFinished p) ⟨db', kills'⟩
  | audited (f : Frame) (e : AuditEntry) : FrameEffect b f { b with db := b.db.audit e }

theorem frameEffect_receive (b : Backend) (serverId : Nat) (f : Frame) :
    FrameEffect b f (AgentWs.receive ⟨serverId, b, true⟩ f).backend := by
  unfold AgentWs.receive
  split
  · exact .quiet f
  · split
    · next b' hb =>
        cases f with
        | heartbeat | pong =>
            obtain rfl := Except.ok.inj hb
            exact .quiet _
        | gpuTelemetry gpus =>
            obtain ⟨db, hdb, rfl⟩ := map_eq_ok_iff.mp hb
            obtain ⟨gpus, rfl, hextends⟩ := AgentWs.upsertTelemetry_ok hdb
            exact .telemetry _ gpus hextends
        | accountScan names =>
            obtain rfl := Except.ok.inj hb
            obtain ⟨accounts, entries, heq, hextends⟩ := syncDiscovered_eq b.db serverId names
            rw [heq]
            exact .scanned _ accounts entries hextends
        | scriptStarted p =>
            obtain ⟨db, hdb, rfl⟩ := map_eq_ok_iff.mp hb
            exact .started p db (onScriptStarted_ok hdb)
        | scriptOutputChunk p =>
            obtain rfl := Except.ok.inj hb
            exact .outputChunk p
        | scriptFinished p =>
            obtain ⟨⟨db, kills⟩, hdb, rfl⟩ := map_eq_ok_iff.mp hb
            exact .finished p db kills (onScriptFinished_ok hdb)
        | complianceViolation p =>
            obtain ⟨db, hdb, rfl⟩ := map_eq_ok_iff.mp hb
            obtain ⟨e, rfl⟩ := AgentWs.handleViolation_ok hdb
            exact .audited _ e
    · exact .quiet f

theorem rowOrigin_frame {b b' : Backend} {f : Frame} {op : Operation} (h : FrameEffect b f b') :
    ∀ r' ∈ b'.db.reservations, RowOrigin b.db b'.db r' op := by
  cases h with
  | quiet => exact rowOrigin_of_eq rfl
  | telemetry => exact rowOrigin_of_same rfl (remembers_of_append (List.append_nil _).symm)
  | scanned => exact rowOrigin_of_same rfl (remembers_of_append rfl)
  | started p db' h => exact rowOrigin_started h
  | outputChunk p => exact rowOrigin_outputChunk p
  | finished p db' kills' h => exact rowOrigin_finished h
  | audited => exact rowOrigin_of_same rfl (remembers_of_append rfl)

/-! ## one step -/

/-- An operation that rewrites or adds reservations, and nothing else but audit
rows. -/
structure RowsOnly (db db' : Db) (op : Operation) : Prop where
  rows : ∀ r' ∈ db'.reservations, RowOrigin db db' r' op
  servers : db'.servers = db.servers
  gpus : db'.gpus = db.gpus
  accountLinks : db'.accountLinks = db.accountLinks
  physicalAccounts : db'.physicalAccounts = db.physicalAccounts

/-- The part of the database an operation works on. -/
inductive StepCase (b b' : Backend) (op : Operation) : Prop where
  | access (h : AccessEffect b.db op b'.db)
  | frame (f : Frame) (h : FrameEffect b f b')
  | rows (h : RowsOnly b.db b'.db op)

theorem rowsOnly_of_eq {db db' : Db} {op : Operation} (h : db' = db) : RowsOnly db db' op :=
  ⟨rowOrigin_of_eq h, by rw [h], by rw [h], by rw [h], by rw [h]⟩

theorem rowsOnly_settle {ε : Type} {db : Db} {op : Operation} {result : Except ε Db}
    (h : ∀ db', result = .ok db' → RowsOnly db db' op) : RowsOnly db (settle db result) op := by
  cases result with
  | ok db' => exact h db' rfl
  | error e => exact rowsOnly_of_eq rfl

theorem rowsOnly_patch (db : Db) (req : ModifyRequest) (actorUserId : Nat) (now : Time) :
    RowsOnly db (patchReservation db req actorUserId now).1 (.patch req actorUserId now) := by
  cases patchReservation_cases db req actorUserId now with
  | same hsame => exact rowsOnly_of_eq hsame
  | refused row a _ hput | accepted row a _ hput =>
      refine ⟨rowOrigin_patch, ?_, ?_, ?_, ?_⟩
      all_goals rw [hput]; rfl

/-- **One step** works on the reservations, on links and accounts, or is a frame. -/
theorem stepCase {b b' : Backend} {op : Operation} (h : step b op = some b') : StepCase b b' op := by
  cases op with
  | frame serverId f =>
      obtain rfl := Option.some.inj h
      exact .frame f (frameEffect_receive b serverId f)
  | book req groupId now =>
      obtain rfl := Option.some.inj h
      refine .rows (rowsOnly_settle fun db' hdb => ?_)
      obtain ⟨⟨db, created⟩, hbook, rfl⟩ := map_eq_ok_iff.mp hdb
      obtain ⟨hbooked, -⟩ := createReservationBatch_ok hbook
      exact ⟨rowOrigin_book hbook, hbooked.servers, hbooked.gpus, hbooked.accountLinks,
        hbooked.physicalAccounts⟩
  | patch req actorUserId now =>
      obtain rfl := Option.some.inj h
      exact .rows (rowsOnly_patch b.db req actorUserId now)
  | cancel id actorUserId actorCanAdmin reason now =>
      obtain rfl := Option.some.inj h
      refine .rows (rowsOnly_settle fun db' hdb => ?_)
      obtain ⟨r, hr, -, rfl⟩ := cancelReservation_ok hdb
      exact ⟨rowOrigin_cancel hdb, rfl, rfl, rfl, rfl⟩
  | cancelGroup groupId actorUserId actorCanAdmin reason now =>
      obtain rfl := Option.some.inj h
      refine .rows (rowsOnly_settle fun db' hdb => ?_)
      have hcancelled := cancelGroup_ok hdb
      exact ⟨rowOrigin_cancelGroup hdb, hcancelled.servers, hcancelled.gpus, hcancelled.accountLinks,
        hcancelled.physicalAccounts⟩
  | tick now =>
      obtain rfl := Option.some.inj h
      refine .rows (rowsOnly_settle fun db' hdb => ?_)
      obtain ⟨s, hs, rfl⟩ := map_eq_ok_iff.mp hdb
      have htick := tickBody_ok hs
      exact ⟨rowOrigin_tick htick, htick.context.servers, htick.context.gpus,
        htick.context.accountLinks, htick.context.physicalAccounts⟩
  | dispatchFailed d =>
      obtain rfl := Option.some.inj h
      exact .rows ⟨rowOrigin_of_same rfl (remembers_of_append rfl), rfl, rfl, rfl, rfl⟩
  | establishViaPam userId paId serverId | establishViaSshChallenge userId paId serverId
  | adminDeclareLink paId ownerUserId declaredByUserId serverId =>
      obtain rfl := Option.some.inj h
      exact .access (accessEffect_settle fun db' hdb => accessEffect_insertLink hdb)
  | upgradeLink userId paId serverId now =>
      obtain rfl := Option.some.inj h
      exact .access (accessEffect_settle fun db' hdb => accessEffect_upgrade hdb)
  | revokeLink linkId labId actorUserId reason now =>
      obtain rfl := Option.some.inj h
      exact .access (accessEffect_settle fun db' hdb => accessEffect_revokeLink hdb)
  | createAccount serverId linuxUsername actorUserId labId =>
      obtain rfl := Option.some.inj h
      exact .access (accessEffect_settle fun db' hdb => accessEffect_createAccount hdb)
  | deleteAccount paId actorUserId labId =>
      obtain rfl := Option.some.inj h
      exact .access (accessEffect_settle fun db' hdb => accessEffect_deleteAccount hdb)

/-- **Where rows come from**: every reservation after a step was there before,
with its window and no more sendable, or was booked or patched by the step. -/
theorem rowOrigin_step {b b' : Backend} {op : Operation} (h : step b op = some b') :
    ∀ r' ∈ b'.db.reservations, RowOrigin b.db b'.db r' op := by
  cases stepCase h with
  | access h => exact rowOrigin_access h
  | frame f h => exact rowOrigin_frame h
  | rows h => exact h.rows

/-! ## what no step changes -/

/-- Servers stay; cards, links and accounts keep their owners. -/
structure ContextKept (db db' : Db) : Prop where
  servers : db'.servers = db.servers
  gpus : db.gpus.Extends (fun g g' => g'.serverId = g.serverId) db'.gpus
  accountLinks : db.accountLinks.Extends
    (fun l l' => l'.physicalAccountId = l.physicalAccountId) db'.accountLinks
  physicalAccounts : db.physicalAccounts.Extends
    (fun p p' => p'.serverId = p.serverId) db'.physicalAccounts

theorem contextKept_refl (db : Db) : ContextKept db db :=
  ⟨rfl, Table.extends_refl (fun g => Eq.refl g.serverId) _,
    Table.extends_refl (fun l => Eq.refl l.physicalAccountId) _,
    Table.extends_refl (fun p => Eq.refl p.serverId) _⟩

theorem contextKept_access {db db' : Db} {op : Operation} (h : AccessEffect db op db') :
    ContextKept db db' := by
  have hsame := contextKept_refl db
  cases h with
  | refused => exact hsame
  | linkInserted _ b =>
      exact { hsame with
        accountLinks := Table.extends_append (fun l => Eq.refl l.physicalAccountId) _ b }
  | linkUpgraded _ old b now actorUserId _ stored =>
      refine { hsame with accountLinks := ?_ }
      have hput : db.accountLinks.Extends (fun l l' => l'.physicalAccountId = l.physicalAccountId)
          (db.accountLinks.put (old.revoked actorUserId .upgradedToVerified now)) :=
        Table.extends_put (fun l => Eq.refl l.physicalAccountId) stored rfl
      exact hput.trans (fun _ _ _ hab hbc => hbc.trans hab)
        (Table.extends_append (fun l => Eq.refl l.physicalAccountId) _ b)
  | linkRevoked link _ stored =>
      obtain rfl : link.id = _ := Table.key_of_get? stored
      exact { hsame with
        accountLinks := Table.extends_put (fun l => Eq.refl l.physicalAccountId) stored rfl }
  | accountCreated _ b =>
      exact { hsame with physicalAccounts := Table.extends_append (fun p => Eq.refl p.serverId) _ b }
  | accountDeleted pa _ stored =>
      obtain rfl : pa.id = _ := Table.key_of_get? stored
      exact { hsame with
        physicalAccounts := Table.extends_put (fun p => Eq.refl p.serverId) stored rfl }

/-- What a frame leaves of the other tables. -/
structure FrameTables (db db' : Db) : Prop where
  servers : db'.servers = db.servers
  gpus : db.gpus.Extends (fun g g' => g'.serverId = g.serverId) db'.gpus
  accountLinks : db'.accountLinks = db.accountLinks
  physicalAccounts : db.physicalAccounts.Extends Eq db'.physicalAccounts

theorem frameTables_refl (db : Db) : FrameTables db db :=
  ⟨rfl, (contextKept_refl db).gpus, rfl, Table.extends_refl (fun _ => rfl) _⟩

/-- Rewriting a reservation and writing audit rows. -/
theorem frameTables_write (db : Db) (row : Reservation) (entries : List AuditEntry) :
    FrameTables db (db.write row entries) :=
  ⟨rfl, (frameTables_refl db).gpus, rfl, (frameTables_refl db).physicalAccounts⟩

theorem frameTables_of_frame {b b' : Backend} {f : Frame} (h : FrameEffect b f b') :
    FrameTables b.db b'.db := by
  have hsame := frameTables_refl b.db
  cases h with
  | quiet => exact hsame
  | audited => exact ⟨rfl, hsame.gpus, rfl, hsame.physicalAccounts⟩
  | telemetry _ gpus hextends => exact ⟨rfl, hextends, rfl, hsame.physicalAccounts⟩
  | scanned _ accounts entries hextends => exact ⟨rfl, hsame.gpus, rfl, hextends⟩
  | started p db' h =>
      cases h with
      | unknown _ eq | stale _ _ _ eq => exact eq ▸ hsame
      | recorded row row' entries _ _ _ _ _ _ _ _ eq => exact eq ▸ frameTables_write b.db row' entries
  | outputChunk p =>
      rcases onScriptOutputChunk_cases b.db p with heq | ⟨row, row', -, -, -, -, -, heq⟩
      · dsimp only
        rw [heq]
        exact hsame
      · dsimp only
        rw [heq]
        exact frameTables_write b.db row' []
  | finished p db' kills' h =>
      cases h with
      | unknown _ eq _ | stale _ _ _ eq _ => exact eq ▸ hsame
      | ended row row' entries _ _ _ _ _ _ eq _ => exact eq ▸ frameTables_write b.db row' entries

/-- **The context stays**: no operation moves a card, a link or an account. -/
theorem contextKept_step {b b' : Backend} {op : Operation} (h : step b op = some b') :
    ContextKept b.db b'.db := by
  have hsame := contextKept_refl b.db
  cases stepCase h with
  | access h => exact contextKept_access h
  | frame f h =>
      have htables := frameTables_of_frame h
      exact ⟨htables.servers, htables.gpus, htables.accountLinks ▸ hsame.accountLinks,
        htables.physicalAccounts.mono fun p p' (heq : p = p') => heq ▸ rfl⟩
  | rows h =>
      exact ⟨h.servers, h.gpus ▸ hsame.gpus, h.accountLinks ▸ hsame.accountLinks,
        h.physicalAccounts ▸ hsame.physicalAccounts⟩

end Operations

end CoreLab
