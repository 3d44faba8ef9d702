import CoreLab.ReservationService

/-!
# CoreLab.Transitions

The status machines of a reservation row: the transitions the scheduler drives,
the script status the agent's events drive, the dispatch marker, and cancelling
one reservation or a group.  Each function checks its edge and writes the row
together with its audit entry.
-/

namespace CoreLab

open Relational Loops

/-- Flush a changed row, then write audit rows. -/
def Db.write (db : Db) (row : Reservation) (entries : List AuditEntry) : Db :=
  (db.putReservation row).auditAll entries

namespace Db

@[simp] theorem reservations_write (db : Db) (r es) :
    (db.write r es).reservations = db.reservations.put r := rfl
@[simp] theorem auditLog_write (db : Db) (r es) :
    (db.write r es).auditLog = db.auditLog ++ es := rfl

end Db

theorem Db.write_write (db : Db) {a b : Reservation} (h : a.id = b.id) (es fs : List AuditEntry) :
    (db.write a es).write b fs = db.write b (es ++ fs) := by
  have hput : (db.reservations.put a).put b = db.reservations.put b := Table.put_put _ h
  simp only [Db.write, Db.putReservation, Db.auditAll, hput, List.append_assoc]

/-! ## reservation status -/

/-- `_assert_transition_allowed`. -/
def assertTransitionAllowed (current target : ReservationStatus) : Except Failure Unit :=
  raiseIf (!current.allows target) (.reservation (.illegalTransition
    s!"reservation status transition {current.text} -> {target.text} is not allowed"
    current.text target.text))

/-- `transition_to_active`. -/
def transitionToActive (db : Db) (r : Reservation) : Except Failure Db := do
  assertTransitionAllowed r.status .active
  let row := { r with status := .active }
  .ok (db.write row [reservationAudit .reservationTransition none row])

/-- `transition_to_completed`. -/
def transitionToCompleted (db : Db) (r : Reservation) : Except Failure Db := do
  assertTransitionAllowed r.status .completed
  let row := { r with status := .completed }
  .ok (db.write row [reservationAudit .reservationTransition none row])

/-- `transition_to_failed`: the reason is kept where none is set yet. -/
def transitionToFailed (db : Db) (r : Reservation) (reason : String) : Except Failure Db := do
  assertTransitionAllowed r.status .failed
  let row := { r with
    status := .failed
    cancellationReason :=
      if truthy r.cancellationReason then r.cancellationReason else some reason }
  .ok (db.write row [reservationAudit .reservationTransition none row])

/-! ## script status -/

/-- `update_script_status`: the agent's lifecycle, synced into the row. -/
def updateScriptStatus (db : Db) (r : Reservation) (new : ScriptStatus) (exitCode : Option Int)
    (startedAt finishedAt : Option Time) : Except Failure (Db × Reservation) := do
  let current := r.scriptStatus.elim "None" ScriptStatus.text
  raiseIf (!ScriptStatus.allowed r.scriptStatus new) (.reservation (.illegalTransition
    s!"reservation.script_status {current} -> {new.text} not allowed"
    (r.scriptStatus.elim "null" ScriptStatus.text) new.text))
  let row : Reservation :=
    if new = .running then
      { r with scriptStatus := some new, scriptStartedAt := startedAt.or r.scriptStartedAt }
    else
      { r with
        scriptStatus := some new
        scriptFinishedAt := finishedAt.or r.scriptFinishedAt
        scriptExitCode := exitCode.or r.scriptExitCode }
  .ok (db.write row [reservationAudit .scriptLifecycle none row], row)

/-- `SCRIPT_LOG_TAIL_MAX_CHARS`. -/
def scriptLogTailMaxChars : Nat := 65536

/-- `append_script_log_tail`: the bounded tail of the script's output. -/
def appendScriptLogTail (db : Db) (r : Reservation) (text : String) : Db :=
  if text = "" then db
  else
    let combined := (r.scriptLogTailText.getD "").toList ++ text.toList
    let row : Reservation :=
      if scriptLogTailMaxChars < combined.length then
        { r with
          scriptLogTailText :=
            some (String.ofList (combined.drop (combined.length - scriptLogTailMaxChars)))
          scriptLogTailTruncated := true }
      else { r with scriptLogTailText := some (String.ofList combined) }
    db.write row []

/-- `mark_script_dispatched`: status and marker in one step, for an active row
whose script has not fired. -/
def markScriptDispatched (db : Db) (r : Reservation) (now : Time) : Except Failure Db := do
  raiseIf (r.status ≠ .active) (.reservation (.illegalTransition
    s!"mark_script_dispatched requires status='active', got '{r.status.text}'"
    r.status.text "script.dispatched"))
  let current := r.scriptStatus.elim "None" ScriptStatus.text
  raiseIf r.scriptStatus.isSome (.reservation (.illegalTransition
    s!"mark_script_dispatched requires script_status=NULL, got '{current}'" current "running"))
  let row := { r with scriptStatus := some .running, scriptDispatchStartedAt := some now }
  .ok (db.write row [reservationAudit .scriptDispatched none row])

/-! ## cancelling -/

/-- The row as a cancel leaves it. -/
def cancelledRow (r : Reservation) (actorUserId : Nat) (reason : Option String) (now : Time) :
    Reservation :=
  { r with
    status := .cancelled
    cancelledAt := some now
    cancelledByUserId := some actorUserId
    cancellationReason := reason }

/-- `cancel_reservation`: a locked read, the guards, the terminal status. -/
def cancelReservation (db : Db) (reservationId actorUserId : Nat) (actorCanAdmin : Bool)
    (reason : Option String) (now : Time) : Except Failure Db :=
  match db.reservations.get? reservationId with
  | none => raise (.notFound s!"reservation {reservationId} not found")
  | some r => do
    raiseIf r.status.terminal (.reservation (.base
      s!"reservation {reservationId} is already terminal ({r.status.text})"))
    raiseIf (!actorCanAdmin && r.userId != actorUserId) (.reservation (.cancelNotPermitted
      (s!"user {actorUserId} cannot cancel reservation {reservationId} " ++
        "(neither owner nor admin)")))
    assertTransitionAllowed r.status .cancelled
    let row := cancelledRow r actorUserId reason now
    .ok (db.write row [reservationAudit .reservationCancel (some actorUserId) row])

/-- `cancel_group`: all rows of a group that still occupy their window, refused
while one of them runs a script. -/
def cancelGroup (db : Db) (groupId : String) (actorUserId : Nat) (actorCanAdmin : Bool)
    (reason : Option String) (now : Time) : Except Failure Db :=
  let rows := db.reservations.rows.filter fun r => r.groupId = some groupId && r.occupies
  match rows with
  | [] => raise (.notFound s!"no active reservations found for group '{groupId}'")
  | first :: _ => do
    raiseIf (!actorCanAdmin && first.userId != actorUserId) (.reservation (.cancelNotPermitted
      s!"user {actorUserId} cannot cancel group {groupId} (not owner / admin)"))
    let running := rows.filter fun r => r.status = .active && r.scriptStatus = some .running
    raiseIf (running ≠ []) (.reservation (.groupCancelRunningScript
      "group cancel refused because running scripts must be stopped individually first"
      (running.map (·.id))))
    let cancelled := rows.foldl
      (fun d r => d.putReservation (cancelledRow r actorUserId reason now)) db
    .ok (cancelled.audit
      { action := .reservationCancelGroup, actorUserId := some actorUserId
        targetType := .reservationGroup, targetId := none, targetServerId := some first.serverId })

/-! ## inversion -/

theorem transitionToActive_ok {db db' : Db} {r : Reservation}
    (h : transitionToActive db r = .ok db') :
    db' = db.write { r with status := .active }
      [reservationAudit .reservationTransition none r] := by
  simp only [transitionToActive, check_bind_eq_ok_iff, Except.ok.injEq] at h
  exact h.2.symm

theorem transitionToCompleted_ok {db db' : Db} {r : Reservation}
    (h : transitionToCompleted db r = .ok db') :
    db' = db.write { r with status := .completed }
      [reservationAudit .reservationTransition none r] := by
  simp only [transitionToCompleted, check_bind_eq_ok_iff, Except.ok.injEq] at h
  exact h.2.symm

theorem transitionToFailed_ok {db db' : Db} {r : Reservation} {reason : String}
    (h : transitionToFailed db r reason = .ok db') :
    db' = db.write { r with
        status := .failed
        cancellationReason :=
          if truthy r.cancellationReason then r.cancellationReason else some reason }
      [reservationAudit .reservationTransition none r] := by
  simp only [transitionToFailed, check_bind_eq_ok_iff, Except.ok.injEq] at h
  exact h.2.symm

theorem markScriptDispatched_ok {db db' : Db} {r : Reservation} {now : Time}
    (h : markScriptDispatched db r now = .ok db') :
    r.status = .active ∧ r.scriptStatus = none ∧
      db' = db.write { r with scriptStatus := some .running, scriptDispatchStartedAt := some now }
        [reservationAudit .scriptDispatched none r] := by
  simp only [markScriptDispatched, check_bind_eq_ok_iff, raiseIf_eq_ok_iff, Except.ok.injEq,
    decide_eq_false_iff_not, not_not, Option.isSome_eq_false_iff, Option.isNone_iff_eq_none] at h
  exact ⟨h.1, h.2.1, h.2.2.symm⟩

/-- A cancel that succeeds found a scheduled or active row, of the actor unless
an admin acts, and leaves it cancelled. -/
theorem cancelReservation_ok {db db' : Db} {id actorUserId : Nat} {actorCanAdmin : Bool}
    {reason : Option String} {now : Time}
    (h : cancelReservation db id actorUserId actorCanAdmin reason now = .ok db') :
    ∃ r, db.reservations.get? id = some r ∧ r.occupies = true ∧
      db' = db.write (cancelledRow r actorUserId reason now)
        [reservationAudit .reservationCancel (some actorUserId) r] := by
  unfold cancelReservation at h
  cases hr : db.reservations.get? id with
  | none => rw [hr] at h; cases h
  | some r =>
      simp only [hr, check_bind_eq_ok_iff, raiseIf_eq_ok_iff, Except.ok.injEq] at h
      obtain ⟨hterminal, -, -, hdb⟩ := h
      refine ⟨r, rfl, ?_, hdb.symm⟩
      unfold Reservation.occupies
      revert hterminal
      cases r.status <;> decide

/-- A group cancel that succeeds leaves some rows cancelled and the others as
they are. -/
structure GroupCancelled (db : Db) (actorUserId : Nat) (reason : Option String) (now : Time)
    (db' : Db) : Prop where
  rows : ∀ r' ∈ db'.reservations, ∃ r ∈ db.reservations, r' = r ∨
    r' = cancelledRow r actorUserId reason now
  servers : db'.servers = db.servers
  gpus : db'.gpus = db.gpus
  physicalAccounts : db'.physicalAccounts = db.physicalAccounts
  accountLinks : db'.accountLinks = db.accountLinks
  auditLog : ∃ e, db'.auditLog = db.auditLog ++ [e]

theorem foldl_putReservation (f : Reservation → Reservation) (rows : List Reservation) (db : Db) :
    rows.foldl (fun d r => d.putReservation (f r)) db =
      { db with reservations := rows.foldl (fun t r => t.put (f r)) db.reservations } := by
  induction rows generalizing db with
  | nil => rfl
  | cons r rows ih =>
      rw [List.foldl_cons, ih]
      rfl

/-- The rows a group cancel takes: those of the group that occupy their window. -/
def inGroup (groupId : String) (r : Reservation) : Bool := r.groupId = some groupId && r.occupies

/-- A row as a group cancel leaves it. -/
def groupRow (groupId : String) (actorUserId : Nat) (reason : Option String) (now : Time)
    (r : Reservation) : Reservation :=
  if inGroup groupId r then cancelledRow r actorUserId reason now else r

@[simp] theorem groupRow_id (groupId : String) (actorUserId : Nat) (reason : Option String)
    (now : Time) (r : Reservation) : (groupRow groupId actorUserId reason now r).id = r.id := by
  unfold groupRow
  split <;> rfl

/-- A group cancel that succeeds rewrites exactly the rows it takes. -/
theorem cancelGroup_eq {db db' : Db} {groupId : String} {actorUserId : Nat} {actorCanAdmin : Bool}
    {reason : Option String} {now : Time}
    (h : cancelGroup db groupId actorUserId actorCanAdmin reason now = .ok db') :
    ∃ first ∈ db.reservations, inGroup groupId first = true ∧
      (actorCanAdmin = true ∨ first.userId = actorUserId) ∧
      db' = Db.audit
        { db with
          reservations := db.reservations.mapRows (groupRow groupId actorUserId reason now)
            (groupRow_id groupId actorUserId reason now) }
        { action := .reservationCancelGroup, actorUserId := some actorUserId
          targetType := .reservationGroup, targetId := none
          targetServerId := some first.serverId } := by
  unfold cancelGroup at h
  dsimp only at h
  split at h
  · cases h
  · next first rest hrows =>
      simp only [check_bind_eq_ok_iff, raiseIf_eq_ok_iff, Except.ok.injEq] at h
      obtain ⟨hactor, -, rfl⟩ := h
      have hfirst : first ∈ db.reservations.rows.filter (inGroup groupId) := by
        show first ∈ db.reservations.rows.filter fun r => r.groupId = some groupId && r.occupies
        rw [hrows]
        exact List.mem_cons_self
      obtain ⟨hmem, hin⟩ := List.mem_filter.mp hfirst
      refine ⟨first, hmem, hin, ?_, ?_⟩
      · cases actorCanAdmin with
        | true => exact Or.inl rfl
        | false => exact Or.inr (by simpa using hactor)
      · rw [foldl_putReservation, Table.foldl_put_filter _ _
          (fun r => cancelledRow r actorUserId reason now) fun _ => rfl]
        rfl

theorem cancelGroup_ok {db db' : Db} {groupId : String} {actorUserId : Nat} {actorCanAdmin : Bool}
    {reason : Option String} {now : Time}
    (h : cancelGroup db groupId actorUserId actorCanAdmin reason now = .ok db') :
    GroupCancelled db actorUserId reason now db' := by
  obtain ⟨first, -, -, -, rfl⟩ := cancelGroup_eq h
  refine ⟨fun r' hr' => ?_, rfl, rfl, rfl, rfl, _, rfl⟩
  rw [Db.reservations_audit, Table.mem_mapRows] at hr'
  obtain ⟨r, hr, heq⟩ := hr'
  refine ⟨r, hr, ?_⟩
  unfold groupRow at heq
  split at heq
  · exact Or.inr heq.symm
  · exact Or.inl heq.symm

/-- The row of a cancel that succeeds, before and after. -/
theorem cancelReservation_row {db db' : Db} {id actorUserId : Nat} {actorCanAdmin : Bool}
    {reason : Option String} {now : Time}
    (h : cancelReservation db id actorUserId actorCanAdmin reason now = .ok db') :
    ∃ r r', db.reservations.get? id = some r ∧ r.occupies = true ∧
      db'.reservations.get? id = some r' ∧ r'.status = .cancelled ∧
        r'.scriptStatus = r.scriptStatus := by
  obtain ⟨r, hr, hocc, rfl⟩ := cancelReservation_ok h
  obtain rfl : r.id = id := Table.key_of_get? hr
  exact ⟨r, _, hr, hocc, Table.get?_put_self hr, rfl, rfl⟩

end CoreLab
