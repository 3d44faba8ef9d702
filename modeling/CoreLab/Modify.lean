import CoreLab.Transitions

/-!
# CoreLab.Modify

`PATCH /reservations/{id}`: the service edits the loaded row attribute by
attribute between checks that may still raise, the handler turns a typed error
into an HTTP error, and the session of the request commits on HTTP errors.

* `modifyReservation` — the edit, with what is assigned on the row when it stops;
* `getSession` — how the request's session ends;
* `patchReservation_unchanged_iff` — when a refused edit leaves the stored row
  as it was.
-/

namespace CoreLab

open Relational Loops

/-! ## HTTP errors and the request's session -/

/-- `HTTPException`: the status, the code of its detail, and the error whose
data the detail repeats. -/
structure HttpException where
  status : Nat
  code : String
  detail : ReservationError
deriving DecidableEq, Repr

/-- `_map_service_error`. -/
def mapServiceError (e : ReservationError) : HttpException :=
  match e with
  | .overlap .. => ⟨409, "RESERVATION_OVERLAP", e⟩
  | .mixExclusiveShared .. => ⟨409, "RESERVATION_MIX_EXCLUSIVE_SHARED", e⟩
  | .memoryExceeded .. => ⟨409, "RESERVATION_MEMORY_EXCEEDED", e⟩
  | .computeExceeded .. => ⟨409, "RESERVATION_COMPUTE_EXCEEDED", e⟩
  | .tooLong .. => ⟨422, "RESERVATION_TOO_LONG", e⟩
  | .invalidTime .. => ⟨422, "INVALID_TIME", e⟩
  | .linkNotVerified .. => ⟨422, "LINK_NOT_VERIFIED", e⟩
  | .noActiveLink .. => ⟨422, "NO_ACTIVE_LINK", e⟩
  | .scriptTooLarge .. => ⟨422, "SCRIPT_TOO_LARGE", e⟩
  | .groupCancelRunningScript .. => ⟨409, "GROUP_CANCEL_RUNNING_SCRIPT_UNSUPPORTED", e⟩
  | .cancelNotPermitted .. => ⟨403, "CANCEL_NOT_PERMITTED", e⟩
  | .notFound .. => ⟨404, "RESERVATION_NOT_FOUND", e⟩
  | .base .. | .illegalTransition .. => ⟨400, "RESERVATION_ERROR", e⟩

/-- How a handler's work on the session ends: the reservation row it has edited
but not flushed, and its result. -/
structure Attempt where
  dirty : Option Reservation
  result : Except Failure Db

/-- How the request ends for the client. -/
inductive Response where
  | done
  | http (e : HttpException)
  | serverError
deriving DecidableEq, Repr

/-- `session.commit()`: flushes the edited row; a row that the store refuses
makes the commit fail, and nothing is stored. -/
def commit (db : Db) (dirty : Option Reservation) : Db :=
  match dirty with
  | none => db
  | some row => if row.checks then db.putReservation row else db

/-- `get_session`: commits on success and on an `HTTPException`, in whose place
a failing commit raises its own error, and rolls back on any other exception. -/
def getSession (db : Db) (a : Attempt) : Db × Response :=
  match a.result with
  | .ok db' => (db', .done)
  | .error (.reservation e) =>
    (commit db a.dirty,
      if a.dirty.all Reservation.checks then .http (mapServiceError e) else .serverError)
  | .error _ => (db, .serverError)

/-! ## the edit -/

/-- `ModifyRequest`, for one reservation. -/
structure ModifyRequest where
  reservationId : Nat
  startAt : Option Datetime := none
  endAt : Option Datetime := none
  script : Option String := none
  scriptScheduledStartAt : Option Datetime := none
  scriptMaxRuntimeSeconds : Option Nat := none
deriving DecidableEq, Repr

/-- The attributes of the loaded row that an edit assigns. -/
structure Attrs where
  startAt : Datetime
  endAt : Datetime
  script : Option String
  scriptScheduledStartAt : Option Datetime
  scriptMaxRuntimeSeconds : Option Nat
deriving DecidableEq, Repr

/-- The attributes as loaded. -/
def Attrs.load (row : Reservation) : Attrs :=
  { startAt := .ofStored row.startAt
    endAt := .ofStored row.endAt
    script := row.script
    scriptScheduledStartAt := row.scriptScheduledStartAt.map .ofStored
    scriptMaxRuntimeSeconds := row.scriptMaxRuntimeSeconds }

/-- The row as a flush would store it. -/
def Attrs.flushed (row : Reservation) (a : Attrs) : Reservation :=
  { row with
    startAt := a.startAt.stored
    endAt := a.endAt.stored
    script := a.script
    scriptScheduledStartAt := a.scriptScheduledStartAt.map Datetime.stored
    scriptMaxRuntimeSeconds := a.scriptMaxRuntimeSeconds }

/-- The guards before the first assignment: status, owner, frozen timing. -/
def checkEditable (row : Reservation) (req : ModifyRequest) (actorUserId : Nat) :
    Except Failure Unit := do
  raiseIf (row.status ≠ .scheduled) (.reservation (.base
    s!"reservation {row.id} is not editable in status '{row.status.text}'"))
  raiseIf (row.userId ≠ actorUserId) (.reservation (.cancelNotPermitted
    s!"user {actorUserId} is not the owner of reservation {row.id}"))
  raiseIf ((req.scriptScheduledStartAt.isSome || req.scriptMaxRuntimeSeconds.isSome) &&
      (row.scriptStatus.isSome || row.scriptDispatchStartedAt.isSome)) (.reservation (.base
    (s!"script for reservation {row.id} has already been dispatched; " ++
      "timing fields cannot be modified")))

/-- `row.start_at = …`, `row.end_at = …`. -/
def assignWindow (req : ModifyRequest) (a : Attrs) : Attrs :=
  { a with startAt := req.startAt.getD a.startAt, endAt := req.endAt.getD a.endAt }

/-- The checks of a new window, made when either end is given. -/
def checkWindow (db : Db) (row : Reservation) (req : ModifyRequest) (a : Attrs) (now : Time) :
    Except Failure Unit :=
  if req.startAt.isNone && req.endAt.isNone then .ok ()
  else do
    let item : ItemDraft :=
      { serverId := row.serverId, gpuId := row.gpuId, startAt := a.startAt, endAt := a.endAt
        accountLinkId := row.accountLinkId, gpuMemoryMb := row.gpuMemoryMb
        gpuComputeSharePct := row.gpuComputeSharePct }
    let _ ← validateItemTime db item now
    match row.gpuId with
    | none => .ok ()
    | some gpuId =>
      match db.gpus.get? gpuId with
      | none => raise (.invalidTime s!"gpu {gpuId} not found")
      | some gpu =>
        let inWindow := (windowActiveReservations db gpuId a.startAt.stored a.endAt.stored).filter
          fun r => r.id ≠ row.id
        match classifyConflict item inWindow gpu with
        | none => .ok ()
        | some c => raise (.overlap s!"modify would conflict on gpu {gpuId}"
            c.conflictingReservationIds)

/-- The size check of a new script. -/
def checkScriptSize (req : ModifyRequest) : Except Failure Unit :=
  raiseIf (req.script.any scriptTooLarge) (.reservation (.scriptTooLarge
    s!"script body exceeds {scriptMaxBytes} bytes (4 KB)"))

/-- `row.script = …`; a blank trigger means: when the reservation starts. -/
def assignScript (req : ModifyRequest) (a : Attrs) : Attrs :=
  match req.script with
  | none => a
  | some script =>
    { a with
      script := some script
      scriptScheduledStartAt :=
        if a.scriptScheduledStartAt.isNone && req.scriptScheduledStartAt.isNone then some a.startAt
        else a.scriptScheduledStartAt }

/-- `astimezone(UTC).replace(tzinfo=None)`; a naive trigger is taken as it is. -/
def normalizeTrigger (t : Datetime) : Datetime := .ofStored t.instant

/-- The check of a new trigger time against the window on the row. -/
def checkTrigger (req : ModifyRequest) (a : Attrs) : Except Failure (Option Datetime) :=
  match req.scriptScheduledStartAt with
  | none => .ok none
  | some t =>
    match Datetime.within? a.startAt (normalizeTrigger t) a.endAt with
    | none => .error .typeError
    | some true => .ok (some (normalizeTrigger t))
    | some false => raise (.invalidTime ("script_scheduled_start_at must be in " ++
        s!"[{String.ofList a.startAt.isoformat}, {String.ofList a.endAt.isoformat})"))

/-- The last assignments: trigger and maximal runtime. -/
def assignTiming (req : ModifyRequest) (trigger : Option Datetime) (a : Attrs) : Attrs :=
  { a with
    scriptScheduledStartAt := trigger.or a.scriptScheduledStartAt
    scriptMaxRuntimeSeconds := req.scriptMaxRuntimeSeconds.or a.scriptMaxRuntimeSeconds }

/-- `modify_reservation`: every raise point leaves what was assigned before it. -/
def modifyReservation (db : Db) (req : ModifyRequest) (actorUserId : Nat) (now : Time) : Attempt :=
  match db.reservations.get? req.reservationId with
  | none => ⟨none, raise (.notFound s!"reservation {req.reservationId} not found")⟩
  | some row =>
    match checkEditable row req actorUserId with
    | .error e => ⟨none, .error e⟩
    | .ok () =>
      let window := assignWindow req (.load row)
      match checkWindow db row req window now with
      | .error e => ⟨some (window.flushed row), .error e⟩
      | .ok () =>
        match checkScriptSize req with
        | .error e => ⟨some (window.flushed row), .error e⟩
        | .ok () =>
          let scripted := assignScript req window
          match checkTrigger req scripted with
          | .error e => ⟨some (scripted.flushed row), .error e⟩
          | .ok trigger =>
            let edited := (assignTiming req trigger scripted).flushed row
            if edited.checks then
              ⟨none, .ok ((db.putReservation edited).audit
                (reservationAudit .reservationModify (some actorUserId) edited))⟩
            else ⟨some edited, .error .integrity⟩

/-- The `PATCH` handler inside its request's session. -/
def patchReservation (db : Db) (req : ModifyRequest) (actorUserId : Nat) (now : Time) :
    Db × Response :=
  getSession db (modifyReservation db req actorUserId now)

/-! ## refused edits -/

/-- The request repeats the stored window, where it names one. -/
def SameWindow (req : ModifyRequest) (row : Reservation) : Prop :=
  (∀ t, req.startAt = some t → t.stored = row.startAt) ∧
    ∀ t, req.endAt = some t → t.stored = row.endAt

/-- The request repeats the stored script, where it names one. -/
def SameScript (req : ModifyRequest) (row : Reservation) : Prop :=
  ∀ s, req.script = some s → row.script = some s

/-- The edit is refused at its window or at the size of its script, before the
script is assigned. -/
def refusedEarly (db : Db) (row : Reservation) (req : ModifyRequest) (now : Time) : Bool :=
  !(checkWindow db row req (assignWindow req (.load row)) now).isOk || !(checkScriptSize req).isOk

/-- The row as a refused edit leaves it on the session. -/
def halfEdited (db : Db) (row : Reservation) (req : ModifyRequest) (now : Time) : Reservation :=
  let window := assignWindow req (.load row)
  if refusedEarly db row req now then window.flushed row else (assignScript req window).flushed row

/-- A refused edit does no harm: it is refused before the first assignment, or
what it assigns repeats the stored row, or the store refuses the half-edited
row at the commit. -/
def EditHarmless (db : Db) (row : Reservation) (req : ModifyRequest) (actorUserId : Nat)
    (now : Time) : Prop :=
  checkEditable row req actorUserId ≠ .ok () ∨
    (SameWindow req row ∧ (refusedEarly db row req now = true ∨ SameScript req row)) ∨
      (halfEdited db row req now).checks = false

/-- Assigning the window stores the old row exactly when it repeats it. -/
theorem flushed_assignWindow_eq_iff {req : ModifyRequest} {row : Reservation} :
    (assignWindow req (.load row)).flushed row = row ↔ SameWindow req row := by
  have hload : (row.scriptScheduledStartAt.map Datetime.ofStored).map Datetime.stored =
      row.scriptScheduledStartAt := by
    rw [Option.map_map]
    exact Option.map_id'
  unfold SameWindow
  constructor
  · intro h
    have hs := congrArg Reservation.startAt h
    have he := congrArg Reservation.endAt h
    simp only [Attrs.flushed, assignWindow, Attrs.load] at hs he
    refine ⟨fun t ht => ?_, fun t ht => ?_⟩
    · rwa [ht] at hs
    · rwa [ht] at he
  · rintro ⟨hs, he⟩
    have hs' : (req.startAt.getD (.ofStored row.startAt)).stored = row.startAt := by
      cases h : req.startAt with
      | none => rfl
      | some t => exact hs t h
    have he' : (req.endAt.getD (.ofStored row.endAt)).stored = row.endAt := by
      cases h : req.endAt with
      | none => rfl
      | some t => exact he t h
    simp only [Attrs.flushed, assignWindow, Attrs.load, hs', he', hload]

/-- With a new trigger in the request, assigning the script after the window
stores the old row exactly when both repeat it. -/
theorem flushed_assignScript_eq_iff {req : ModifyRequest} {row : Reservation}
    (htrigger : req.scriptScheduledStartAt.isSome) :
    (assignScript req (assignWindow req (.load row))).flushed row = row ↔
      SameWindow req row ∧ SameScript req row := by
  unfold SameScript assignScript
  cases hscript : req.script with
  | none => simp [flushed_assignWindow_eq_iff]
  | some script =>
      rw [← flushed_assignWindow_eq_iff, Option.isNone_eq_false_iff.mpr htrigger]
      simp only [Bool.and_false, Bool.false_eq_true, if_false, Option.some.injEq, forall_eq']
      -- only the script differs from the row with the new window
      generalize hw : assignWindow req (.load row) = w
      have hscript : w.script = row.script := by rw [← hw]; rfl
      constructor
      · intro h
        have hrow : row.script = some script := (congrArg Reservation.script h).symm
        refine ⟨?_, hrow⟩
        calc w.flushed row = { w.flushed row with script := row.script } := by rw [← hscript]; rfl
          _ = { w.flushed row with script := some script } := by rw [hrow]
          _ = row := h
      · rintro ⟨h, hrow⟩
        calc _ = { w.flushed row with script := some script } := rfl
          _ = { w.flushed row with script := w.script } := by rw [hscript, hrow]
          _ = w.flushed row := rfl
          _ = row := h

/-- **Where an edit stops**: a typed error after the guards leaves the
half-edited row on the session, and either it came early or the request names
a new trigger. -/
theorem modifyReservation_dirty {db : Db} {req : ModifyRequest} {actorUserId : Nat} {now : Time}
    {row : Reservation} {e : ReservationError}
    (hrow : db.reservations.get? req.reservationId = some row)
    (hedit : checkEditable row req actorUserId = .ok ())
    (h : (modifyReservation db req actorUserId now).result = .error (.reservation e)) :
    (modifyReservation db req actorUserId now).dirty = some (halfEdited db row req now) ∧
      (refusedEarly db row req now = true ∨ req.scriptScheduledStartAt.isSome) := by
  unfold modifyReservation at h ⊢
  unfold halfEdited refusedEarly
  simp only [hrow, hedit] at h ⊢
  cases hwindow : checkWindow db row req (assignWindow req (.load row)) now with
  | error e => simp [Except.isOk, Except.toBool]
  | ok _ =>
      cases hsize : checkScriptSize req with
      | error e => simp [Except.isOk, Except.toBool]
      | ok _ =>
          simp only [hwindow, hsize] at h
          cases htrigger : checkTrigger req (assignScript req (assignWindow req (.load row))) with
          | error e =>
              refine ⟨rfl, Or.inr ?_⟩
              unfold checkTrigger at htrigger
              cases ht : req.scriptScheduledStartAt with
              | none => rw [ht] at htrigger; cases htrigger
              | some t => rfl
          | ok trigger =>
              -- past the last check only the flush can fail, and not with a typed error
              simp only [htrigger] at h
              split at h <;> cases h

/-- What a commit leaves under the key of the edited row. -/
theorem get?_commit {db : Db} {row edited : Reservation} {id : Nat}
    (hrow : db.reservations.get? id = some row) (hid : edited.id = id) :
    (commit db (some edited)).reservations.get? id = some row ↔
      edited = row ∨ edited.checks = false := by
  have hcommit : commit db (some edited) = if edited.checks then db.putReservation edited else db :=
    rfl
  rw [hcommit]
  cases hc : edited.checks with
  | false => simp [hrow]
  | true =>
      simp only [if_true, Db.reservations_putReservation, Bool.true_eq_false, or_false]
      subst hid
      have hput : (db.reservations.put edited).get? edited.id = some edited :=
        Table.get?_put_self hrow
      rw [hput, Option.some.injEq]

/-- **Refused edits**: after a `PATCH` that the service refuses with a typed
error, the stored row is the one before the request exactly when the edit was
harmless. -/
theorem patchReservation_unchanged_iff {db : Db} {req : ModifyRequest} {actorUserId : Nat}
    {now : Time} {e : ReservationError}
    (h : (modifyReservation db req actorUserId now).result = .error (.reservation e)) :
    (patchReservation db req actorUserId now).1.reservations.get? req.reservationId =
        db.reservations.get? req.reservationId ↔
      ∀ row, db.reservations.get? req.reservationId = some row →
        EditHarmless db row req actorUserId now := by
  have hsession : (patchReservation db req actorUserId now).1 =
      commit db (modifyReservation db req actorUserId now).dirty := by
    rw [patchReservation, getSession, h]
  rw [hsession]
  cases hrow : db.reservations.get? req.reservationId with
  | none =>
      have hdirty : (modifyReservation db req actorUserId now).dirty = none := by
        rw [modifyReservation, hrow]
      simp [hdirty, commit, hrow]
  | some row =>
      simp only [Option.some.injEq, forall_eq']
      cases hedit : checkEditable row req actorUserId with
      | error e' =>
          -- refused before the first assignment
          have hdirty : (modifyReservation db req actorUserId now).dirty = none := by
            rw [modifyReservation, hrow]
            simp only [hedit]
          simp [hdirty, commit, hrow, EditHarmless, hedit]
      | ok _ =>
          obtain ⟨hdirty, hstage⟩ := modifyReservation_dirty hrow hedit h
          have hid : (halfEdited db row req now).id = req.reservationId := by
            have hkey : row.id = req.reservationId := Table.key_of_get? hrow
            unfold halfEdited
            split <;> exact hkey
          rw [hdirty, get?_commit hrow hid, EditHarmless, hedit]
          simp only [ne_eq, not_true_eq_false, false_or]
          refine or_congr ?_ Iff.rfl
          unfold halfEdited
          cases hearly : refusedEarly db row req now with
          | true => simp [flushed_assignWindow_eq_iff]
          | false =>
              rw [hearly] at hstage
              simp [flushed_assignScript_eq_iff (hstage.resolve_left Bool.false_ne_true)]

/-! ## what an edit can store -/

/-- The attributes `a` of an edit of `row` that reached the store: accepted, or
refused after they were assigned. -/
structure Patched (db : Db) (req : ModifyRequest) (actorUserId : Nat) (now : Time)
    (row : Reservation) (a : Attrs) : Prop where
  stored : db.reservations.get? req.reservationId = some row
  editable : checkEditable row req actorUserId = .ok ()
  startAt : a.startAt = (assignWindow req (.load row)).startAt
  endAt : a.endAt = (assignWindow req (.load row)).endAt
  script : req.script = none → req.scriptScheduledStartAt = none →
    (a.flushed row).script = row.script ∧
      (a.flushed row).scriptScheduledStartAt = row.scriptScheduledStartAt
  window : checkWindow db row req (assignWindow req (.load row)) now = .ok () ∨
    ((assignWindow req (.load row)).flushed row).checks = true

/-- Only a scheduled row is edited. -/
theorem status_of_checkEditable {row : Reservation} {req : ModifyRequest} {actorUserId : Nat}
    (h : checkEditable row req actorUserId = .ok ()) : row.status = .scheduled := by
  simp only [checkEditable, check_bind_eq_ok_iff, raiseIf_eq_ok_iff] at h
  simpa using h.1

theorem load_trigger (row : Reservation) :
    (Attrs.load row).scriptScheduledStartAt.map Datetime.stored = row.scriptScheduledStartAt := by
  simp only [Attrs.load, Option.map_map]
  exact Option.map_id'

theorem assignScript_window (req : ModifyRequest) (a : Attrs) :
    (assignScript req a).startAt = a.startAt ∧ (assignScript req a).endAt = a.endAt := by
  unfold assignScript
  split <;> exact ⟨rfl, rfl⟩

theorem assignScript_none {req : ModifyRequest} (h : req.script = none) (a : Attrs) :
    assignScript req a = a := by
  rw [assignScript, h]

/-- What a `PATCH` leaves in the database: nothing, a half-made edit that the
commit took along, or the edit with its audit row. -/
inductive PatchCase (db : Db) (req : ModifyRequest) (actorUserId : Nat) (now : Time) (db' : Db) :
    Prop where
  | same (eq : db' = db)
  | refused (row : Reservation) (a : Attrs) (edit : Patched db req actorUserId now row a)
      (eq : db' = db.putReservation (a.flushed row))
  | accepted (row : Reservation) (a : Attrs) (edit : Patched db req actorUserId now row a)
      (eq : db' = (db.putReservation (a.flushed row)).audit
        (reservationAudit .reservationModify (some actorUserId) (a.flushed row)))

/-- A refused edit stores nothing, or the row as it stands, if the store takes it. -/
theorem patchCase_refused {db : Db} {req : ModifyRequest} {actorUserId : Nat} {now : Time}
    {row : Reservation} {a : Attrs} (e : Failure)
    (h : (a.flushed row).checks = true → Patched db req actorUserId now row a) :
    PatchCase db req actorUserId now (getSession db ⟨some (a.flushed row), .error e⟩).1 := by
  cases e with
  | reservation e =>
      cases hchecks : (a.flushed row).checks with
      | true => exact .refused row a (h hchecks) (by simp [getSession, commit, hchecks])
      | false => exact .same (by simp [getSession, commit, hchecks])
  | typeError | integrity | assertion => exact .same rfl

/-- **What a `PATCH` stores**: nothing, or the row with some edited attributes. -/
theorem patchReservation_cases (db : Db) (req : ModifyRequest) (actorUserId : Nat) (now : Time) :
    PatchCase db req actorUserId now (patchReservation db req actorUserId now).1 := by
  unfold patchReservation modifyReservation
  cases hrow : db.reservations.get? req.reservationId with
  | none => exact .same rfl
  | some row =>
      cases hedit : checkEditable row req actorUserId with
      | error e => cases e <;> exact .same (by simp only [hedit]; rfl)
      | ok _ =>
          simp only [hedit]
          have hstart := (assignScript_window req (assignWindow req (.load row))).1
          have hend := (assignScript_window req (assignWindow req (.load row))).2
          cases hwindow : checkWindow db row req (assignWindow req (.load row)) now with
          | error e =>
              exact patchCase_refused e fun hchecks =>
                ⟨hrow, hedit, rfl, rfl, fun _ _ => ⟨rfl, load_trigger row⟩, Or.inr hchecks⟩
          | ok _ =>
              simp only
              cases hsize : checkScriptSize req with
              | error e =>
                  exact patchCase_refused e fun _ =>
                    ⟨hrow, hedit, rfl, rfl, fun _ _ => ⟨rfl, load_trigger row⟩, Or.inl hwindow⟩
              | ok _ =>
                  simp only
                  cases htrigger : checkTrigger req (assignScript req (assignWindow req (.load row))) with
                  | error e =>
                      refine patchCase_refused e fun _ =>
                        ⟨hrow, hedit, hstart, hend, fun hscript _ => ?_, Or.inl hwindow⟩
                      rw [assignScript_none hscript]
                      exact ⟨rfl, load_trigger row⟩
                  | ok trigger =>
                      simp only
                      split
                      · refine .accepted row
                          (assignTiming req trigger (assignScript req (assignWindow req (.load row))))
                          ⟨hrow, hedit, hstart, hend, fun hscript htime => ?_, Or.inl hwindow⟩ rfl
                        rw [assignScript_none hscript] at htrigger ⊢
                        have hnone : trigger = none := by
                          rw [checkTrigger, htime] at htrigger
                          exact (Except.ok.inj htrigger).symm
                        rw [hnone]
                        exact ⟨rfl, load_trigger row⟩
                      · exact .same rfl

/-- An edit that is accepted passed every check, and stores the row with the
window it names. -/
structure Accepted (db : Db) (req : ModifyRequest) (actorUserId : Nat) (now : Time)
    (row edited : Reservation) : Prop where
  stored : db.reservations.get? req.reservationId = some row
  editable : checkEditable row req actorUserId = .ok ()
  window : checkWindow db row req (assignWindow req (.load row)) now = .ok ()
  flushed : ∃ a : Attrs, edited = a.flushed row ∧
    a.startAt = (assignWindow req (.load row)).startAt ∧
    a.endAt = (assignWindow req (.load row)).endAt
  checks : edited.checks = true

theorem modifyReservation_ok {db db' : Db} {req : ModifyRequest} {actorUserId : Nat} {now : Time}
    (h : (modifyReservation db req actorUserId now).result = .ok db') :
    ∃ row edited, Accepted db req actorUserId now row edited ∧
      db' = db.write edited [reservationAudit .reservationModify (some actorUserId) edited] := by
  unfold modifyReservation at h
  split at h
  · cases h
  next row hrow =>
  split at h
  · cases h
  next hedit =>
  dsimp only at h
  split at h
  · cases h
  next hwindow =>
  split at h
  · cases h
  split at h
  · cases h
  next trigger htrigger =>
  split at h
  · next hchecks =>
      have hscript := assignScript_window req (assignWindow req (.load row))
      exact ⟨row, _, ⟨hrow, hedit, hwindow, ⟨assignTiming req trigger _, rfl,
        hscript.1, hscript.2⟩, hchecks⟩,
        (Except.ok.inj h).symm⟩
  · cases h

/-! ## a refused edit that is stored -/

/-- A reservation of the small lab's card for its owner. -/
def ownedHour (id : Nat) (startHour endHour : Int) : Reservation :=
  { id := id, userId := 41, serverId := 1, gpuId := some 11, accountLinkId := 31
    groupId := some "g", startAt := startHour * hourMicros, endAt := endHour * hourMicros
    status := .scheduled, gpuMemoryMb := none, gpuComputeSharePct := none, script := none
    scriptScheduledStartAt := none, scriptMaxRuntimeSeconds := none }

/-- Two exclusive hours, one after the other. -/
def twoHours : Db := smallLab ⟨[ownedHour 1 1 2, ownedHour 2 2 3], by decide⟩

/-- Move the start of the second hour to `startHour`. -/
def moveSecond (startHour : Int) : ModifyRequest :=
  { reservationId := 2, startAt := some (.ofStored (startHour * hourMicros)) }

/-- A move past the end of the hour is refused twice: by the service, and by
the store when the half-edited row is committed. -/
theorem patchReservation_unchanged_iff_reversed :
    ∃ e, (modifyReservation twoHours (moveSecond 5) 41 0).result = .error (.reservation e) ∧
      ((patchReservation twoHours (moveSecond 5) 41 0).1.reservations.get? 2 =
          twoHours.reservations.get? 2 ↔
        ∀ row, twoHours.reservations.get? 2 = some row →
          EditHarmless twoHours row (moveSecond 5) 41 0) := by
  have hrefused : (modifyReservation twoHours (moveSecond 5) 41 0).result =
      .error (.reservation _) := rfl
  exact ⟨_, hrefused, patchReservation_unchanged_iff hrefused⟩

/-- Moving the second hour onto the first is refused as a conflict, and stored. -/
theorem patchReservation_stores_refused :
    ¬ ∀ (db : Db) (req : ModifyRequest) (actorUserId : Nat) (now : Time) (e : ReservationError),
        (modifyReservation db req actorUserId now).result = .error (.reservation e) →
        (patchReservation db req actorUserId now).1.reservations.get? req.reservationId =
          db.reservations.get? req.reservationId := by
  intro h
  have hstored := h twoHours (moveSecond 1) 41 0 _ rfl
  have hstart := congrArg (Option.map Reservation.startAt) hstored
  revert hstart
  decide

end CoreLab
