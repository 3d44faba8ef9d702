import CoreLab.Lib.Transition
import CoreLab.Scheduler
import CoreLab.ScriptLifecycle

/-!
# CoreLab.CancelRace

One `DELETE /reservations/{id}` request, interleaved with committed scheduler
ticks and with the agent's script events.  The request reads the row without a
lock, decides on that snapshot whether a script has to be stopped first, and
cancels under a lock later.

* `Settled` — what the request may rely on once it took the plain branch;
* `cancel_confirmed` — a cancel that leaves a running script behind had its
  kill confirmed, as long as the script does not start between the snapshot and
  the locked read.
-/

namespace CoreLab

open Relational Transition

namespace CancelRace

/-! ## the request and its surroundings -/

/-- The parameters of the request. -/
structure CancelRequest where
  reservationId : Nat
  actorUserId : Nat
  actorCanAdmin : Bool
  reason : Option String

/-- Where the request is. -/
inductive Phase where
  | received
  /-- The snapshot showed no running script. -/
  | plain
  /-- The cancel RPC is on its way. -/
  | stopping
  /-- The RPC is acknowledged; the request waits for the kill. -/
  | waiting
  | answered
deriving DecidableEq, Repr

/-- `confirmed` records whether a killed finish of the reservation arrived while
the request had its waiter registered; no step reads it. -/
structure World where
  db : Db
  kills : PendingKills
  phase : Phase
  confirmed : Bool

/-- One atomic step. -/
inductive Action where
  | snapshot
  | rpcFails
  | rpcBreaks
  | rpcAcked
  | waitTimesOut
  | lockAndCancel (now : Time)
  | tick (now : Time)
  | started (e : ScriptStartedEvent)
  | outputChunk (e : ScriptOutputChunkEvent)
  | finished (e : ScriptFinishedEvent)

/-- The waiter of the request is registered. -/
def Phase.registered : Phase → Bool
  | stopping | waiting => true
  | received | plain | answered => false

/-- `reservation.cancel.attempt_failed`. -/
def attemptFailed (req : CancelRequest) (db : Db) : Db :=
  db.audit
    { action := .reservationCancelAttemptFailed, actorUserId := some req.actorUserId
      targetType := .reservation, targetId := some req.reservationId
      targetServerId := (db.reservations.get? req.reservationId).map (·.serverId) }

/-- The answer is sent; a registered waiter is discarded. -/
def answer (req : CancelRequest) (w : World) (db : Db) : World :=
  { w with
    db := db, phase := .answered
    kills := if w.phase.registered then w.kills.discard req.reservationId else w.kills }

/-- The `session.get` snapshot and the branch on it. -/
def readSnapshot (req : CancelRequest) (w : World) : World :=
  match w.db.reservations.get? req.reservationId with
  | none => { w with phase := .answered }
  | some row =>
    if row.status = .active ∧ row.scriptStatus = some .running then
      { w with
        phase := .stopping, kills := w.kills.register req.reservationId, confirmed := false }
    else { w with phase := .plain }

/-- `reservation_service.cancel_reservation` and the commit; a refusal is answered too. -/
def lockAndCancel (req : CancelRequest) (w : World) (now : Time) : World :=
  match cancelReservation w.db req.reservationId req.actorUserId req.actorCanAdmin req.reason now with
  | .ok db => answer req w db
  | .error _ => answer req w w.db

/-- One step; `none` where the request is not at that point. -/
def step (req : CancelRequest) (w : World) : Action → Option World
  | .snapshot => if w.phase = .received then some (readSnapshot req w) else none
  | .rpcFails =>
    if w.phase = .stopping then some (answer req w (attemptFailed req w.db)) else none
  | .rpcBreaks => if w.phase = .stopping then some (answer req w w.db) else none
  | .rpcAcked => if w.phase = .stopping then some { w with phase := .waiting } else none
  | .waitTimesOut =>
    if w.phase = .waiting then some (answer req w (attemptFailed req w.db)) else none
  | .lockAndCancel now =>
    if w.phase = .plain ∨ w.phase = .waiting ∧ w.kills.isSignalled req.reservationId = true then
      some (lockAndCancel req w now)
    else none
  | .tick now =>
    match tickBody w.db now with
    | .ok s => some { w with db := s.db }
    | .error _ => some w
  | .started e =>
    match onScriptStarted w.db e with
    | .ok db => some { w with db := db }
    | .error _ => some w
  | .outputChunk e => some { w with db := onScriptOutputChunk w.db e }
  | .finished e =>
    match onScriptFinished w.db w.kills e with
    | .ok (db, kills) => some { w with
        db := db, kills := kills
        confirmed := w.confirmed || (w.phase.registered && e.killedByCorelab &&
          decide (e.reservationId = (req.reservationId : Int))) }
    | .error _ => some w

/-! ## the property and the window -/

/-- A step that cancels the row while its script is marked running comes after
a kill of the script was confirmed to this request. -/
def Confirmed (req : CancelRequest) (w : World) (a : Action) (w' : World) : Prop :=
  match a with
  | .lockAndCancel _ => ∀ r r', w.db.reservations.get? req.reservationId = some r →
      w'.db.reservations.get? req.reservationId = some r' → r.status ≠ .cancelled →
      r'.status = .cancelled → r'.scriptStatus = some .running →
        w.phase = .waiting ∧ w.confirmed = true
  | _ => True

/-- No script starts behind the request's back: the snapshot does not find a
script running on a row that is not active yet, and while the request is past a
plain snapshot no tick dispatches the row and no start turns it running. -/
def NoLateStart (req : CancelRequest) (w : World) : Action → Prop
  | .snapshot => ∀ r, w.db.reservations.get? req.reservationId = some r →
      r.scriptStatus = some .running → r.status ≠ .scheduled
  | .tick now => w.phase = .plain → ∀ r, w.db.reservations.get? req.reservationId = some r →
      firstDispatch w.db now r = false
  | .started e => w.phase = .plain → e.reservationId = (req.reservationId : Int) →
      ∀ r, w.db.reservations.get? req.reservationId = some r → r.occupies = true →
        r.scriptStatus ≠ none
  | _ => True

instance (req : CancelRequest) : ∀ w a, Decidable (NoLateStart req w a)
  | w, .snapshot => inferInstanceAs (Decidable (∀ r ∈ w.db.reservations.get? req.reservationId,
      r.scriptStatus = some .running → r.status ≠ .scheduled))
  | w, .tick now => inferInstanceAs (Decidable (w.phase = .plain →
      ∀ r ∈ w.db.reservations.get? req.reservationId, firstDispatch w.db now r = false))
  | w, .started e => inferInstanceAs (Decidable (w.phase = .plain →
      e.reservationId = (req.reservationId : Int) →
        ∀ r ∈ w.db.reservations.get? req.reservationId, r.occupies = true → r.scriptStatus ≠ none))
  | _, .rpcFails | _, .rpcBreaks | _, .rpcAcked | _, .waitTimesOut | _, .lockAndCancel _
  | _, .outputChunk _ | _, .finished _ => .isTrue True.intro

/-- What the plain branch relies on: a row it may still cancel runs no script. -/
def Settled (req : CancelRequest) (db : Db) : Prop :=
  ∀ r, db.reservations.get? req.reservationId = some r → r.scriptStatus = some .running →
    r.occupies = false

/-- The invariant of a run. -/
structure Inv (req : CancelRequest) (w : World) : Prop where
  settled : w.phase = .plain → Settled req w.db
  /-- A signalled waiter of the request had a kill confirmed. -/
  signalled : w.phase.registered = true → w.kills.isSignalled req.reservationId = true →
    w.confirmed = true

/-! ## the invariant -/

variable {req : CancelRequest}

/-- A rewritten row settles as long as it does so itself. -/
theorem Settled.write {db : Db} {row : Reservation} {entries : List AuditEntry}
    (h : Settled req db)
    (hrow : row.id = req.reservationId → row.scriptStatus = some .running → row.occupies = false) :
    Settled req (db.write row entries) := by
  intro r hr
  rw [Db.reservations_write, Table.get?_put] at hr
  split at hr
  · next hid =>
      obtain ⟨_, -, rfl⟩ := Option.map_eq_some_iff.mp hr
      exact hrow hid
  · exact h r hr

theorem Settled.tick {db : Db} {now : Time} {s : TickSession} (h : Settled req db)
    (hs : TickResult db now s)
    (hok : ∀ r, db.reservations.get? req.reservationId = some r → firstDispatch db now r = false) :
    Settled req s.db := by
  intro r' hr' hrunning
  rw [hs.get?] at hr'
  obtain ⟨r, hr, rfl⟩ := Option.map_eq_some_iff.mp hr'
  have hfirst := hok r hr
  have hbefore : r.scriptStatus = some .running := by
    cases tickCase db now r with
    | dispatched hd _ _ => rw [hfirst] at hd; cases hd
    | retried _ row _ => rw [row] at hrunning; simpa using hrunning
    | gaveUp _ row _ => rw [row] at hrunning; simpa [failedRow] using hrunning
    | healed _ row _ => rw [row] at hrunning; simpa using hrunning
    | idle row _ => rw [row] at hrunning; simpa using hrunning
  exact tickRow_not_occupies (h r hr hbefore)

theorem Settled.started {db db' : Db} {e : ScriptStartedEvent} (h : Settled req db)
    (he : StartedCase db e db')
    (hok : e.reservationId = (req.reservationId : Int) →
      ∀ r, db.reservations.get? req.reservationId = some r → r.occupies = true →
        r.scriptStatus ≠ none) : Settled req db' := by
  cases he with
  | unknown _ eq => exact eq ▸ h
  | stale _ _ _ eq => exact eq ▸ h
  | recorded row row' entries hrow live booking running _ _ _ _ eq =>
      obtain ⟨hkey, hget⟩ := findReservation_eq_some hrow
      rw [eq]
      refine h.write fun hid _ => ?_
      rw [booking.id] at hid
      rw [hid] at hget hkey
      have hstatus : row'.occupies = row.occupies := congrArg ReservationStatus.occupies booking.status
      rw [hstatus]
      cases hocc : row.occupies with
      | false => rfl
      | true =>
          rcases live with hnone | hrunning
          · exact absurd hnone (hok hkey.symm row hget hocc)
          · exact hocc ▸ h row hget hrunning

theorem Settled.finished {db db' : Db} {kills kills' : PendingKills} {e : ScriptFinishedEvent}
    (h : Settled req db) (he : FinishedCase db kills e db' kills') : Settled req db' := by
  cases he with
  | unknown _ eq _ => exact eq ▸ h
  | stale _ _ _ eq _ => exact eq ▸ h
  | ended row row' entries _ _ _ status _ _ eq _ =>
      rw [eq]
      refine h.write fun _ hrunning => ?_
      rw [status, Option.some.injEq] at hrunning
      exact absurd hrunning (newStatus_ne_running e)

theorem Settled.outputChunk {db : Db} (h : Settled req db) (e : ScriptOutputChunkEvent) :
    Settled req (onScriptOutputChunk db e) := by
  rcases onScriptOutputChunk_cases db e with heq | ⟨row, row', hrow, -, hbooking, hscript, -, heq⟩
  · exact heq.symm ▸ h
  · obtain ⟨-, hget⟩ := findReservation_eq_some hrow
    rw [heq]
    refine h.write fun hid hrunning => ?_
    rw [hbooking.id] at hid
    rw [hid] at hget
    have hbefore := h row hget (hscript ▸ hrunning)
    rw [Reservation.occupies, hbooking.status]
    exact hbefore

/-- A finished frame signals the waiter only with a kill of its reservation. -/
theorem signalled_finished {db db' : Db} {kills kills' : PendingKills} {e : ScriptFinishedEvent}
    {id : Nat} (h : FinishedCase db kills e db' kills') (hs : kills'.isSignalled id = true) :
    kills.isSignalled id = true ∨ e.killedByCorelab = true ∧ e.reservationId = (id : Int) := by
  rcases h.kills_eq with rfl | rfl
  · exact Or.inl hs
  · exact isSignalled_killsAfter hs

/-- An answered request relies on nothing. -/
theorem inv_answer (w : World) (db : Db) : Inv req (answer req w db) :=
  ⟨fun h => (nomatch h), fun h => (nomatch h)⟩

theorem inv_snapshot {w : World} (hok : NoLateStart req w .snapshot) :
    Inv req (readSnapshot req w) := by
  unfold readSnapshot
  split
  · exact ⟨fun h => (nomatch h), fun h => (nomatch h)⟩
  · next row hrow =>
      split
      · refine ⟨fun h => (nomatch h), fun _ hs => ?_⟩
        rw [PendingKills.isSignalled_register] at hs
        cases hs
      · next hplain =>
          refine ⟨fun _ r hr hrunning => ?_, fun h => (nomatch h)⟩
          rw [hrow, Option.some.injEq] at hr
          subst hr
          have hscheduled := hok row hrow hrunning
          have hactive : row.status ≠ .active := fun h => hplain ⟨h, hrunning⟩
          unfold Reservation.occupies
          cases h : row.status <;> simp_all [ReservationStatus.occupies]

/-- **The invariant** is kept by every step through which no script starts late. -/
theorem inv_step {w w' : World} {a : Action} (hw : Inv req w) (hok : NoLateStart req w a)
    (h : step req w a = some w') : Inv req w' := by
  cases a with
  | snapshot =>
      simp only [step, Option.ite_none_right_eq_some, Option.some.injEq] at h
      exact h.2 ▸ inv_snapshot hok
  | rpcFails =>
      simp only [step, Option.ite_none_right_eq_some, Option.some.injEq] at h
      exact h.2 ▸ inv_answer w _
  | rpcBreaks =>
      simp only [step, Option.ite_none_right_eq_some, Option.some.injEq] at h
      exact h.2 ▸ inv_answer w _
  | rpcAcked =>
      simp only [step, Option.ite_none_right_eq_some, Option.some.injEq] at h
      obtain ⟨hphase, rfl⟩ := h
      exact ⟨fun h => (nomatch h), fun _ hs => hw.signalled (by rw [hphase]; rfl) hs⟩
  | waitTimesOut =>
      simp only [step, Option.ite_none_right_eq_some, Option.some.injEq] at h
      exact h.2 ▸ inv_answer w _
  | lockAndCancel now =>
      simp only [step, Option.ite_none_right_eq_some, Option.some.injEq] at h
      rw [← h.2]
      unfold lockAndCancel
      split <;> exact inv_answer w _
  | tick now =>
      simp only [step] at h
      split at h
      · next s hs =>
          obtain rfl := Option.some.inj h
          exact ⟨fun hplain => (hw.settled hplain).tick (tickBody_ok hs) (hok hplain), hw.signalled⟩
      · exact Option.some.inj h ▸ hw
  | started e =>
      simp only [step] at h
      split at h
      · next db hdb =>
          obtain rfl := Option.some.inj h
          exact ⟨fun hplain => (hw.settled hplain).started (onScriptStarted_ok hdb) (hok hplain),
            hw.signalled⟩
      · exact Option.some.inj h ▸ hw
  | outputChunk e =>
      obtain rfl := Option.some.inj h
      exact ⟨fun hplain => (hw.settled hplain).outputChunk e, hw.signalled⟩
  | finished e =>
      simp only [step] at h
      split at h
      · next db kills hdb =>
          obtain rfl := Option.some.inj h
          have hcase := onScriptFinished_ok hdb
          refine ⟨fun hplain => (hw.settled hplain).finished hcase, fun hreg hs => ?_⟩
          rcases signalled_finished hcase hs with hbefore | ⟨hkilled, hid⟩
          · simp [hw.signalled hreg hbefore]
          · have hreg' : w.phase.registered = true := hreg
            simp [hreg', hkilled, hid]
      · exact Option.some.inj h ▸ hw

/-! ## no cancel leaves a running script behind -/

/-- A cancel of a settled row does not leave a running script. -/
theorem confirmed_step {w w' : World} {a : Action} (hw : Inv req w)
    (h : step req w a = some w') : Confirmed req w a w' := by
  cases a with
  | lockAndCancel now =>
      intro r r' hr hr' hbefore hafter hrunning
      simp only [step, Option.ite_none_right_eq_some, Option.some.injEq] at h
      obtain ⟨hphase, rfl⟩ := h
      rcases hphase with hplain | ⟨hwaiting, hsignalled⟩
      · exfalso
        unfold lockAndCancel at hr'
        split at hr'
        · next db hdb =>
            obtain ⟨q, q', hq, hocc, hq', -, hscript⟩ := cancelReservation_row hdb
            obtain rfl : r = q := Option.some.inj (hr.symm.trans hq)
            obtain rfl : r' = q' := Option.some.inj (hr'.symm.trans hq')
            rw [hw.settled hplain r hr (hscript ▸ hrunning)] at hocc
            cases hocc
        · simp only [answer] at hr'
          rw [hr, Option.some.injEq] at hr'
          exact hbefore (hr' ▸ hafter)
      · exact ⟨hwaiting, hw.signalled (by rw [hwaiting]; rfl) hsignalled⟩
  | _ => exact True.intro

/-- **Cancelling never orphans a running script** in any interleaving in which
no script starts between a plain snapshot and the locked read: a cancel that
commits on a row whose script is marked running had the kill confirmed. -/
theorem cancel_confirmed {w : World} {as : List Action} (hw : w.phase = .received)
    (hok : Meets (step req) (NoLateStart req) w as) : Along (step req) (Confirmed req) w as := by
  have hinit : Inv req w := by
    refine ⟨fun h => ?_, fun h => ?_⟩
    · rw [hw] at h; cases h
    · rw [hw] at h; cases h
  exact along_of_invariant (fun s a t hs hok ht => ⟨inv_step hs hok ht, confirmed_step hs ht⟩)
    hinit hok

/-- The owner cancels the reservation. -/
def cancelDue : CancelRequest :=
  { reservationId := 7, actorUserId := 41, actorCanAdmin := false, reason := none }

/-- The request arrives. -/
def receivedWorld : World :=
  { db := smallLab (.single dueScript), kills := [], phase := .received, confirmed := false }

/-- The script runs, is stopped and confirmed, and the row cancelled. -/
def stopFirst : List Action :=
  [.tick 0, .started { reservationId := 7, startedAt := .ofStored 1, logPath := none }, .snapshot,
   .rpcAcked, .tick (61 * secondMicros),
   .finished { reservationId := 7, exitCode := some (-15), finishedAt := .ofStored 2
               outputSizeBytes := 0, logPath := none, killedByCorelab := true },
   .lockAndCancel (62 * secondMicros)]

theorem cancel_confirmed_stopFirst :
    (exec (step cancelDue) receivedWorld stopFirst).map
        (fun w => (w.db.reservations.rows.map (·.status), w.confirmed)) =
      some ([.cancelled], true) ∧
    Along (step cancelDue) (Confirmed cancelDue) receivedWorld stopFirst :=
  ⟨by decide, cancel_confirmed rfl (by decide)⟩

/-- A tick dispatches the due script between the snapshot and the locked read. -/
theorem cancel_orphans : ¬ ∀ (req : CancelRequest) (w : World) (as : List Action),
    w.phase = .received → Along (step req) (Confirmed req) w as := by
  intro h
  have halong := h cancelDue receivedWorld ([.snapshot, .tick 0] ++ [.lockAndCancel 1]) rfl
  obtain ⟨w, hw, hphase, r, hr, hstatus⟩ : ∃ w,
      exec (step cancelDue) receivedWorld [.snapshot, .tick 0] = some w ∧ w.phase = .plain ∧
        ∃ r, w.db.reservations.get? 7 = some r ∧ r.status ≠ .cancelled :=
    ⟨_, rfl, rfl, _, rfl, by decide⟩
  obtain ⟨w', hw', r', hr', hcancelled, hrunning⟩ : ∃ w',
      step cancelDue w (.lockAndCancel 1) = some w' ∧
        ∃ r', w'.db.reservations.get? 7 = some r' ∧ r'.status = .cancelled ∧
          r'.scriptStatus = some .running := by
    obtain rfl := Option.some.inj hw
    exact ⟨_, rfl, _, rfl, rfl, rfl⟩
  have hconfirmed := halong.step_of_exec hw hw'
  have hwaiting := (hconfirmed r r' hr hr' hstatus hcancelled hrunning).1
  rw [hphase] at hwaiting
  cases hwaiting

end CancelRace

end CoreLab
