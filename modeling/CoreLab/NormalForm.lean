import CoreLab.Scheduler

/-!
# CoreLab.NormalForm

The table a tick leaves has nothing more to do at the time of the tick: no row
is due to start, to end, to be dispatched or to be reaped, and what was queued
is running in its window.

* `settled_tickRow` — the four stages, one after the other, settle a row;
* `tickBody_total` — a tick commits;
* `tickBody_settled` — a tick of a settled table does nothing;
* `tickBody_normalForm` — the normal form, from rows whose dispatch markers are
  as `markScriptDispatched` leaves them.
-/

namespace CoreLab

open Relational Loops

/-! ## the tables a tick is made for -/

/-- The foreign keys of the reservations, as far as a tick follows them. -/
structure Referenced (db : Db) : Prop where
  server : ∀ r ∈ db.reservations, hasServer db r = true
  account : ∀ r ∈ db.reservations, (linuxUsernameOf db r.accountLinkId).isSome = true

/-- A dispatch marker is on a row with a script that was due when it was set. -/
def MarkerValid (r : Reservation) : Prop :=
  ∀ m, r.scriptDispatchStartedAt = some m →
    r.script.isSome = true ∧ ∃ t, r.scriptScheduledStartAt = some t ∧ t ≤ m

/-- A tick at `now` has nothing to do with the row. -/
structure Settled (now : Time) (r : Reservation) : Prop where
  start : dueToStart now r = false
  finish : dueToEnd now r = false
  dispatch : dueToDispatch now r = false
  watchdog : stuck now r = false

/-! ## the stages settle a row -/

section Row

variable {db : Db} {now : Time} {r : Reservation}

theorem dueToStart_of_status (h : r.status ≠ .scheduled) : dueToStart now r = false := by
  simp [dueToStart, h]

theorem dueToEnd_of_status (h : r.status ≠ .active) : dueToEnd now r = false := by
  simp [dueToEnd, h]

/-- A row that is neither scheduled nor active is settled. -/
theorem settled_of_not_occupies (h : r.occupies = false) : Settled now r := by
  have hstatus : r.status ≠ .scheduled ∧ r.status ≠ .active := by
    constructor
    · intro hs
      simp [Reservation.occupies, hs, ReservationStatus.occupies] at h
    · intro hs
      simp [Reservation.occupies, hs, ReservationStatus.occupies] at h
  constructor
  · exact dueToStart_of_status hstatus.1
  · exact dueToEnd_of_status hstatus.2
  · simp [dueToDispatch, hstatus.2]
  · simp [stuck, hstatus.2]

theorem dueToStart_promoted (hs : hasServer db r = true) :
    dueToStart now (rowAfter (promoteEffect db now) r) = false := by
  unfold rowAfter promoteEffect
  cases hdue : dueToStart now r with
  | true => simp [hs, dueToStart]
  | false => simpa using hdue

/-- Closing settles a row that is not due to start. -/
theorem due_closed (hs : hasServer db r = true) (hstart : dueToStart now r = false) :
    dueToStart now (rowAfter (closeEffect db now) r) = false ∧
      dueToEnd now (rowAfter (closeEffect db now) r) = false := by
  unfold rowAfter closeEffect
  cases hdue : dueToEnd now r with
  | true =>
      have hclosed : Settled now (closedRow r) := settled_of_not_occupies (not_occupies_closedRow r)
      simpa [hs] using ⟨hclosed.start, hclosed.finish⟩
  | false => simpa using ⟨hstart, hdue⟩

theorem due_rowAtDispatch (db : Db) (now : Time) {r : Reservation} (hs : hasServer db r = true) :
    dueToStart now (rowAtDispatch db now r) = false ∧
      dueToEnd now (rowAtDispatch db now r) = false := by
  refine due_closed ?_ (dueToStart_promoted hs)
  unfold rowAfter promoteEffect
  split <;> exact hs

/-- Dispatching settles a row but for the watchdog. -/
theorem due_rowAtWatchdog (db : Db) (now : Time) {r : Reservation} (hs : hasServer db r = true)
    (hu : (linuxUsernameOf db r.accountLinkId).isSome = true) :
    dueToStart now (rowAtWatchdog db now r) = false ∧
      dueToEnd now (rowAtWatchdog db now r) = false ∧
        dueToDispatch now (rowAtWatchdog db now r) = false := by
  obtain ⟨hstart, hend⟩ := due_rowAtDispatch db now hs
  unfold rowAtWatchdog rowAfter
  cases hdue : dueToDispatch now (rowAtDispatch db now r) with
  | true =>
      rw [dispatchEffect_due hdue (by simpa using hs) (by simpa using hu)]
      exact ⟨hstart, hend, by simp [dueToDispatch]⟩
  | false =>
      rw [dispatchEffect_idle (by simp [hdue])]
      exact ⟨hstart, hend, hdue⟩

/-- The watchdog settles a row that has nothing else to do. -/
theorem settled_watched (hs : hasServer db r = true)
    (hu : (linuxUsernameOf db r.accountLinkId).isSome = true) (hstart : dueToStart now r = false)
    (hend : dueToEnd now r = false) (hdispatch : dueToDispatch now r = false) :
    Settled now (rowAfter (watchdogEffect db now) r) := by
  unfold rowAfter
  cases hstuck : stuck now r with
  | false =>
      rw [watchdogEffect_idle (by simp [hstuck])]
      exact ⟨hstart, hend, hdispatch, hstuck⟩
  | true =>
      have hboth : (stuck now r && hasServer db r) = true := by simp [hstuck, hs]
      have hrunning : r.scriptStatus = some .running := by
        simp only [stuck, Bool.and_eq_true, decide_eq_true_eq] at hstuck
        exact hstuck.1.2
      cases hseen : lifecycleStartedSeen db r.id with
      | true =>
          -- without its marker the row is not looked at again
          rw [watchdogEffect_heal hboth hseen]
          exact ⟨hstart, hend, hdispatch, by simp [stuck]⟩
      | false =>
          by_cases hmany : watchdogMaxDispatchAttempts ≤ countDispatchFailures db r.id
          · rw [watchdogEffect_giveUp hboth hseen hmany]
            exact settled_of_not_occupies rfl
          · rw [watchdogEffect_retry hboth hseen (not_le.mp hmany) hu]
            refine ⟨hstart, hend, hdispatch, ?_⟩
            have hnew := stuck_dispatched now r
            simp only [stuck, hrunning] at hnew ⊢
            exact hnew

/-- **A tick settles every row** whose server and account are there. -/
theorem settled_tickRow (hs : hasServer db r = true)
    (hu : (linuxUsernameOf db r.accountLinkId).isSome = true) :
    Settled now (tickRow db now r) := by
  have hkeys : (rowAtWatchdog db now r).serverId = r.serverId ∧
      (rowAtWatchdog db now r).accountLinkId = r.accountLinkId := by
    unfold rowAtWatchdog rowAfter dispatchEffect
    split
    · cases linuxUsernameOf db (rowAtDispatch db now r).accountLinkId <;> simp
    · simp
  obtain ⟨hstart, hend, hdispatch⟩ := due_rowAtWatchdog db now hs hu
  refine settled_watched ?_ ?_ hstart hend hdispatch
  · rwa [hasServer, hkeys.1, ← hasServer]
  · rwa [hkeys.2]

/-- The marker of a dispatched row is set with its script due. -/
theorem markerValid_rowAtWatchdog (hm : MarkerValid r) : MarkerValid (rowAtWatchdog db now r) := by
  have hbefore : MarkerValid (rowAtDispatch db now r) := by
    simpa [MarkerValid] using hm
  unfold rowAtWatchdog rowAfter dispatchEffect
  split
  · next hdue =>
      cases linuxUsernameOf db (rowAtDispatch db now r).accountLinkId with
      | none => exact hbefore
      | some u =>
          simp only [Bool.and_eq_true, dueToDispatch, decide_eq_true_eq] at hdue
          obtain ⟨⟨⟨⟨-, hscript⟩, htrigger⟩, -⟩, -⟩ := hdue
          intro m hmarker
          obtain rfl : now = m := Option.some.inj hmarker
          refine ⟨hscript, ?_⟩
          obtain ⟨t, ht, hle⟩ := (Option.any_eq_true _ _).mp htrigger
          exact ⟨t, ht, of_decide_eq_true hle⟩
  · exact hbefore

end Row

/-! ## a tick commits -/

theorem assertTransitionAllowed_of_allows {current target : ReservationStatus}
    (h : current.allows target = true) : assertTransitionAllowed current target = .ok () := by
  rw [assertTransitionAllowed, raiseIf_eq_ok_iff, h]
  rfl

theorem transitionToActive_total (db : Db) {r : Reservation} (h : r.status = .scheduled) :
    ∃ db', transitionToActive db r = .ok db' := by
  have hallowed : assertTransitionAllowed r.status .active = .ok () :=
    assertTransitionAllowed_of_allows (by rw [h]; rfl)
  exact ⟨_, by rw [transitionToActive, hallowed]; rfl⟩

theorem transitionToFailed_total (db : Db) {r : Reservation} (reason : String)
    (h : r.status = .active) : ∃ db', transitionToFailed db r reason = .ok db' := by
  have hallowed : assertTransitionAllowed r.status .failed = .ok () :=
    assertTransitionAllowed_of_allows (by rw [h]; rfl)
  exact ⟨_, by rw [transitionToFailed, hallowed]; rfl⟩

theorem transitionToCompleted_total (db : Db) {r : Reservation} (h : r.status = .active) :
    ∃ db', transitionToCompleted db r = .ok db' := by
  have hallowed : assertTransitionAllowed r.status .completed = .ok () :=
    assertTransitionAllowed_of_allows (by rw [h]; rfl)
  exact ⟨_, by rw [transitionToCompleted, hallowed]; rfl⟩

theorem closeRow_total (db : Db) {r : Reservation} (h : r.status = .active) :
    ∃ db', closeRow db r = .ok db' := by
  unfold closeRow
  split
  · exact transitionToFailed_total db _ h
  · exact transitionToFailed_total db _ h
  · exact transitionToCompleted_total db h

theorem markScriptDispatched_total (db : Db) {r : Reservation} (now : Time)
    (h : r.status = .active) (hfresh : r.scriptStatus = none) :
    ∃ db', markScriptDispatched db r now = .ok db' := by
  refine ⟨db.write { r with scriptStatus := some .running, scriptDispatchStartedAt := some now }
    [reservationAudit .scriptDispatched none r], ?_⟩
  simp only [markScriptDispatched, check_bind_eq_ok_iff, raiseIf_eq_ok_iff]
  exact ⟨by simp [h], by simp [hfresh], rfl⟩

theorem buildExecutePayload_total {r : Reservation} (linuxUsername : String)
    (h : r.script.isSome = true) : ∃ p, buildExecutePayload r linuxUsername = .ok p := by
  obtain ⟨script, hscript⟩ := Option.isSome_iff_exists.mp h
  exact ⟨_, by rw [buildExecutePayload, hscript]⟩

theorem promoteDueScheduled_total (s : TickSession) (now : Time) :
    ∃ t, promoteDueScheduled s now = .ok t := by
  apply foldlM_total
  intro r hr u
  have hdue := (List.mem_filter.mp hr).2
  simp only [dueToStart, Bool.and_eq_true, decide_eq_true_eq] at hdue
  cases serverLabId u.db r.serverId with
  | none => exact ⟨u, rfl⟩
  | some _ =>
      obtain ⟨db, hdb⟩ := transitionToActive_total u.db hdue.1
      exact ⟨{ u with db := db }, by simp [hdb, bind_eq_ok_iff]⟩

theorem closeDueActive_total (s : TickSession) (now : Time) :
    ∃ t, closeDueActive s now = .ok t := by
  apply foldlM_total
  intro r hr u
  have hdue := (List.mem_filter.mp hr).2
  simp only [dueToEnd, Bool.and_eq_true, decide_eq_true_eq] at hdue
  cases serverLabId u.db r.serverId with
  | none => exact ⟨u, rfl⟩
  | some _ =>
      obtain ⟨db, hdb⟩ := closeRow_total u.db hdue.1
      exact ⟨{ u with db := db }, by simp [hdb, bind_eq_ok_iff]⟩

theorem dispatchDueScripts_total (s : TickSession) (now : Time) :
    ∃ t, dispatchDueScripts s now = .ok t := by
  apply foldlM_total
  rintro ⟨r, linuxUsername⟩ hr u
  dsimp only
  have hdue : dueToDispatch now r = true := by
    obtain ⟨q, -, hq⟩ := List.mem_filterMap.mp hr
    split at hq
    · next hdue =>
        obtain ⟨_, -, heq⟩ := Option.map_eq_some_iff.mp hq
        exact (Prod.mk.inj heq).1 ▸ hdue
    · cases hq
  simp only [dueToDispatch, Bool.and_eq_true, decide_eq_true_eq, Option.isNone_iff_eq_none] at hdue
  obtain ⟨⟨⟨hactive, hscript⟩, -⟩, hfresh⟩ := hdue
  cases serverLabId u.db r.serverId with
  | none => exact ⟨u, rfl⟩
  | some _ =>
      obtain ⟨db, hdb⟩ := markScriptDispatched_total u.db now hactive hfresh
      obtain ⟨p, hp⟩ := buildExecutePayload_total linuxUsername hscript
      exact ⟨{ db := db, pending := u.pending ++ [⟨r.id, r.serverId, p⟩] },
        by simp [hdb, hp, bind_eq_ok_iff]⟩

theorem retryStuckDispatch_total (s : TickSession) (now : Time) {r : Reservation}
    (hactive : r.status = .active) (hscript : r.script.isSome = true) :
    ∃ t, retryStuckDispatch s now r = .ok t := by
  unfold retryStuckDispatch
  split
  · exact ⟨_, rfl⟩
  · split
    · obtain ⟨db, hdb⟩ := transitionToFailed_total s.db giveUpReason hactive
      exact ⟨{ s with db := db }, by simp [hdb, bind_eq_ok_iff]⟩
    · cases linuxUsernameOf s.db r.accountLinkId with
      | none => exact ⟨s, rfl⟩
      | some u =>
          obtain ⟨p, hp⟩ := buildExecutePayload_total u hscript
          exact ⟨_, by simp only [hp, bind_eq_ok_iff]; exact ⟨p, rfl, rfl⟩⟩

theorem retryStuckDispatches_total (s : TickSession) (now : Time)
    (hm : ∀ r ∈ s.db.reservations, MarkerValid r) : ∃ t, retryStuckDispatches s now = .ok t := by
  apply foldlM_total
  intro r hr u
  obtain ⟨hmem, hstuck⟩ := List.mem_filter.mp hr
  simp only [stuck, Bool.and_eq_true, decide_eq_true_eq] at hstuck
  obtain ⟨⟨hactive, -⟩, hmarker⟩ := hstuck
  obtain ⟨m, hm', -⟩ := (Option.any_eq_true _ _).mp hmarker
  cases serverLabId u.db r.serverId with
  | none => exact ⟨u, rfl⟩
  | some _ => exact retryStuckDispatch_total u now hactive (hm r hmem m hm').1

/-- **A tick commits** where the dispatch markers are valid: no transition is
refused, and every script that is sent again is there. -/
theorem tickBody_total {db : Db} (now : Time) (hm : ∀ r ∈ db.reservations, MarkerValid r) :
    ∃ s, tickBody db now = .ok s := by
  obtain ⟨s1, h1⟩ := promoteDueScheduled_total { db := db, pending := [] } now
  obtain ⟨s2, h2⟩ := closeDueActive_total s1 now
  obtain ⟨s3, h3⟩ := dispatchDueScripts_total s2 now
  obtain ⟨-, -, -, -, rows3⟩ := rows_atWatchdog h1 h2 h3
  have hm3 : ∀ r ∈ s3.db.reservations, MarkerValid r := by
    intro r hr
    rw [Table.mem_def, rows3] at hr
    obtain ⟨q, hq, rfl⟩ := List.mem_map.mp hr
    exact markerValid_rowAtWatchdog (hm q hq)
  obtain ⟨s4, h4⟩ := retryStuckDispatches_total s3 now hm3
  exact ⟨s4, by simp only [tickBody, bind_eq_ok_iff]; exact ⟨s1, h1, s2, h2, s3, h3, h4⟩⟩

/-! ## the normal form -/

/-- The loop over the selected rows is empty where none is selected. -/
theorem filter_eq_nil_of_forall {p : Reservation → Bool} {rows : List Reservation}
    (h : ∀ r ∈ rows, p r = false) : rows.filter p = [] := by
  rw [List.filter_eq_nil_iff]
  intro r hr
  simp [h r hr]

/-- **A tick of a settled table** selects no row, so it leaves the database as
it is and queues nothing. -/
theorem tickBody_settled {db : Db} {now : Time} (h : ∀ r ∈ db.reservations, Settled now r) :
    tickBody db now = .ok { db := db, pending := [] } := by
  have hpromote : promoteDueScheduled { db := db, pending := [] } now =
      .ok { db := db, pending := [] } := by
    rw [promoteDueScheduled, filter_eq_nil_of_forall fun r hr => (h r hr).start]
    rfl
  have hclose : closeDueActive { db := db, pending := [] } now = .ok { db := db, pending := [] } := by
    rw [closeDueActive, filter_eq_nil_of_forall fun r hr => (h r hr).finish]
    rfl
  have hdispatch : dispatchDueScripts { db := db, pending := [] } now =
      .ok { db := db, pending := [] } := by
    have hnone : db.reservations.rows.filterMap (fun r => if dueToDispatch now r then
        (linuxUsernameOf db r.accountLinkId).map fun u => (r, u) else none) = [] := by
      rw [List.filterMap_eq_nil_iff]
      intro r hr
      simp [(h r hr).dispatch]
    rw [dispatchDueScripts, hnone]
    rfl
  have hwatchdog : retryStuckDispatches { db := db, pending := [] } now =
      .ok { db := db, pending := [] } := by
    rw [retryStuckDispatches, filter_eq_nil_of_forall fun r hr => (h r hr).watchdog]
    rfl
  simp only [tickBody, bind_eq_ok_iff]
  exact ⟨_, hpromote, _, hclose, _, hdispatch, hwatchdog⟩

/-- The row may be sent at `now`: it is active in its window, and its trigger is past. -/
structure Sendable (now : Time) (r : Reservation) : Prop where
  active : r.status = .active
  started : r.startAt ≤ now
  notEnded : now < r.endAt
  triggered : ∃ t, r.scriptScheduledStartAt = some t ∧ t ≤ now

/-- What a tick at `now` leaves of `db`. -/
structure NormalForm (db : Db) (now : Time) (s : TickSession) : Prop where
  started : ∀ r ∈ s.db.reservations, r.status = .scheduled → now < r.startAt
  notEnded : ∀ r ∈ s.db.reservations, r.status = .active → now < r.endAt
  fired : ∀ r ∈ s.db.reservations, r.status = .active → r.script.isSome = true →
    (∃ t, r.scriptScheduledStartAt = some t ∧ t ≤ now) → r.scriptStatus.isSome = true
  queued : ∀ d ∈ s.pending, ∃ r ∈ s.db.reservations, r.id = d.reservationId ∧ Sendable now r
  once : (s.pending.map (·.reservationId)).Nodup
  ended : ∀ r ∈ db.reservations, r.endAt ≤ now → ∀ d ∈ s.pending, d.reservationId ≠ r.id
  /-- So no later tick sends them either. -/
  terminal : ∀ r ∈ s.db.reservations, r.endAt ≤ now → r.status.terminal = true
  again : tickBody s.db now = .ok { db := s.db, pending := [] }

section Queue

variable {db : Db} {now : Time} {r : Reservation}

/-- A row that a tick queues may be sent. -/
theorem sendable_of_queued (hs : hasServer db r = true) (hcheck : r.checks = true)
    (hm : MarkerValid r) {d : Dispatch} (hd : d ∈ tickQueue db now r) :
    Sendable now (tickRow db now r) := by
  -- what both reasons to queue a row have in common
  have hdue : (rowAtDispatch db now r).status = .active ∧
      ∃ t, r.scriptScheduledStartAt = some t ∧ t ≤ now := by
    rcases (mem_tickQueue hd).2 with hfirst | hretry
    · simp only [firstDispatch, dueToDispatch, Bool.and_eq_true, decide_eq_true_eq,
        rowAtDispatch_scriptScheduledStartAt] at hfirst
      obtain ⟨⟨⟨⟨⟨hactive, -⟩, htrigger⟩, -⟩, -⟩, -⟩ := hfirst
      obtain ⟨t, ht, hle⟩ := (Option.any_eq_true _ _).mp htrigger
      exact ⟨hactive, t, ht, of_decide_eq_true hle⟩
    · have hstuck := retries_unacknowledged hretry
      simp only [unacknowledged, stuck, Bool.and_eq_true, decide_eq_true_eq,
        rowAtDispatch_scriptDispatchStartedAt] at hstuck
      obtain ⟨⟨⟨⟨hactive, -⟩, hmarker⟩, -⟩, -⟩ := hstuck
      obtain ⟨m, hset, hlt⟩ := (Option.any_eq_true _ _).mp hmarker
      obtain ⟨-, t, ht, hle⟩ := hm m hset
      have hago : m < now - (watchdogStuckSeconds : Int) * secondMicros := of_decide_eq_true hlt
      have hsub : now - (watchdogStuckSeconds : Int) * secondMicros ≤ now :=
        Int.sub_le_self now (by decide)
      exact ⟨hactive, t, ht, hle.trans (hago.le.trans hsub)⟩
  obtain ⟨hactive, t, ht, hle⟩ := hdue
  have hend : now < r.endAt := by
    obtain ⟨status, reason, hrow⟩ := rowAtDispatch_eq db now r
    have hnot := (due_rowAtDispatch db now hs).2
    rw [hrow] at hnot hactive
    simpa [dueToEnd, show status = .active from hactive] using hnot
  have hstart : r.startAt ≤ t := (trigger_of_checks hcheck ht).1
  have hstatus : (tickRow db now r).status = .active := by
    cases tickCase db now r with
    | dispatched _ row _ => rw [row]; exact hactive
    | retried _ row _ => rw [row]; exact hactive
    | gaveUp _ _ queue => rw [queue] at hd; cases hd
    | healed _ row _ => rw [row]; exact hactive
    | idle row _ => rw [row]; exact hactive
  obtain ⟨_, _, _, _, hrow⟩ := tickRow_eq db now r
  rw [hrow] at hstatus ⊢
  exact ⟨hstatus, hstart.trans hle, hend, t, ht, hle⟩

end Queue

/-- **Tick normal form**: where the rows are as the store admits them, and the
dispatch markers as `markScriptDispatched` leaves them, a tick commits, and its
table has nothing left to do at the time of the tick. -/
theorem tickBody_normalForm {db : Db} (now : Time) (href : Referenced db)
    (hcheck : ∀ r ∈ db.reservations, r.checks = true)
    (hm : ∀ r ∈ db.reservations, MarkerValid r) :
    ∃ s, tickBody db now = .ok s ∧ NormalForm db now s := by
  obtain ⟨s, hs⟩ := tickBody_total now hm
  have hres := tickBody_ok hs
  have hmem : ∀ r' ∈ s.db.reservations, ∃ r ∈ db.reservations, tickRow db now r = r' := by
    intro r' hr'
    rw [Table.mem_def, hres.rows] at hr'
    exact List.mem_map.mp hr'
  have hsettled : ∀ r ∈ s.db.reservations, Settled now r := by
    intro r' hr'
    obtain ⟨r, hr, rfl⟩ := hmem r' hr'
    exact settled_tickRow (href.server r hr) (href.account r hr)
  have hsendable : ∀ d ∈ s.pending, ∃ r ∈ db.reservations, r.id = d.reservationId ∧
      Sendable now (tickRow db now r) := by
    intro d hd
    obtain ⟨r, hr, hq⟩ := hres.mem_pending.mp hd
    refine ⟨r, hr, ?_, sendable_of_queued (href.server r hr) (hcheck r hr) (hm r hr) hq⟩
    rw [(mem_tickQueue hq).1]
    rfl
  refine ⟨s, hs, ⟨?_, ?_, ?_, ?_, ?_, ?_, ?_, tickBody_settled hsettled⟩⟩
  · intro r hr hstatus
    simpa [dueToStart, hstatus] using (hsettled r hr).start
  · intro r hr hstatus
    simpa [dueToEnd, hstatus] using (hsettled r hr).finish
  · rintro r hr hstatus hscript ⟨t, ht, hle⟩
    have hdue := (hsettled r hr).dispatch
    simp only [dueToDispatch, hstatus, hscript, ht, Option.any_some, decide_true, hle,
      Bool.and_self, Bool.true_and] at hdue
    rwa [Option.isNone_eq_false_iff] at hdue
  · intro d hd
    obtain ⟨r, hr, hid, hsend⟩ := hsendable d hd
    refine ⟨tickRow db now r, ?_, (tickRow_id db now r).trans hid, hsend⟩
    rw [Table.mem_def, hres.rows]
    exact List.mem_map.mpr ⟨r, hr, rfl⟩
  · -- a row queues at most one request
    rw [List.nodup_iff_count_le_one]
    intro k
    have hcount : (s.pending.map (·.reservationId)).count k =
        (db.reservations.get? k).elim 0 (fun r => (tickQueue db now r).length) := by
      rw [← hres.countP_pending, List.count, List.countP_map]
      rfl
    rw [hcount]
    cases db.reservations.get? k with
    | none => exact Nat.zero_le 1
    | some r => exact length_tickQueue_le db now r
  · intro r hr hend d hd heq
    obtain ⟨q, hq, hid, hsend⟩ := hsendable d hd
    obtain rfl : q = r := Table.eq_of_key_eq hq hr (hid.trans heq)
    obtain ⟨_, _, _, _, hrow⟩ := tickRow_eq db now q
    have hlt := hsend.notEnded
    rw [hrow] at hlt
    exact absurd hend (not_le.mpr hlt)
  · intro r' hr' hend
    obtain ⟨r, hr, rfl⟩ := hmem r' hr'
    have hwindow : (tickRow db now r).startAt < (tickRow db now r).endAt := by
      obtain ⟨_, _, _, _, hrow⟩ := tickRow_eq db now r
      rw [hrow]
      exact window_of_checks (hcheck r hr)
    have hset := hsettled _ hr'
    cases hstatus : (tickRow db now r).status with
    | scheduled =>
        have hstart := hset.start
        simp only [dueToStart, hstatus, decide_true, Bool.true_and, decide_eq_false_iff_not,
          not_le] at hstart
        exact absurd (hwindow.trans_le hend) hstart.not_gt
    | active =>
        have hfinish := hset.finish
        simp only [dueToEnd, hstatus, decide_true, Bool.true_and, decide_eq_false_iff_not,
          not_le] at hfinish
        exact absurd hend (not_le.mpr hfinish)
    | completed | cancelled | failed => rfl

/-- A tick at time zero of the small lab with a script that is due. -/
theorem tickBody_normalForm_dueScript :
    ∃ s, tickBody (smallLab (.single dueScript)) 0 = .ok s ∧
      NormalForm (smallLab (.single dueScript)) 0 s := by
  refine tickBody_normalForm 0 ⟨?_, ?_⟩ ?_ ?_
  all_goals
    intro r hr
    obtain rfl := List.mem_singleton.mp hr
  · rfl
  · rfl
  · decide
  · intro m hm
    cases hm

/-- A row whose dispatch is on record nine hours before its trigger. -/
def earlyMarker : Reservation :=
  { dueScript with
    scriptScheduledStartAt := some (10 * hourMicros)
    scriptStatus := some .running
    scriptDispatchStartedAt := some hourMicros }

/-- The watchdog does not look at the trigger again: it sends the script of such
a row eight hours early. -/
theorem tickBody_not_normalForm :
    ¬ ∀ (db : Db) (now : Time) (s : TickSession), Referenced db →
        (∀ r ∈ db.reservations, r.checks = true) → tickBody db now = .ok s →
        NormalForm db now s := by
  intro h
  have href : Referenced (smallLab (.single earlyMarker)) := by
    constructor
    all_goals
      intro r hr
      obtain rfl := List.mem_singleton.mp hr
      rfl
  have hcheck : ∀ r ∈ (smallLab (.single earlyMarker)).reservations, r.checks = true := by
    intro r hr
    obtain rfl := List.mem_singleton.mp hr
    decide
  have hform := h (smallLab (.single earlyMarker)) (2 * hourMicros) _ href hcheck rfl
  obtain ⟨r, hr, -, hsend⟩ := hform.queued _ (List.mem_singleton_self _)
  obtain rfl := List.mem_singleton.mp hr
  obtain ⟨t, ht, hle⟩ := hsend.triggered
  obtain rfl := Option.some.inj ht
  exact absurd hle (by decide)

end CoreLab
