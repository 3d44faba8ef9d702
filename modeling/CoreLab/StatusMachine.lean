import CoreLab.Lib.IsolationLogic
import CoreLab.Sessions

/-!
# CoreLab.StatusMachine

The status of a reservation over every interleaving of sessions: bookings, edits,
cancels of one row and of a group, ticks and script events.

* `lawful_program` — each program, whatever the other sessions do;
* `statusMachine` — each commit moves a row along an edge of the status machine, or
  along two in a tick; a row that ended stays as it ended, and has at most one
  cancel on record.
-/

namespace CoreLab

namespace StatusMachine

open Relational Loops Isolation Transition Sessions

/-! ## what a session may commit -/

/-- The audit row is about a cancel of the reservation. -/
def isCancelOf (a : AuditRow) (id : Nat) : Bool :=
  (a.entry.action = .reservationCancel && a.entry.targetId = some id) ||
    (a.entry.action = .reservationCancelGroup && a.counted.contains id)

/-- The cancels on record for a reservation. -/
def cancelAudits (log : List AuditRow) (id : Nat) : Nat := log.countP (isCancelOf · id)

/-- How one commit may move a status: along an edge, or in a tick from `scheduled`
through `active` to the end. -/
def Moves (isTick : Bool) (s s' : ReservationStatus) : Prop :=
  s = s' ∨ s.allows s' = true ∨ isTick = true ∧ s = .scheduled ∧ (s' = .completed ∨ s' = .failed)

instance (isTick : Bool) (s s' : ReservationStatus) : Decidable (Moves isTick s s') :=
  inferInstanceAs (Decidable (_ ∨ _))

/-- The versions a request's session wrote of the committed rows. -/
abbrev Moved (request : Request) : View Reservation AuditRow → Prop :=
  View.Versions fun r r' => Moves request.isTick r.status r'.status

/-- What a session may commit: moves, and for each row it cancels one cancel on record. -/
structure Lawful (request : Request) (v : View Reservation AuditRow) : Prop where
  moved : Moved request v
  cancels : ∀ id, cancelAudits v.pending id ≠ 0 → cancelAudits v.pending id = 1 ∧
    ∃ r r', v.base id = some r ∧ v.written id = some r' ∧ r.occupies = true ∧
      r'.status = .cancelled

/-- Moves, and no cancel on record. -/
structure Plain (request : Request) (v : View Reservation AuditRow) : Prop where
  moved : Moved request v
  cancels : ∀ id, cancelAudits v.pending id = 0

/-- Nothing is written yet. -/
structure Clean (v : View Reservation AuditRow) : Prop where
  written : ∀ id, v.written id = none
  pending : v.pending = []

section Views

variable {request : Request} {v : View Reservation AuditRow}

theorem moves_refl (isTick : Bool) (s : ReservationStatus) : Moves isTick s s := Or.inl rfl

theorem moves_of_terminal {isTick : Bool} {s s' : ReservationStatus} (h : Moves isTick s s')
    (hs : s.terminal = true) : s = s' := by
  cases isTick <;> cases s <;> cases s' <;> revert h hs <;> decide

theorem eq_tick_of_isTick (h : request.isTick = true) : ∃ now, request = .tick now := by
  cases request with
  | tick now => exact ⟨now, rfl⟩
  | _ => cases h

theorem Plain.lawful (h : Plain request v) : Lawful request v :=
  ⟨h.moved, fun id hid => absurd (h.cancels id) hid⟩

theorem Clean.plain (h : Clean v) : Plain request v := by
  refine ⟨fun id r r' _ hw => ?_, fun id => by rw [h.pending]; rfl⟩
  rw [h.written] at hw
  cases hw

theorem clean_empty : Clean .empty := ⟨fun _ => rfl, rfl⟩

theorem Clean.read (h : Clean v) (found : List Reservation) : Clean (v.read found) :=
  ⟨h.written, h.pending⟩

theorem Plain.read (h : Plain request v) (found : List Reservation) : Plain request (v.read found) :=
  ⟨h.moved.read found, h.cancels⟩

theorem Plain.write (h : Plain request v) {old new : Reservation} (hagrees : v.Agrees old)
    (hstep : ∀ s, Moves request.isTick s old.status → Moves request.isTick s new.status) :
    Plain request (v.write old new) :=
  ⟨h.moved.write (fun _ => moves_refl _ _) hagrees fun r => hstep r.status, h.cancels⟩

theorem Plain.insert (h : Plain request v) {id : Nat} (hid : v.current id = none)
    (r : Reservation) : Plain request (v.insert id r) :=
  ⟨h.moved.insert hid r, h.cancels⟩

theorem Plain.emit (h : Plain request v) {a : AuditRow} (ha : ∀ id, isCancelOf a id = false) :
    Plain request (v.emit a) := by
  refine ⟨h.moved, fun id => ?_⟩
  have := h.cancels id
  simp only [View.emit, cancelAudits, List.countP_append, List.countP_singleton, ha] at this ⊢
  simpa using this

end Views

/-! ## programs that cancel nothing -/

section Keeps

variable {α β : Type} {serializable : Bool} {request : Request}

/-- The program writes what the status machine allows, and puts no cancel on record. -/
def Keeps (serializable : Bool) (request : Request) (x : Prog α) : Prop :=
  ∀ v, Plain request v → wp serializable (Lawful request) x (fun _ => Plain request) v

theorem keeps_pure (a : α) : Keeps serializable request (.pure a) := fun _ hv => hv

theorem keeps_stop (c : Bool) : Keeps serializable request (.stop c : Prog α) :=
  fun _ hv _ => hv.lawful

theorem keeps_bind {x : Prog α} {f : α → Prog β} (hx : Keeps serializable request x)
    (hf : ∀ a, Keeps serializable request (f a)) : Keeps serializable request (x >>= f) :=
  fun v hv => wp_bind.mpr (wp_mono (fun a v hv => hf a v hv) (hx v hv))

theorem keeps_ask : Keeps serializable request ask := fun _ hv _ => hv

theorem keeps_get (id : Nat) : Keeps serializable request (get id) :=
  fun _ hv => wp_get (fun _ found h => h.read found) hv fun _ _ h => h

theorem keeps_select (test : Reservation → Bool) (u p : Bool) :
    Keeps serializable request (select test u p) :=
  fun _ hv => wp_select (fun _ found h => h.read found) hv fun _ _ h => h

/-- Columns other than the status may be assigned at any time. -/
theorem keeps_update {id : Nat} {f : Reservation → Reservation} {hf : ∀ r, (f r).id = r.id}
    (hstatus : ∀ r, (f r).status = r.status) : Keeps serializable request (update id f hf) := by
  intro v hv r _ hagrees
  exact hv.write hagrees fun s hs => by rwa [hstatus]

theorem keeps_insert (b : Table.Insertion Reservation) : Keeps serializable request (insert b) :=
  fun _ hv _ hid => hv.insert hid _

theorem keeps_audit {entry : AuditEntry} {counted : List Nat}
    (ha : entry.action ≠ .reservationCancel ∧ entry.action ≠ .reservationCancelGroup) :
    Keeps serializable request (audit entry counted) :=
  fun _ hv => hv.emit fun id => by simp [isCancelOf, ha.1, ha.2]

theorem keeps_orRaise (x : Except Failure α) : Keeps serializable request (orRaise x) := by
  cases x with
  | ok a => exact keeps_pure a
  | error e => cases e <;> exact keeps_stop _

theorem keeps_orRollBack (x : Except Failure α) : Keeps serializable request (orRollBack x) := by
  cases x with
  | ok a => exact keeps_pure a
  | error e => exact keeps_stop _

theorem keeps_forM {l : List β} {f : β → Prog Unit} (hf : ∀ b, Keeps serializable request (f b)) :
    Keeps serializable request (l.forM f) :=
  fun _ hv => wp_forM (I := fun _ => Plain request) hv (fun b _ _ hv => hf b _ hv) fun _ h => h

/-! ### bookings, edits and script events -/

theorem keeps_windowActiveReservations (gpuId : Nat) (startAt endAt : Time) :
    Keeps serializable request (Sessions.windowActiveReservations gpuId startAt endAt) :=
  keeps_select _ _ _

theorem keeps_checkItemConflict (item : ItemDraft) :
    Keeps serializable request (Sessions.checkItemConflict item) := by
  unfold Sessions.checkItemConflict
  split
  · exact keeps_pure ()
  · refine keeps_bind keeps_ask fun outside => ?_
    split
    · exact keeps_stop _
    · refine keeps_bind (keeps_windowActiveReservations _ _ _) fun found => ?_
      split
      · exact keeps_pure ()
      · exact keeps_stop _

theorem keeps_insertAll (bs : List (Table.Insertion Reservation)) :
    Keeps serializable request (insertAll bs) := by
  induction bs with
  | nil => exact keeps_pure []
  | cons b bs ih =>
      exact keeps_bind (keeps_insert b) fun _ => keeps_bind ih fun _ => keeps_pure _

theorem keeps_createReservations (req : BatchRequest) (groupId : String) (now : Time) :
    Keeps serializable request (createReservations req groupId now) := by
  unfold createReservations
  refine keeps_bind (keeps_orRaise _) fun _ => keeps_bind (keeps_forM fun item => ?_) fun _ =>
    keeps_bind (keeps_forM keeps_checkItemConflict) fun _ => ?_
  · exact keeps_bind keeps_ask fun _ => keeps_orRaise _
  · split
    · exact keeps_bind (keeps_insertAll _) fun _ =>
        keeps_forM fun _ => keeps_audit ⟨by simp [reservationAudit], by simp [reservationAudit]⟩
    · exact keeps_stop _

theorem keeps_refuseEdit (row : Reservation) (a : Attrs) (e : Failure) :
    Keeps serializable request (refuseEdit row a e) := by
  unfold refuseEdit
  split
  · split
    · exact keeps_bind (keeps_update fun _ => rfl) fun _ => keeps_stop _
    · exact keeps_stop _
  · exact keeps_stop _

theorem keeps_checkWindow (row : Reservation) (req : ModifyRequest) (a : Attrs) (now : Time) :
    Keeps serializable request (Sessions.checkWindow row req a now) := by
  unfold Sessions.checkWindow
  split
  · exact keeps_pure _
  · refine keeps_bind keeps_ask fun outside => ?_
    split
    · exact keeps_pure _
    · exact keeps_pure _
    · split
      · exact keeps_pure _
      · refine keeps_bind (keeps_windowActiveReservations _ _ _) fun found => ?_
        split <;> exact keeps_pure _

theorem keeps_modifyReservation (req : ModifyRequest) (actorUserId : Nat) (now : Time) :
    Keeps serializable request (Sessions.modifyReservation req actorUserId now) := by
  unfold Sessions.modifyReservation
  refine keeps_bind (keeps_select _ _ _) fun rows => ?_
  split
  · exact keeps_stop _
  · refine keeps_bind (keeps_orRaise _) fun _ => keeps_bind (keeps_checkWindow _ _ _ _) fun result => ?_
    split
    · exact keeps_refuseEdit _ _ _
    · split
      · exact keeps_refuseEdit _ _ _
      · dsimp only
        split
        · exact keeps_refuseEdit _ _ _
        · split
          · exact keeps_bind (keeps_update fun _ => rfl) fun _ =>
              keeps_audit ⟨by simp [reservationAudit], by simp [reservationAudit]⟩
          · exact keeps_stop _

theorem keeps_getReservation (id : Int) : Keeps serializable request (getReservation id) := by
  unfold getReservation
  split
  · exact keeps_get _
  · exact keeps_pure _

theorem keeps_updateScriptStatus (row : Reservation) (new : ScriptStatus) (exitCode : Option Int)
    (startedAt finishedAt : Option Time) :
    Keeps serializable request (Sessions.updateScriptStatus row new exitCode startedAt finishedAt) :=
  keeps_bind (keeps_orRollBack _) fun _ =>
    keeps_bind (keeps_update (withScriptStatus_status _ _ _ _)) fun _ =>
      keeps_audit ⟨by simp [reservationAudit], by simp [reservationAudit]⟩

theorem keeps_onScriptStarted (p : ScriptStartedEvent) :
    Keeps serializable request (Sessions.onScriptStarted p) := by
  unfold Sessions.onScriptStarted
  refine keeps_bind (keeps_getReservation _) fun found => ?_
  split
  · exact keeps_pure ()
  · split
    · exact keeps_bind (keeps_orRollBack _) fun _ =>
        keeps_bind (keeps_update fun _ => withLogPath_status _ _) fun _ =>
          keeps_audit ⟨by simp [reservationAudit], by simp [reservationAudit]⟩
    · exact keeps_bind (keeps_updateScriptStatus _ _ _ _ _) fun _ =>
        keeps_bind (keeps_orRollBack _) fun _ =>
          keeps_bind (keeps_update fun _ => withLogPath_status _ _) fun _ =>
            keeps_audit ⟨by simp [reservationAudit], by simp [reservationAudit]⟩
    · exact keeps_pure ()

theorem keeps_onScriptOutputChunk (p : ScriptOutputChunkEvent) :
    Keeps serializable request (Sessions.onScriptOutputChunk p) := by
  unfold Sessions.onScriptOutputChunk
  refine keeps_bind (keeps_getReservation _) fun found => ?_
  split
  · exact keeps_pure ()
  · unfold Sessions.appendScriptLogTail
    split
    · exact keeps_pure ()
    · dsimp only
      split <;> exact keeps_update fun _ => rfl

theorem keeps_onScriptFinished (p : ScriptFinishedEvent) :
    Keeps serializable request (Sessions.onScriptFinished p) := by
  unfold Sessions.onScriptFinished
  refine keeps_bind (keeps_getReservation _) fun found => ?_
  split
  · exact keeps_pure ()
  · split
    · refine keeps_bind (keeps_updateScriptStatus _ _ _ _ _) fun _ =>
        keeps_bind (keeps_orRollBack _) fun _ => keeps_update fun r => ?_
      rw [withLogPath_status]
      split <;> rfl
    · exact keeps_pure ()

end Keeps

/-! ## the tick -/

section Tick

variable {now : Time}

/-- Two edges make a move of a tick. -/
theorem moves_trans {s s' t : ReservationStatus} (h : Moves true s s') (ht : s'.allows t = true)
    (hend : t ≠ .cancelled) : Moves true s t := by
  cases s <;> cases s' <;> cases t <;> revert h ht hend <;> decide

/-- What a stage keeps while it goes through its rows: those left are known. -/
structure Left (now : Time) (rest : List Reservation) (v : View Reservation AuditRow) : Prop where
  plain : Plain (.tick now) v
  nodup : (rest.map (·.id)).Nodup
  known : ∀ r ∈ rest, v.current r.id = some r

/-- A row is acted on without harm to the others. -/
def ActsOn (now : Time) (row : Reservation) (act : Prog Unit) : Prop :=
  ∀ v, Plain (.tick now) v → v.current row.id = some row →
    wp true (Lawful (.tick now)) act
      (fun _ v' => Plain (.tick now) v' ∧ ∀ id, id ≠ row.id → v'.current id = v.current id) v

/-- A stage of the tick: select rows, and act on each. -/
theorem keeps_stage {test : Reservation → Bool} {act : Reservation → Prog Unit}
    (hact : ∀ row, ActsOn now row (act row)) :
    Keeps true (.tick now) (do
      let rows ← select test false false
      rows.forM act) := by
  intro v hv
  refine wp_bind.mpr (wp_select_trusted rfl fun found hnodup hfound => ?_)
  refine wp_forM (I := Left now)
    ⟨hv.read found, hnodup, fun r hr => View.current_read hnodup hr (hfound r hr).2⟩
    (fun row rest v hleft => ?_) fun _ hleft => hleft.plain
  obtain ⟨hnew, hrest⟩ := List.nodup_cons.mp hleft.nodup
  refine wp_mono (fun _ v' hv' => ⟨hv'.1, hrest, fun r hr => ?_⟩)
    (hact row v hleft.plain (hleft.known row List.mem_cons_self))
  have hne : r.id ≠ row.id := fun heq => hnew (List.mem_map.mpr ⟨r, hr, heq⟩)
  exact (hv'.2 r.id hne).trans (hleft.known r (List.mem_cons_of_mem row hr))

/-- An update of the row along an edge, or of other columns than the status. -/
theorem actsOn_update {row : Reservation} {f : Reservation → Reservation}
    {hf : ∀ r, (f r).id = r.id}
    (hmove : (f row).status = row.status ∨
      row.status.allows (f row).status = true ∧ (f row).status ≠ .cancelled) :
    ActsOn now row (update row.id f hf) := by
  intro v hv hknown
  refine wp_update_known (r := row) hknown ⟨hv.write (fun x hx => ?_) fun s hs => ?_, fun id hid => ?_⟩
  · exact Option.some.inj (hx.symm.trans hknown)
  · rcases hmove with heq | ⟨hedge, hend⟩
    · rwa [heq]
    · exact moves_trans hs hedge hend
  · exact View.current_write_of_ne hid

/-- An audit row that is not about a cancel, after what was done. -/
theorem actsOn_audit {row : Reservation} {act : Prog Unit} {entry : AuditEntry}
    (hact : ActsOn now row act)
    (hentry : entry.action ≠ .reservationCancel ∧ entry.action ≠ .reservationCancelGroup) :
    ActsOn now row (do
      act
      audit entry) := by
  intro v hv hknown
  refine wp_bind.mpr (wp_mono (fun _ v' hv' => ?_) (hact v hv hknown))
  exact ⟨hv'.1.emit fun id => by simp [isCancelOf, hentry.1, hentry.2], hv'.2⟩

theorem actsOn_orRollBack {row : Reservation} {check : Except Failure Unit} {act : Prog Unit}
    (hact : check = .ok () → ActsOn now row act) :
    ActsOn now row (do
      orRollBack check
      act) := by
  intro v hv hknown
  cases hcheck : check with
  | error e => exact fun h => nomatch h
  | ok u => exact hact hcheck v hv hknown

theorem actsOn_nothing (row : Reservation) : ActsOn now row (.pure ()) :=
  fun _ hv _ => ⟨hv, fun _ _ => rfl⟩

theorem actsOn_onKnownServer {row : Reservation} {act : Prog Unit} (hact : ActsOn now row act) :
    ActsOn now row (onKnownServer row act) := by
  intro v hv hknown outside
  dsimp only [Program.bind]
  cases serverLabId outside.db row.serverId with
  | none => exact actsOn_nothing row v hv hknown
  | some labId => exact hact v hv hknown

theorem allows_of_assertTransitionAllowed {s t : ReservationStatus}
    (h : assertTransitionAllowed s t = .ok ()) : s.allows t = true := by
  simpa [assertTransitionAllowed] using h

theorem transition_notCancel (row : Reservation) :
    (reservationAudit .reservationTransition none row).action ≠ .reservationCancel ∧
      (reservationAudit .reservationTransition none row).action ≠ .reservationCancelGroup :=
  ⟨by simp [reservationAudit], by simp [reservationAudit]⟩

theorem actsOn_transitionTo (row : Reservation) {target : ReservationStatus}
    (htarget : target ≠ .cancelled) : ActsOn now row (transitionTo row target) :=
  actsOn_orRollBack fun hcheck =>
    actsOn_audit (actsOn_update (Or.inr ⟨allows_of_assertTransitionAllowed hcheck, htarget⟩))
      (transition_notCancel row)

theorem actsOn_transitionToFailed (row : Reservation) (reason : String) :
    ActsOn now row (Sessions.transitionToFailed row reason) :=
  actsOn_orRollBack fun hcheck =>
    actsOn_audit (actsOn_update (Or.inr ⟨allows_of_assertTransitionAllowed hcheck, fun h => nomatch h⟩))
      (transition_notCancel row)

theorem actsOn_closeRow (row : Reservation) : ActsOn now row (Sessions.closeRow row) := by
  unfold Sessions.closeRow
  split
  · exact actsOn_transitionToFailed row _
  · exact actsOn_transitionToFailed row _
  · exact actsOn_transitionTo row fun h => nomatch h

theorem actsOn_markScriptDispatched (row : Reservation) :
    ActsOn now row (Sessions.markScriptDispatched row now) :=
  actsOn_orRollBack fun _ => actsOn_audit (actsOn_update (Or.inl rfl))
    ⟨by simp [reservationAudit], by simp [reservationAudit]⟩

theorem actsOn_retryStuckDispatch (row : Reservation) :
    ActsOn now row (Sessions.retryStuckDispatch row now) := by
  intro v hv hknown outside
  change wp _ _ (if lifecycleStartedSeen outside.db row.id then _ else _) _ v
  split
  · exact actsOn_update (Or.inl rfl) v hv hknown
  · split
    · exact actsOn_transitionToFailed row giveUpReason v hv hknown
    · split
      · exact actsOn_nothing row v hv hknown
      · cases buildExecutePayload row _ with
        | error e => exact fun h => nomatch h
        | ok payload =>
            exact actsOn_audit (actsOn_update (Or.inl rfl))
              ⟨by simp [reservationAudit], by simp [reservationAudit]⟩ v hv hknown

theorem keeps_tick : Keeps true (.tick now) (Sessions.tick now) := by
  unfold Sessions.tick
  refine keeps_bind (keeps_stage fun row => ?_) fun _ => keeps_bind (keeps_stage fun row => ?_)
    fun _ => keeps_bind (keeps_bind keeps_ask fun _ => keeps_stage fun row => ?_)
      fun _ => keeps_stage fun row => ?_
  · exact actsOn_onKnownServer (actsOn_transitionTo row fun h => nomatch h)
  · exact actsOn_onKnownServer (actsOn_closeRow row)
  · exact actsOn_onKnownServer (actsOn_markScriptDispatched row)
  · exact actsOn_onKnownServer (actsOn_retryStuckDispatch row)

end Tick

/-! ## cancels -/

section Cancels

variable {serializable : Bool} {request : Request} {v : View Reservation AuditRow}

theorem moves_cancelled {isTick : Bool} {s s' : ReservationStatus} (h : Moves isTick s s')
    (hocc : s'.occupies = true) : Moves isTick s .cancelled := by
  cases isTick <;> cases s <;> cases s' <;> revert h hocc <;> decide

theorem Clean.lawful (h : Clean v) : Lawful request v := h.plain.lawful

/-- A row that a session with nothing written has read is known as committed. -/
theorem Clean.base_read (h : Clean v) {found : List Reservation}
    (hnodup : (found.map (·.id)).Nodup) {r : Reservation} (hr : r ∈ found) (hagrees : v.Agrees r) :
    (v.read found).base r.id = some r := by
  have hcur : (v.read found).current r.id = some r := View.current_read hnodup hr hagrees
  rwa [View.current, (h.read found).written, Option.none_or] at hcur

theorem occupies_of_checkCancel {row : Reservation} {actorUserId : Nat} {actorCanAdmin : Bool}
    (h : checkCancel row actorUserId actorCanAdmin = .ok ()) : row.occupies = true := by
  simp only [checkCancel, check_bind_eq_ok_iff, raiseIf_eq_ok_iff] at h
  unfold Reservation.occupies
  revert h
  cases row.status <;> simp [ReservationStatus.terminal, ReservationStatus.occupies]

/-- The row is cancelled, on record. -/
theorem lawful_cancelled (hv : Clean v) {row : Reservation} (hbase : v.base row.id = some row)
    (hocc : row.occupies = true) (actorUserId : Nat) (reason : Option String) (now : Time) :
    Lawful request ((v.write row (cancelledRow row actorUserId reason now)).emit
      ⟨reservationAudit .reservationCancel (some actorUserId) row, []⟩) := by
  have hcur : v.current row.id = some row := by rw [View.current, hv.written, Option.none_or, hbase]
  have hagrees : v.Agrees row := fun x hx => Option.some.inj (hx.symm.trans hcur)
  have hknown : (v.write row (cancelledRow row actorUserId reason now)).base = v.base :=
    View.base_write_of_known hcur
  refine ⟨hv.plain.moved.write (fun _ => moves_refl _ _) hagrees fun r hr =>
    moves_cancelled hr hocc, fun id hid => ?_⟩
  have hcount : cancelAudits ((v.write row (cancelledRow row actorUserId reason now)).emit
      ⟨reservationAudit .reservationCancel (some actorUserId) row, []⟩).pending id =
      if row.id = id then 1 else 0 := by
    simp [View.emit, View.write, View.read, hv.pending, cancelAudits, isCancelOf, reservationAudit,
      List.countP_singleton]
  rw [hcount] at hid ⊢
  obtain rfl : row.id = id := by
    by_contra hne
    rw [if_neg hne] at hid
    exact hid rfl
  refine ⟨if_pos rfl, row, cancelledRow row actorUserId reason now, ?_, ?_, hocc, rfl⟩
  · exact (congrFun hknown row.id).trans hbase
  · exact Function.update_self (f := v.written) row.id _

theorem lawful_cancelReservation (hv : Clean v) (id actorUserId : Nat) (actorCanAdmin : Bool)
    (reason : Option String) (now : Time) :
    wp serializable (Lawful request)
      (Sessions.cancelReservation id actorUserId actorCanAdmin reason now)
      (fun _ => Lawful request) v := by
  refine wp_bind.mpr (wp_select_trusted (by simp [trusted]) fun found hnodup hfound => ?_)
  have hclean := hv.read found
  rw [wp_pure]
  cases found with
  | nil => exact fun _ => hclean.lawful
  | cons row rest =>
      dsimp only
      have hbase := hv.base_read hnodup List.mem_cons_self (hfound row List.mem_cons_self).2
      cases hcheck : checkCancel row actorUserId actorCanAdmin with
      | error e => cases e <;> exact fun _ => hclean.lawful
      | ok u =>
          have hocc := occupies_of_checkCancel hcheck
          have hcur : (v.read (row :: rest)).current row.id = some row := by
            rw [View.current, hclean.written, Option.none_or, hbase]
          exact wp_update_known (r := row) hcur
            (lawful_cancelled hclean hbase hocc actorUserId reason now)

theorem lawful_deleteReservation (hv : Clean v) (current : AuthenticatedUser) (id : Nat)
    (reason : Option String) (now : Time) :
    wp serializable (Lawful request) (Sessions.deleteReservation current id reason now)
      (fun _ => Lawful request) v := by
  refine wp_bind.mpr (wp_get (fun _ found h => h.read found) hv fun found v hv => ?_)
  cases found with
  | none => exact fun _ => hv.lawful
  | some row =>
      intro outside
      change wp serializable (Lawful request) (ite _ _ _) _ _
      split
      · intro answer
        have hfailed : ∀ entry : AuditEntry, entry.action = .reservationCancelAttemptFailed →
            Lawful request (v.emit ⟨entry, []⟩) := fun entry hentry =>
          (hv.plain.emit fun id => by simp [isCancelOf, hentry]).lawful
        dsimp only [Program.bind]
        cases answer.kill with
        | confirmed => exact lawful_cancelReservation hv _ _ _ _ _
        | broken => exact fun h => by cases h
        | unreachable => exact fun _ => hfailed _ rfl
        | timedOut => exact fun _ => hfailed _ rfl
      · exact lawful_cancelReservation hv _ _ _ _ _

/-! ### a group -/

/-- Where the loop of a group cancel is: the rows before the rest are cancelled. -/
structure Cancelling (cancel : Reservation → Reservation) (rows : List Reservation)
    (start : View Reservation AuditRow) (rest : List Reservation)
    (v : View Reservation AuditRow) : Prop where
  base : v.base = start.base
  pending : v.pending = []
  written : ∃ done, rows = done ++ rest ∧
    ∀ id, v.written id = (done.find? fun r => r.id == id).map cancel

theorem Cancelling.step {cancel : Reservation → Reservation} {rows rest : List Reservation}
    {start : View Reservation AuditRow} {row : Reservation}
    (hnodup : (rows.map (·.id)).Nodup) (hbase : ∀ r ∈ rows, start.base r.id = some r)
    (h : Cancelling cancel rows start (row :: rest) v) :
    v.current row.id = some row ∧
      Cancelling cancel rows start rest (v.write row (cancel row)) := by
  obtain ⟨done, rfl, hwritten⟩ := h.written
  have hnew : ∀ r ∈ done, r.id ≠ row.id := by
    intro r hr heq
    rw [List.map_append, List.map_cons] at hnodup
    exact (List.nodup_append.mp hnodup).2.2 r.id (List.mem_map_of_mem hr) row.id
      List.mem_cons_self heq
  have hnone : done.find? (fun r => r.id == row.id) = none := by
    simpa using hnew
  have hcur : v.current row.id = some row := by
    rw [View.current, hwritten, hnone, Option.map_none, Option.none_or, h.base]
    exact hbase row (List.mem_append_right done List.mem_cons_self)
  refine ⟨hcur, (View.base_write_of_known hcur).trans h.base, h.pending, done ++ [row], by simp, ?_⟩
  intro id
  have hid : (v.write row (cancel row)).written id =
      if id = row.id then some (cancel row) else v.written id := Function.update_apply _ _ _ _
  rw [hid, hwritten, List.find?_append]
  split
  · next heq => simp [heq, hnone]
  · next hne =>
      have hlast : [row].find? (fun r => r.id == id) = none := by simpa using Ne.symm hne
      rw [hlast, Option.or_none]

theorem occupies_of_inGroup {groupId : String} {r : Reservation} (h : inGroup groupId r = true) :
    r.occupies = true := by
  simp only [inGroup, Bool.and_eq_true] at h
  exact h.2

/-- All rows are cancelled, on one record. -/
theorem Cancelling.lawful {actorUserId : Nat} {reason : Option String} {now : Time}
    {rows : List Reservation} {start : View Reservation AuditRow} {entry : AuditEntry}
    (hentry : entry.action = .reservationCancelGroup)
    (hbase : ∀ r ∈ rows, start.base r.id = some r) (hocc : ∀ r ∈ rows, r.occupies = true)
    (h : Cancelling (fun r => cancelledRow r actorUserId reason now) rows start [] v) :
    Lawful request (v.emit ⟨entry, rows.map (·.id)⟩) := by
  obtain ⟨done, hdone, hwritten⟩ := h.written
  rw [List.append_nil] at hdone
  subst hdone
  -- a row that is written was one of the rows, and is cancelled
  have hrow : ∀ id r', v.written id = some r' → ∃ r ∈ rows, r.id = id ∧
      r' = cancelledRow r actorUserId reason now := by
    intro id r' hw
    rw [hwritten] at hw
    obtain ⟨r, hr, rfl⟩ := Option.map_eq_some_iff.mp hw
    exact ⟨r, List.mem_of_find?_eq_some hr, by simpa using List.find?_some hr, rfl⟩
  have hknown : ∀ r ∈ rows, v.base r.id = some r := fun r hr => h.base ▸ hbase r hr
  refine ⟨fun id r r' hb hw => ?_, fun id hid => ?_⟩
  · obtain ⟨x, hx, rfl, rfl⟩ := hrow id r' hw
    obtain rfl : r = x := Option.some.inj (hb.symm.trans (hknown x hx))
    exact moves_cancelled (moves_refl _ _) (hocc r hx)
  · have hcount : cancelAudits (v.emit ⟨entry, rows.map (·.id)⟩).pending id =
        if id ∈ rows.map (·.id) then 1 else 0 := by
      simp [View.emit, h.pending, cancelAudits, isCancelOf, hentry, List.countP_singleton]
    rw [hcount] at hid ⊢
    have hmem : id ∈ rows.map (·.id) := by
      by_contra hne
      rw [if_neg hne] at hid
      exact hid rfl
    obtain ⟨r, hr, rfl⟩ := List.mem_map.mp hmem
    have hsome : (v.written r.id).isSome = true := by
      rw [hwritten, Option.isSome_map, List.find?_isSome]
      exact ⟨r, hr, by simp⟩
    obtain ⟨r', hr'⟩ := Option.isSome_iff_exists.mp hsome
    obtain ⟨x, -, -, rfl⟩ := hrow _ _ hr'
    exact ⟨if_pos hmem, r, _, hknown r hr, hr', hocc r hr, rfl⟩

theorem lawful_cancelGroup (hv : Clean v) (groupId : String) (actorUserId : Nat)
    (actorCanAdmin : Bool) (reason : Option String) (now : Time) :
    wp serializable (Lawful request)
      (Sessions.cancelGroup groupId actorUserId actorCanAdmin reason now)
      (fun _ => Lawful request) v := by
  refine wp_bind.mpr (wp_select_trusted (by simp [trusted]) fun found hnodup hfound => ?_)
  have hclean := hv.read found
  have hbase : ∀ r ∈ found, (v.read found).base r.id = some r :=
    fun r hr => hv.base_read hnodup hr (hfound r hr).2
  rw [wp_pure]
  cases found with
  | nil => exact fun _ => hclean.lawful
  | cons first rest =>
      dsimp only
      cases hcheck : checkCancelGroup groupId (first :: rest) first actorUserId actorCanAdmin with
      | error e => cases e <;> exact fun _ => hclean.lawful
      | ok u =>
          refine wp_bind.mpr (wp_bind.mpr (wp_forM
            (I := Cancelling (fun r => cancelledRow r actorUserId reason now) (first :: rest)
              (v.read (first :: rest)))
            ⟨rfl, hclean.pending, [], rfl, hclean.written⟩ (fun row left w hw => ?_) fun w hw => ?_))
          · obtain ⟨hcur, hnext⟩ := hw.step hnodup hbase
            exact wp_update_known (r := row) hcur hnext
          · exact hw.lawful rfl hbase fun r hr => occupies_of_inGroup (hfound r hr).1

theorem lawful_deleteReservationGroup (hv : Clean v) (current : AuthenticatedUser)
    (groupId : String) (reason : Option String) (now : Time) :
    wp serializable (Lawful request) (Sessions.deleteReservationGroup current groupId reason now)
      (fun _ => Lawful request) v := by
  intro outside
  refine wp_bind.mpr (wp_select (fun _ found h => h.read found) hv fun found v hv => ?_)
  exact lawful_cancelGroup hv _ _ _ _ _

end Cancels

/-- **Every program** commits only what the status machine allows. -/
theorem lawful_program (call : Call) :
    wp (service.serializable call) (Lawful call.request) (service.program call)
      (fun _ => Lawful call.request) .empty := by
  have hplain : ∀ {request : Request} {serializable : Bool} {x : Prog Unit},
      Keeps serializable request x →
        wp serializable (Lawful request) x (fun _ => Lawful request) .empty :=
    fun h => wp_mono (fun _ _ hv => hv.lawful) (h _ clean_empty.plain)
  obtain ⟨request, sticky⟩ := call
  cases request with
  | create req groupId now => exact hplain (keeps_createReservations req groupId now)
  | modify req actorUserId now => exact hplain (keeps_modifyReservation req actorUserId now)
  | delete current id reason now => exact lawful_deleteReservation clean_empty current id reason now
  | deleteGroup current groupId reason now =>
      exact lawful_deleteReservationGroup clean_empty current groupId reason now
  | tick now => exact hplain keeps_tick
  | scriptStarted p => exact hplain (keeps_onScriptStarted p)
  | scriptOutputChunk p => exact hplain (keeps_onScriptOutputChunk p)
  | scriptFinished p => exact hplain (keeps_onScriptFinished p)

/-! ## runs -/

abbrev State := System Call Reservation AuditRow Outside

abbrev Step := Isolation.Action Call Outside

def step : State → Step → Option State := System.step service

/-- Every cancel on record is the only one of its row, which is cancelled. -/
def CancelsOnce (rows : Nat → Option Reservation) (log : List AuditRow) : Prop :=
  ∀ id, cancelAudits log id ≠ 0 → cancelAudits log id = 1 ∧
    ∃ r, rows id = some r ∧ r.status = .cancelled

/-- Committed rows and audit rows that a run may start from. -/
structure Store where
  rows : Nat → Option Reservation
  nextKey : Nat
  log : List AuditRow
  keys : ∀ id r, rows id = some r → r.id = id ∧ id < nextKey
  cancels : CancelsOnce rows log

/-- No session runs. -/
def start (db : Store) : State := { rows := db.rows, nextKey := db.nextKey, log := db.log }

/-- Each change of a committed status is an edge. -/
def EdgeStep (s : State) (_ : Step) (s' : State) : Prop :=
  ∀ id r r', s.rows id = some r → s'.rows id = some r' → r'.status ≠ r.status →
    r.status.allows r'.status = true

/-- Each change of a committed status is an edge, or the two edges from `scheduled` to
the end, in the commit of a tick. -/
def MoveStep (s : State) (a : Step) (s' : State) : Prop :=
  ∀ id r r', s.rows id = some r → s'.rows id = some r' → r'.status ≠ r.status →
    r.status.allows r'.status = true ∨
      (r.status = .scheduled ∧ (r'.status = .completed ∨ r'.status = .failed) ∧
        ∃ i answer visit session now, a = .turn i answer visit ∧ s.sessions[i]? = some session ∧
          session.request.request = .tick now)

/-- A row that ended keeps its status. -/
def EndedStays (s s' : State) : Prop :=
  ∀ id r, s.rows id = some r → r.status.terminal = true →
    ∃ r', s'.rows id = some r' ∧ r'.status = r.status

/-- The invariant of a run. -/
structure Inv (s : State) : Prop where
  sessions : Isolation.Inv (fun call => Lawful call.request) s
  cancels : CancelsOnce s.rows s.log

theorem inv_start (db : Store) : Inv (start db) :=
  ⟨⟨db.keys, fun _ _ h => by simp [start] at h, fun _ _ _ _ _ h => by simp [start] at h⟩, db.cancels⟩

/-- How a commit moves a row. -/
theorem move_of_commit {s s' : State} {request : Request} {v : View Reservation AuditRow}
    (hv : Lawful request v) (hof : CommitOf s s' v) {id : Nat} {r : Reservation}
    (hr : s.rows id = some r) :
    ∃ r', s'.rows id = some r' ∧ Moves request.isTick r.status r'.status := by
  rw [hof.rows]
  cases hw : v.written id with
  | none => exact ⟨r, hr, moves_refl _ _⟩
  | some r' =>
      refine ⟨r', rfl, ?_⟩
      cases hb : v.base id with
      | none =>
          have hfresh := hof.fresh id (hw.trans_ne (Option.some_ne_none _)) hb
          rw [hr] at hfresh
          cases hfresh
      | some b =>
          obtain rfl : r = b := Option.some.inj (hr.symm.trans (hof.known id b hb))
          exact hv.moved id r r' hb hw

theorem cancelAudits_append (log more : List AuditRow) (id : Nat) :
    cancelAudits (log ++ more) id = cancelAudits log id + cancelAudits more id :=
  List.countP_append

/-- A commit that puts a cancel on record finds the row not cancelled yet. -/
theorem cancelsOnce_of_commit {s s' : State} {request : Request} {v : View Reservation AuditRow}
    (hv : Lawful request v) (hof : CommitOf s s' v) (h : CancelsOnce s.rows s.log) :
    CancelsOnce s'.rows s'.log := by
  intro id hid
  rw [hof.log, cancelAudits_append] at hid ⊢
  by_cases hpending : cancelAudits v.pending id = 0
  · rw [hpending, Nat.add_zero] at hid ⊢
    obtain ⟨hone, r, hr, hcancelled⟩ := h id hid
    obtain ⟨r', hr', hmoves⟩ := move_of_commit hv hof hr
    refine ⟨hone, r', hr', ?_⟩
    rw [hcancelled] at hmoves
    exact (moves_of_terminal hmoves rfl).symm
  · obtain ⟨hone, r, r', hb, hw, hocc, hcancelled⟩ := hv.cancels id hpending
    have hr := hof.known id r hb
    have hlog : cancelAudits s.log id = 0 := by
      by_contra hne
      obtain ⟨-, x, hx, hx'⟩ := h id hne
      obtain rfl := Option.some.inj (hr.symm.trans hx)
      rw [Reservation.occupies, hx'] at hocc
      cases hocc
    refine ⟨by rw [hlog, hone], r', ?_, hcancelled⟩
    rw [hof.rows, hw, Option.some_or]

/-- **One step**: the invariant is kept, and rows only move as they may. -/
theorem inv_step {s s' : State} {a : Step} (h : Inv s) (hs : step s a = some s') :
    Inv s' ∧ MoveStep s a s' ∧ EndedStays s s' := by
  obtain ⟨hinv, hcase⟩ := Isolation.inv_step lawful_program h.sessions hs
  cases hcase with
  | quiet rows log =>
      refine ⟨⟨hinv, by rw [rows, log]; exact h.cancels⟩, fun id r r' hr hr' hne => ?_,
        fun id r hr _ => ⟨r, rows ▸ hr, rfl⟩⟩
      rw [rows, hr, Option.some.injEq] at hr'
      exact absurd (congrArg Reservation.status hr'.symm) hne
  | commit i answer visit session v action hsession hv hof =>
      refine ⟨⟨hinv, cancelsOnce_of_commit hv hof h.cancels⟩, fun id r r' hr hr' hne => ?_,
        fun id r hr hend => ?_⟩
      · obtain ⟨x, hx, hmoves⟩ := move_of_commit hv hof hr
        obtain rfl := Option.some.inj (hx.symm.trans hr')
        rcases hmoves with heq | hedge | ⟨htick, hscheduled, hended⟩
        · exact absurd heq.symm hne
        · exact Or.inl hedge
        · obtain ⟨now, hnow⟩ := eq_tick_of_isTick htick
          exact Or.inr ⟨hscheduled, hended, i, answer, visit, session, now, action, hsession, hnow⟩
      · obtain ⟨r', hr', hmoves⟩ := move_of_commit hv hof hr
        exact ⟨r', hr', (moves_of_terminal hmoves hend).symm⟩

theorem inv_exec {s s' : State} {as : List Step} (h : Inv s) (hs : exec step s as = some s') :
    Inv s' ∧ EndedStays s s' := by
  induction as generalizing s with
  | nil =>
      obtain rfl := Option.some.inj hs
      exact ⟨h, fun id r hr _ => ⟨r, hr, rfl⟩⟩
  | cons a as ih =>
      obtain ⟨t, ht, hs⟩ := exec_cons_eq_some.mp hs
      obtain ⟨hinv, -, hstays⟩ := inv_step h ht
      obtain ⟨hinv', hstays'⟩ := ih hinv hs
      refine ⟨hinv', fun id r hr hend => ?_⟩
      obtain ⟨x, hx, heq⟩ := hstays id r hr hend
      obtain ⟨r', hr', heq'⟩ := hstays' id x hx (heq ▸ hend)
      exact ⟨r', hr', heq'.trans heq⟩

/-- **The status machine**, over every interleaving of any number of sessions: a
commit moves a row along an edge, or in a tick along the two from `scheduled` to the
end; a row that ended stays as it ended; and no row has two cancels on record. -/
theorem statusMachine (db : Store) (as bs : List Step) :
    Along step MoveStep (start db) as ∧
      (∀ s t, exec step (start db) as = some s → exec step s bs = some t → EndedStays s t) ∧
      ∀ s, exec step (start db) as = some s → ∀ id, cancelAudits s.log id ≤ 1 := by
  refine ⟨?_, fun s t hs ht => ?_, fun s hs id => ?_⟩
  · refine along_of_invariant (I := Inv) (fun s a t hs _ ht => ?_) (inv_start db)
      (meets_true (start db) as)
    obtain ⟨hinv, hmove, -⟩ := inv_step hs ht
    exact ⟨hinv, hmove⟩
  · exact (inv_exec (inv_exec (inv_start db) hs).1 ht).2
  · by_cases hid : cancelAudits s.log id = 0
    · rw [hid]
      exact Nat.zero_le 1
    · exact (((inv_exec (inv_start db) hs).1.cancels id hid).1).le

/-! ## a window that passed between two ticks -/

/-- One booked hour, which is over before a tick sees it. -/
def pastHour : Store where
  rows id := if id = 1 then some (ownedHour 1 0 1) else none
  nextKey := 2
  log := []
  keys := by
    intro id r h
    simp only [Option.ite_none_right_eq_some, Option.some.injEq] at h
    obtain ⟨rfl, rfl⟩ := h
    exact ⟨rfl, by decide⟩
  cancels := fun _ h => absurd rfl h

/-- What the tick learns. -/
def labOutside : Outside :=
  { db := smallLab .empty, grants := .empty, kill := .broken, pick := 0 }

/-- A turn of the only session. -/
def turn (visit : Option Nat) : Step := .turn 0 labOutside visit

/-- A query over both keys. -/
def queryTurns : List Step := [turn none, turn (some 0), turn (some 1), turn none]

/-- A row is moved: its server is looked up, its status flushed and audited. -/
def moveTurns : List Step := [turn none, turn none, turn none]

/-- The tick, up to its commit. -/
def lateTick : List Step :=
  .start { request := .tick (2 * hourMicros), sticky := false } :: queryTurns ++ moveTurns ++
    queryTurns ++ moveTurns ++ turn none :: queryTurns ++ queryTurns

/-- The tick starts and completes the reservation in one commit. -/
theorem not_edge : ¬ ∀ (db : Store) (as : List Step), Along step EdgeStep (start db) as := by
  intro h
  obtain ⟨s, hs, s', hs', hbefore, r', hr', hafter⟩ : ∃ s,
      exec step (start pastHour) lateTick = some s ∧ ∃ s', step s (turn none) = some s' ∧
        s.rows 1 = some (ownedHour 1 0 1) ∧
          ∃ r', s'.rows 1 = some r' ∧ r'.status = .completed :=
    ⟨_, rfl, _, rfl, rfl, _, rfl, rfl⟩
  have hedge := (h pastHour (lateTick ++ [turn none])).step_of_exec hs hs' 1 _ _ hbefore hr'
  rw [hafter] at hedge
  exact absurd (hedge (by decide)) (by decide)

end StatusMachine

end CoreLab
