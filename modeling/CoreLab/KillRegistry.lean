import CoreLab.Lib.Dict
import CoreLab.Lib.Transition
import CoreLab.ScriptLifecycle

/-!
# CoreLab.KillRegistry

Any number of `cancel_active_with_running_script` calls on the registry
`_PENDING_KILLS`, which holds one event per reservation.  A call puts its own
event there, over an earlier one, and takes out whatever is there when it
leaves.

* `owned_step` — as long as no two cancels of one reservation overlap, the entry
  of a reservation is the event of the one call that waits for it;
* `intact_run` — so every kill wakes every call that waits for it, and no call
  takes out the event of another one.
-/

namespace CoreLab

open Relational Transition

namespace KillRegistry

/-! ## calls -/

/-- Where a call is. -/
inductive Phase where
  /-- The cancel RPC is on its way. -/
  | rpc
  /-- The RPC is acknowledged; the call waits for its event. -/
  | waiting
  /-- The event was set; the reservation is being cancelled. -/
  | cancelling
  /-- The RPC or the wait failed; the attempt is being put on record. -/
  | failing
  /-- The call returned or raised, its `finally` block included. -/
  | left
deriving DecidableEq, Repr

/-- A call, with the event it created. -/
structure Call where
  id : Nat
  reservationId : Nat
  phase : Phase
  signalled : Bool
deriving DecidableEq, Repr

instance : Keyed Call := ⟨Call.id⟩

/-- `pending` is `_PENDING_KILLS`, with the call whose event is under each id. -/
structure World where
  db : Db
  pending : Dict Int Nat
  calls : Table Call

/-- One atomic step; `leaves` is the end of a call, however it ends, and
`commit` what the rest of the backend does to the database. -/
inductive Action where
  | register (reservationId : Nat)
  | rpcAcked (call : Nat)
  | rpcFails (call : Nat)
  | wakes (call : Nat)
  | timesOut (call : Nat)
  | leaves (call : Nat)
  | finished (e : ScriptFinishedEvent)
  | commit (db : Db)

namespace World

/-! ## the registry -/

/-- `_register_pending_kill`, at the start of a new call. -/
def register (w : World) (reservationId : Nat) : World :=
  { w with
    pending := w.pending.set reservationId w.calls.nextKey
    calls := w.calls.append ⟨fun id =>
      { id := id, reservationId := reservationId, phase := .rpc, signalled := false }, fun _ => rfl⟩ }

/-- `_discard_pending_kill`. -/
def discard (w : World) (reservationId : Nat) : World :=
  { w with pending := w.pending.erase reservationId }

/-- `event.set()` on the event of call `id`. -/
def wakeCall (id : Nat) (c : Call) : Call := if c.id = id then { c with signalled := true } else c

@[simp] theorem id_wakeCall (id : Nat) (c : Call) : (wakeCall id c).id = c.id := by
  unfold wakeCall; split <;> rfl

/-- `_signal_lifecycle_kill`. -/
def signal (w : World) (reservationId : Int) : World :=
  match w.pending.get? reservationId with
  | some id => { w with calls := w.calls.mapRows (wakeCall id) (id_wakeCall id) }
  | none => w

/-- The registry as the rest of the backend sees it. -/
def waiters (w : World) : PendingKills :=
  w.pending.entries.map fun e =>
    { reservationId := e.1.toNat, signalled := (w.calls.get? e.2).any Call.signalled }

/-! ## steps -/

/-- A call in phase `p` goes on to phase `q`. -/
def moveCall (w : World) (id : Nat) (p q : Phase) : Option World :=
  match w.calls.get? id with
  | some c => if c.phase = p then some { w with calls := w.calls.put { c with phase := q } } else none
  | none => none

/-- A call whose event is set is woken. -/
def wakes (w : World) (id : Nat) : Option World :=
  match w.calls.get? id with
  | some c => if c.signalled = true then w.moveCall id .waiting .cancelling else none
  | none => none

/-- The `finally` block. -/
def leaves (w : World) (id : Nat) : Option World :=
  match w.calls.get? id with
  | some c =>
    if c.phase = .left then none
    else some { w.discard c.reservationId with calls := w.calls.put { c with phase := .left } }
  | none => none

/-- `on_script_finished`: a handler that raises has not signalled anything. -/
def finished (w : World) (e : ScriptFinishedEvent) : World :=
  match onScriptFinished w.db w.waiters e with
  | .error _ => w
  | .ok (db, _) =>
    if e.killedByCorelab = true ∧ (findReservation w.db e.reservationId).isSome then
      { w.signal e.reservationId with db := db }
    else { w with db := db }

/-- Reservations are never deleted. -/
def keepsRows (db db' : Db) : Bool :=
  db.reservations.rows.all fun r => (db'.reservations.get? r.id).isSome

/-- One step; a cancel was called on a row that its request had read. -/
def step (w : World) : Action → Option World
  | .register reservationId =>
    if (w.db.reservations.get? reservationId).isSome then some (w.register reservationId) else none
  | .rpcAcked id => w.moveCall id .rpc .waiting
  | .rpcFails id => w.moveCall id .rpc .failing
  | .wakes id => w.wakes id
  | .timesOut id => w.moveCall id .waiting .failing
  | .leaves id => w.leaves id
  | .finished e => some (w.finished e)
  | .commit db => if keepsRows w.db db then some { w with db := db } else none

end World

open World

/-! ## the property and its condition -/

/-- The call has registered and not left yet. -/
def Call.Live (c : Call) : Prop := c.phase ≠ .left

instance (c : Call) : Decidable c.Live := inferInstanceAs (Decidable (_ ≠ _))

/-- The registry holds the event of the call. -/
def Registered (w : World) (c : Call) : Prop := w.pending.get? c.reservationId = some c.id

/-- What a step must not break: a kill wakes every live call of its reservation,
and the end of a call, like every other step of it, leaves the registrations of
the other calls alone. -/
structure Intact (w : World) (a : Action) (w' : World) : Prop where
  woken : ∀ e, a = .finished e → e.killedByCorelab = true → ∀ c ∈ w.calls, c.Live →
    (c.reservationId : Int) = e.reservationId →
      ∃ c', w'.calls.get? c.id = some c' ∧ c'.signalled = true
  kept : (∀ r, a ≠ .register r) → ∀ c ∈ w.calls, c.Live → a ≠ .leaves c.id → Registered w c →
    Registered w' c

/-- A cancel does not overlap another one of its reservation, and the handler
of a kill reaches its last statement: the columns take what its frame reports, or
the row was not running any more. -/
def Alone (w : World) : Action → Prop
  | .register reservationId => ∀ c ∈ w.calls.rows, c.reservationId = reservationId → ¬ c.Live
  | .finished e => e.killedByCorelab = true → ∀ row ∈ findReservation w.db e.reservationId,
      row.scriptStatus = some .running → e.fits = true
  | _ => True

instance (w : World) : ∀ a, Decidable (Alone w a)
  | .register reservationId => inferInstanceAs
      (Decidable (∀ c ∈ w.calls.rows, c.reservationId = reservationId → ¬ c.Live))
  | .finished e => inferInstanceAs (Decidable (e.killedByCorelab = true →
      ∀ row ∈ findReservation w.db e.reservationId,
        row.scriptStatus = some .running → e.fits = true))
  | .rpcAcked _ | .rpcFails _ | .wakes _ | .timesOut _ | .leaves _ | .commit _ => .isTrue True.intro

/-- The backend has just started. -/
def Started (w : World) : Prop := w.pending.entries = [] ∧ w.calls.rows = []

instance (w : World) : Decidable (Started w) := inferInstanceAs (Decidable (_ ∧ _))

/-! ## what a step does -/

section Steps

variable {w w' : World} {id : Nat} {p q : Phase}

theorem moveCall_eq_some (h : w.moveCall id p q = some w') :
    ∃ c, w.calls.get? id = some c ∧ c.phase = p ∧
      w' = { w with calls := w.calls.put { c with phase := q } } := by
  unfold moveCall at h
  split at h
  · next c hc =>
      split at h
      · next hp => exact ⟨c, hc, hp, (Option.some.inj h).symm⟩
      · cases h
  · cases h

theorem wakes_eq_some (h : w.wakes id = some w') : w.moveCall id .waiting .cancelling = some w' := by
  unfold wakes at h
  split at h
  · split at h
    · exact h
    · cases h
  · cases h

theorem leaves_eq_some (h : w.leaves id = some w') :
    ∃ c, w.calls.get? id = some c ∧ c.Live ∧
      w' = { w.discard c.reservationId with calls := w.calls.put { c with phase := .left } } := by
  unfold leaves at h
  split at h
  · next c hc =>
      split at h
      · cases h
      · next hlive => exact ⟨c, hc, hlive, (Option.some.inj h).symm⟩
  · cases h

@[simp] theorem pending_signal (w : World) (r : Int) : (w.signal r).pending = w.pending := by
  unfold signal; split <;> rfl

/-- A finished frame changes rows and events, and no registration. -/
theorem pending_finished (w : World) (e : ScriptFinishedEvent) :
    (w.finished e).pending = w.pending := by
  unfold finished
  split
  · rfl
  · split
    · exact pending_signal w _
    · rfl

/-- Setting events leaves everything else of a call. -/
theorem mem_calls_signal {r : Int} {c : Call} (h : c ∈ (w.signal r).calls) :
    ∃ d ∈ w.calls, c.id = d.id ∧ c.reservationId = d.reservationId ∧ c.phase = d.phase := by
  unfold signal at h
  split at h
  · next id _ =>
      have hmapped : c ∈ w.calls.mapRows (wakeCall id) (id_wakeCall id) := h
      obtain ⟨d, hd, rfl⟩ := Table.mem_mapRows.mp hmapped
      refine ⟨d, hd, id_wakeCall id d, ?_⟩
      unfold wakeCall
      split <;> exact ⟨rfl, rfl⟩
  · exact ⟨c, h, rfl, rfl, rfl⟩

theorem mem_calls_finished {e : ScriptFinishedEvent} {c : Call} (h : c ∈ (w.finished e).calls) :
    ∃ d ∈ w.calls, c.id = d.id ∧ c.reservationId = d.reservationId ∧ c.phase = d.phase := by
  unfold finished at h
  split at h
  · exact ⟨c, h, rfl, rfl, rfl⟩
  · split at h
    · exact mem_calls_signal h
    · exact ⟨c, h, rfl, rfl, rfl⟩

/-- The handler of a finished frame deletes no row. -/
theorem isSome_finished {e : ScriptFinishedEvent} {r : Nat}
    (h : (w.db.reservations.get? r).isSome) : ((w.finished e).db.reservations.get? r).isSome := by
  unfold finished
  split
  · exact h
  · next db kills hok =>
      have hrow : (db.reservations.get? r).isSome := by
        cases onScriptFinished_ok hok with
        | unknown _ eq _ => exact eq ▸ h
        | stale _ _ _ eq _ => exact eq ▸ h
        | ended row row' entries _ _ _ _ _ _ eq _ =>
            rw [eq, Db.reservations_write, Table.get?_put]
            split
            · rw [Option.isSome_map]
              exact h
            · exact h
      split <;> exact hrow

theorem isSome_of_keepsRows {db db' : Db} {r : Nat} (h : keepsRows db db' = true)
    (hr : (db.reservations.get? r).isSome) : (db'.reservations.get? r).isSome := by
  obtain ⟨row, hrow⟩ := Option.isSome_iff_exists.mp hr
  have hkept := List.all_eq_true.mp h row (Table.mem_of_get? hrow)
  have hid : row.id = r := Table.key_of_get? hrow
  exact hid ▸ hkept

theorem get?_calls_signal (w : World) (r : Int) (id : Nat) :
    (w.signal r).calls.get? id =
      (w.calls.get? id).map fun c => if w.pending.get? r = some id then { c with signalled := true } else c := by
  unfold signal
  split
  · next j hj =>
      rw [Table.get?_mapRows, hj]
      cases hc : w.calls.get? id with
      | none => rfl
      | some c =>
          have hid : c.id = id := Table.key_of_get? hc
          simp [wakeCall, hid, eq_comm]
  · next hnone => simp [hnone]

end Steps

/-! ## each waiting call holds its entry -/

/-- Each live call holds the entry of its reservation, which exists. -/
def Owned (w : World) : Prop :=
  ∀ c ∈ w.calls, c.Live → Registered w c ∧ (w.db.reservations.get? c.reservationId).isSome

section Owning

variable {w w' : World}

/-- Two calls that hold the entry of one reservation are one call. -/
theorem Owned.eq_of_reservation {c d : Call} (h : Owned w) (hc : c ∈ w.calls) (hd : d ∈ w.calls)
    (hclive : c.Live) (hdlive : d.Live) (heq : c.reservationId = d.reservationId) : c = d := by
  have hcreg := (h c hc hclive).1
  have hdreg := (h d hd hdlive).1
  rw [Registered, heq, hdreg, Option.some.injEq] at hcreg
  exact Table.eq_of_key_eq hc hd hcreg.symm

theorem Owned.moveCall {id : Nat} {p q : Phase} (h : Owned w) (hp : p ≠ .left)
    (hstep : w.moveCall id p q = some w') : Owned w' := by
  obtain ⟨c, hc, hphase, rfl⟩ := moveCall_eq_some hstep
  intro d hd hlive
  rcases Table.mem_put hd with rfl | hold
  · exact h c (Table.mem_of_get? hc) fun hleft => hp (hphase.symm.trans hleft)
  · exact h d hold hlive

/-- A call that leaves takes its own entry, which no other call holds. -/
theorem Owned.leaves {id : Nat} (h : Owned w) (hstep : w.leaves id = some w') : Owned w' := by
  obtain ⟨c, hc, hclive, rfl⟩ := leaves_eq_some hstep
  have hmem : c ∈ w.calls := Table.mem_of_get? hc
  intro d hd hlive
  rcases Table.mem_put_or hd with rfl | ⟨hold, hother⟩
  · exact absurd rfl hlive
  · obtain ⟨hreg, hrow⟩ := h d hold hlive
    refine ⟨?_, hrow⟩
    have hne : (d.reservationId : Int) ≠ c.reservationId := by
      intro heq
      have hdc : d = c := h.eq_of_reservation hold hmem hlive hclive (by exact_mod_cast heq)
      have hid : d.id = c.id := congrArg Call.id hdc
      exact hother hid
    rw [Registered, World.discard, Dict.get?_erase, if_neg hne]
    exact hreg

/-- A call that finds no live call for its reservation takes the entry over. -/
theorem Owned.register {r : Nat} (h : Owned w) (hrow : (w.db.reservations.get? r).isSome)
    (halone : ∀ c ∈ w.calls.rows, c.reservationId = r → ¬ c.Live) : Owned (w.register r) := by
  intro c hc hlive
  simp only [Registered, World.register, Dict.get?_set]
  rcases List.mem_append.mp hc with hold | hnew
  · have hne : (c.reservationId : Int) ≠ r := fun heq =>
      halone c hold (by exact_mod_cast heq) hlive
    rw [if_neg hne]
    exact h c hold hlive
  · obtain rfl := List.mem_singleton.mp hnew
    exact ⟨if_pos rfl, hrow⟩

theorem owned_step {a : Action} (h : Owned w) (hok : Alone w a) (hstep : w.step a = some w') :
    Owned w' := by
  cases a with
  | register r =>
      simp only [step, Option.ite_none_right_eq_some, Option.some.injEq] at hstep
      exact hstep.2 ▸ h.register hstep.1 hok
  | rpcAcked id | rpcFails id => exact h.moveCall (p := .rpc) (by decide) hstep
  | timesOut id => exact h.moveCall (p := .waiting) (by decide) hstep
  | wakes id => exact h.moveCall (p := .waiting) (by decide) (wakes_eq_some hstep)
  | leaves id => exact h.leaves hstep
  | finished e =>
      obtain rfl := Option.some.inj hstep
      intro c hc hlive
      obtain ⟨d, hd, hid, hres, hphase⟩ := mem_calls_finished hc
      have hdlive : d.Live := fun hleft => hlive (hphase.trans hleft)
      obtain ⟨hreg, hrow⟩ := h d hd hdlive
      rw [Registered, pending_finished, hid, hres]
      exact ⟨hreg, isSome_finished hrow⟩
  | commit db =>
      simp only [step, Option.ite_none_right_eq_some, Option.some.injEq] at hstep
      obtain ⟨hkept, rfl⟩ := hstep
      intro c hc hlive
      obtain ⟨hreg, hrow⟩ := h c hc hlive
      exact ⟨hreg, isSome_of_keepsRows hkept hrow⟩

/-- The handler of a kill of an existing row reaches its last statement. -/
theorem onScriptFinished_isOk {db : Db} {e : ScriptFinishedEvent} (kills : PendingKills)
    (h : ∀ row ∈ findReservation db e.reservationId, row.scriptStatus = some .running →
      e.fits = true) : ∃ s, onScriptFinished db kills e = .ok s := by
  unfold onScriptFinished
  cases hrow : findReservation db e.reservationId with
  | none => exact ⟨_, rfl⟩
  | some row =>
      dsimp only
      split
      · next hrunning =>
          have hfits := h row hrow hrunning
          have hallowed : ScriptStatus.allowed row.scriptStatus e.newStatus = true := by
            rw [hrunning]
            unfold ScriptFinishedEvent.newStatus
            split
            · rfl
            · split <;> rfl
          have hup : ∃ x, updateScriptStatus db row e.newStatus e.exitCode none
              (some e.finishedAt.stored) = .ok x := by
            unfold updateScriptStatus
            rw [hallowed]
            exact ⟨_, rfl⟩
          obtain ⟨⟨db', row'⟩, hup⟩ := hup
          rw [finishRunning, hup]
          dsimp only [bind, Except.bind]
          rw [hfits]
          exact ⟨_, rfl⟩
      · exact ⟨_, rfl⟩

/-- A kill of a reservation with a live call sets the event of that call. -/
theorem woken_finished {e : ScriptFinishedEvent} (h : Owned w) (hok : Alone w (.finished e))
    (hkilled : e.killedByCorelab = true) {c : Call} (hc : c ∈ w.calls) (hlive : c.Live)
    (hres : (c.reservationId : Int) = e.reservationId) :
    ∃ c', (w.finished e).calls.get? c.id = some c' ∧ c'.signalled = true := by
  obtain ⟨hreg, hrow⟩ := h c hc hlive
  obtain ⟨⟨db, kills⟩, hhandled⟩ := onScriptFinished_isOk w.waiters (hok hkilled)
  have hfound : (findReservation w.db e.reservationId).isSome := by
    rw [← hres, findReservation, if_pos (Int.natCast_nonneg _), Int.toNat_natCast]
    exact hrow
  have hget : (w.signal e.reservationId).calls.get? c.id = some { c with signalled := true } := by
    have hself : w.calls.get? c.id = some c := Table.get?_key hc
    have hentry : w.pending.get? e.reservationId = some c.id := hres ▸ hreg
    rw [get?_calls_signal, hself, Option.map_some, if_pos hentry]
  unfold finished
  rw [hhandled]
  dsimp only
  rw [if_pos ⟨hkilled, hfound⟩]
  exact ⟨_, hget, rfl⟩

/-- Only a call that registers, and the end of a call, change the registry. -/
theorem intact_step {a : Action} (h : Owned w) (hok : Alone w a) (hstep : w.step a = some w') :
    Intact w a w' := by
  refine ⟨?_, ?_⟩
  · rintro e rfl hkilled c hc hlive hres
    obtain rfl := Option.some.inj hstep
    exact woken_finished h hok hkilled hc hlive hres
  · intro hnew c hc hlive hother hreg
    cases a with
    | register r => exact absurd rfl (hnew r)
    | rpcAcked id | rpcFails id | timesOut id =>
        obtain ⟨_, -, -, rfl⟩ := moveCall_eq_some hstep
        exact hreg
    | wakes id =>
        obtain ⟨_, -, -, rfl⟩ := moveCall_eq_some (wakes_eq_some hstep)
        exact hreg
    | leaves id =>
        obtain ⟨d, hd, hdlive, rfl⟩ := leaves_eq_some hstep
        have hid : d.id = id := Table.key_of_get? hd
        have hne : (c.reservationId : Int) ≠ d.reservationId := by
          intro heq
          have hcd := h.eq_of_reservation hc (Table.mem_of_get? hd) hlive hdlive
            (by exact_mod_cast heq)
          exact hother (by rw [hcd, hid])
        rw [Registered, World.discard, Dict.get?_erase, if_neg hne]
        exact hreg
    | finished e =>
        obtain rfl := Option.some.inj hstep
        rw [Registered, pending_finished]
        exact hreg
    | commit db =>
        simp only [step, Option.ite_none_right_eq_some, Option.some.injEq] at hstep
        exact hstep.2 ▸ hreg

end Owning

/-- **The registry of kills** serves every call, in any interleaving in which no
two cancels of one reservation overlap: each kill of a reservation wakes the
calls that wait for it, and no call takes out the registration of another. -/
theorem intact_run {w : World} {as : List Action} (hw : Started w)
    (hok : Meets step Alone w as) : Along step Intact w as := by
  have hinit : Owned w := by
    intro c hc
    rw [Table.mem_def, hw.2] at hc
    cases hc
  exact along_of_invariant (fun _ _ _ hs hok ht => ⟨owned_step hs hok ht, intact_step hs hok ht⟩)
    hinit hok

/-- The backend after a start, with the reservation of `smallLab`. -/
def startedWorld : World :=
  { db := smallLab (.single { dueScript with status := .active, scriptStatus := some .running })
    pending := .empty, calls := .empty }

/-- The script of the reservation was stopped by a cancel. -/
def killConfirmed : ScriptFinishedEvent :=
  { reservationId := 7, exitCode := some (-15), finishedAt := .ofStored 2
    outputSizeBytes := 0, logPath := none, killedByCorelab := true }

/-- Two cancels, one after the other; the first one fails before the kill. -/
def oneByOne : List Action :=
  [.register 7, .rpcFails 1, .leaves 1, .register 7, .rpcAcked 2, .finished killConfirmed, .wakes 2,
   .leaves 2]

theorem intact_run_oneByOne :
    (exec step startedWorld oneByOne).map (fun w => w.calls.rows.map (·.signalled)) =
      some [false, true] ∧
    Along step Intact startedWorld oneByOne :=
  ⟨by decide +kernel, intact_run (by decide +kernel) (by decide +kernel)⟩

/-- A second cancel of the reservation takes the place of the first one, whose
end takes the second one's registration out: the kill wakes neither. -/
def crossed : World :=
  (exec step startedWorld [.register 7, .register 7, .rpcFails 1, .leaves 1]).get (by decide +kernel)

theorem not_intact : ¬ ∀ (w : World) (as : List Action), Started w → Along step Intact w as := by
  intro h
  have halong := h startedWorld ([.register 7, .register 7, .rpcFails 1, .leaves 1] ++
    [.finished killConfirmed]) (by decide +kernel)
  have hintact : Intact crossed (.finished killConfirmed) (crossed.finished killConfirmed) :=
    halong.step_of_exec (Option.some_get _).symm rfl
  obtain ⟨c', hc', hsignalled⟩ := hintact.woken killConfirmed rfl rfl ⟨2, 7, .rpc, false⟩
    (Table.mem_of_get? (k := 2) (by decide +kernel)) (by decide) rfl
  have hunset : (crossed.finished killConfirmed).calls.get? 2 = some ⟨2, 7, .rpc, false⟩ := by
    decide +kernel
  rw [hunset] at hc'
  cases hc'
  cases hsignalled

end KillRegistry

end CoreLab
