import CoreLab.AccountService
import CoreLab.Lib.Transition
import CoreLab.ScriptLifecycle

/-!
# CoreLab.AgentWs

The receive loop of one authenticated agent connection.  Telemetry and account
scans are written under the server of the connection; the script events load
the reservation that they name, whichever server it is on.

* `changed_handleFrame` — the one reservation row a frame can change;
* `frames_isolated` — frames that keep to the reservations of their server
  change no other row and wake no other waiter.
-/

namespace CoreLab

open Relational Loops Transition

namespace AgentWs

/-! ## frames -/

/-- `GpuTelemetryEntry`, with the columns the database keeps of it. -/
structure GpuTelemetryEntry where
  gpuIndex : Nat
  memoryTotalMb : Option Int
deriving DecidableEq, Repr

/-- `ComplianceViolationEvent`, with the fields its audit row takes. -/
structure ComplianceViolationEvent where
  serverId : Int
  gpuId : Int
deriving DecidableEq, Repr

/-- A well-formed frame from the agent. -/
inductive Frame where
  | heartbeat
  | pong
  | gpuTelemetry (gpus : List GpuTelemetryEntry)
  | accountScan (linuxUsernames : List String)
  | scriptStarted (p : ScriptStartedEvent)
  | scriptOutputChunk (p : ScriptOutputChunkEvent)
  | scriptFinished (p : ScriptFinishedEvent)
  | complianceViolation (p : ComplianceViolationEvent)
deriving DecidableEq, Repr

/-- What the handlers read and write. -/
structure Backend where
  db : Db
  kills : PendingKills

/-! ## handlers -/

/-- `is_server_approved`. -/
def isServerApproved (db : Db) (serverId : Nat) : Bool :=
  (db.servers.get? serverId).any fun s => s.isActive && s.approvedAt.isSome

/-- The value that a statement binds; the store refuses one outside of its column. -/
def orRefuse {α : Type} : Option α → Except Failure α
  | some a => .ok a
  | none => .error .integrity

/-- One `INSERT … ON DUPLICATE KEY UPDATE` on `(server_id, gpu_index)`. -/
def upsertGpu (serverId : Nat) (gpus : Table Gpu) (entry : GpuTelemetryEntry) :
    Except Failure (Table Gpu) := do
  let gpuIndex ← orRefuse (unsignedColumn 32 entry.gpuIndex)
  let memoryTotalMb ← orRefuse (unsignedOrNull 32 entry.memoryTotalMb)
  match gpus.rows.find? fun g => g.serverId = serverId && g.gpuIndex = gpuIndex with
  | some g => .ok (gpus.put { g with memoryTotalMb := memoryTotalMb })
  | none => .ok (gpus.append ⟨fun id =>
      { id := id, serverId := serverId, gpuIndex := gpuIndex, memoryTotalMb := memoryTotalMb },
      fun _ => rfl⟩)

/-- `upsert_telemetry`. -/
def upsertTelemetry (db : Db) (serverId : Nat) (entries : List GpuTelemetryEntry) :
    Except Failure Db :=
  if isServerApproved db serverId then do
    let gpus ← entries.foldlM (upsertGpu serverId) db.gpus
    .ok { db with gpus := gpus }
  else .ok db

/-- `handle_violation`: the audit row repeats the ids of the frame. -/
def handleViolation (db : Db) (p : ComplianceViolationEvent) : Except Failure Db := do
  let gpuId ← orRefuse (unsignedColumn 64 p.gpuId)
  let serverId ← orRefuse (unsignedColumn 64 p.serverId)
  .ok (db.audit
    { action := .complianceViolation, actorUserId := none, targetType := .gpu
      targetId := some gpuId, targetServerId := some serverId })

/-- The handler of a frame, on the connection of server `serverId`. -/
def handleFrame (b : Backend) (serverId : Nat) : Frame → Except Failure Backend
  | .heartbeat | .pong => .ok b
  | .gpuTelemetry gpus => (upsertTelemetry b.db serverId gpus).map fun db => { b with db := db }
  | .accountScan names => .ok { b with db := syncDiscovered b.db serverId names }
  | .scriptStarted p => (onScriptStarted b.db p).map fun db => { b with db := db }
  | .scriptOutputChunk p => .ok { b with db := onScriptOutputChunk b.db p }
  | .scriptFinished p => (onScriptFinished b.db b.kills p).map fun (db, kills) => ⟨db, kills⟩
  | .complianceViolation p => (handleViolation b.db p).map fun db => { b with db := db }

/-- Heartbeats and pongs are taken from a server that waits for its approval;
every other frame of it is ignored. -/
def ignored (db : Db) (serverId : Nat) : Frame → Bool
  | .heartbeat | .pong => false
  | _ => !isServerApproved db serverId

/-! ## the connection -/

/-- A connection authenticated for `serverId`, and the backend behind it. -/
structure Connection where
  serverId : Nat
  backend : Backend
  isOpen : Bool

/-- What happens next: a frame arrives, the rest of the backend moves on, or the
connection is closed. -/
inductive Action where
  | receive (f : Frame)
  | elsewhere (b : Backend)
  | close

/-- The loop body: a handler that raises ends the loop, its session rolled back. -/
def receive (c : Connection) (f : Frame) : Connection :=
  if ignored c.backend.db c.serverId f then c
  else match handleFrame c.backend c.serverId f with
    | .ok b => { c with backend := b }
    | .error _ => { c with isOpen := false }

/-- One step; no frame is received on a closed connection. -/
def step (c : Connection) : Action → Option Connection
  | .receive f => if c.isOpen then some (receive c f) else none
  | .elsewhere b => some { c with backend := b }
  | .close => some { c with isOpen := false }

/-! ## isolation -/

/-- The two databases differ in reservations of the server only. -/
def RowsOf (serverId : Nat) (db db' : Db) : Prop :=
  ∀ id, db'.reservations.get? id ≠ db.reservations.get? id →
    ∃ r, db.reservations.get? id = some r ∧ r.serverId = serverId

/-- The waiters that were signalled wait for reservations of the server, or for
none. -/
def WakesOf (serverId : Nat) (db : Db) (kills kills' : PendingKills) : Prop :=
  ∀ id r, db.reservations.get? id = some r → r.serverId ≠ serverId →
    kills'.isSignalled id = true → kills.isSignalled id = true

/-- What a frame may do: the rows it changes are of the connection's server, and
so are the reservations whose waiters it signals. -/
def Isolated (c : Connection) (a : Action) (c' : Connection) : Prop :=
  match a with
  | .receive _ => RowsOf c.serverId c.backend.db c'.backend.db ∧
      WakesOf c.serverId c.backend.db c.backend.kills c'.backend.kills
  | .elsewhere _ | .close => True

/-- The reservation a frame names. -/
def Frame.reservationId? : Frame → Option Int
  | .scriptStarted p => some p.reservationId
  | .scriptOutputChunk p => some p.reservationId
  | .scriptFinished p => some p.reservationId
  | _ => none

/-- The frame comes too late to do anything to the row it names. -/
def TooLate (kills : PendingKills) (row : Reservation) : Frame → Prop
  | .scriptStarted _ => row.scriptStatus ≠ none ∧ row.scriptStatus ≠ some .running
  | .scriptOutputChunk p => p.text = ""
  | .scriptFinished p => row.scriptStatus ≠ some .running ∧
      (p.killedByCorelab = false ∨ ∀ w ∈ kills, w.reservationId ≠ row.id)
  | _ => True

/-- A frame that is handled keeps to its server: the reservation it names is
unknown, or on that server, or past the frame. -/
def OwnFrame (c : Connection) : Action → Prop
  | .receive f => ignored c.backend.db c.serverId f = false →
      ∀ id ∈ f.reservationId?, ∀ row ∈ findReservation c.backend.db id,
        row.serverId = c.serverId ∨ TooLate c.backend.kills row f
  | .elsewhere _ | .close => True

instance (kills : PendingKills) (row : Reservation) : ∀ f, Decidable (TooLate kills row f)
  | .scriptStarted _ => inferInstanceAs (Decidable (_ ∧ _))
  | .scriptOutputChunk _ => inferInstanceAs (Decidable (_ = _))
  | .scriptFinished _ => inferInstanceAs (Decidable (_ ∧ (_ ∨ ∀ w ∈ kills, _)))
  | .heartbeat | .pong | .gpuTelemetry _ | .accountScan _ | .complianceViolation _ => .isTrue True.intro

instance (c : Connection) : ∀ a, Decidable (OwnFrame c a)
  | .receive f => inferInstanceAs (Decidable (_ → ∀ id ∈ f.reservationId?,
      ∀ row ∈ findReservation c.backend.db id, _))
  | .elsewhere _ | .close => .isTrue True.intro

/-! ## one frame -/

section OneFrame

variable {serverId : Nat} {db db' : Db} {kills kills' : PendingKills}

theorem rowsOf_of_eq (h : db'.reservations = db.reservations) : RowsOf serverId db db' :=
  fun _ hne => absurd (congrArg (Table.get? · _) h) hne

theorem WakesOf.refl : WakesOf serverId db kills kills := fun _ _ _ _ h => h

/-- Rewriting one row of the server. -/
theorem rowsOf_write {id : Int} {row row' : Reservation} {entries : List AuditEntry}
    (hrow : findReservation db id = some row) (hid : row'.id = row.id)
    (hserver : row.serverId = serverId) : RowsOf serverId db (db.write row' entries) := by
  intro k hne
  have hk : k = row.id := by
    by_contra hother
    exact hne (Table.get?_put_ne fun he => hother (he.symm.trans hid))
  exact ⟨row, hk ▸ (findReservation_eq_some hrow).2, hserver⟩

theorem rowsOf_started {p : ScriptStartedEvent} (h : onScriptStarted db p = .ok db')
    (hown : ∀ row ∈ findReservation db p.reservationId,
      row.serverId = serverId ∨ TooLate kills row (.scriptStarted p)) : RowsOf serverId db db' := by
  cases onScriptStarted_ok h with
  | unknown _ eq => exact rowsOf_of_eq (congrArg Db.reservations eq)
  | stale _ _ _ eq => exact rowsOf_of_eq (congrArg Db.reservations eq)
  | recorded row row' entries hrow live booking _ _ _ _ _ eq =>
      rcases hown row hrow with hserver | ⟨hnone, hrunning⟩
      · exact eq ▸ rowsOf_write hrow booking.id hserver
      · rcases live with hlive | hlive
        · exact absurd hlive hnone
        · exact absurd hlive hrunning

theorem rowsOf_outputChunk {p : ScriptOutputChunkEvent}
    (hown : ∀ row ∈ findReservation db p.reservationId,
      row.serverId = serverId ∨ TooLate kills row (.scriptOutputChunk p)) :
    RowsOf serverId db (onScriptOutputChunk db p) := by
  rcases onScriptOutputChunk_cases db p with heq | ⟨row, row', hrow, htext, booking, -, -, heq⟩
  · exact rowsOf_of_eq (congrArg Db.reservations heq)
  · rw [heq]
    exact rowsOf_write hrow booking.id ((hown row hrow).resolve_right htext)

/-- The waiters a finished frame of some row wakes are of that row. -/
theorem isSignalled_killsAfter_of_row {p : ScriptFinishedEvent} {row : Reservation} {k : Nat}
    (hrow : findReservation db p.reservationId = some row)
    (h : (killsAfter kills p).isSignalled k = true) : kills.isSignalled k = true ∨ k = row.id := by
  refine (isSignalled_killsAfter h).imp_right fun hwoken => ?_
  have hid := (findReservation_eq_some hrow).1
  have hk := hwoken.2
  omega

/-- A reservation without a waiter stays without a signalled one. -/
theorem isSignalled_of_no_waiter {id : Int} {k : Nat} (h : ∀ w ∈ kills, w.reservationId ≠ k) :
    (kills.signal id).isSignalled k = false := by
  simp only [PendingKills.isSignalled, PendingKills.signal, List.any_map, List.any_eq_false,
    Function.comp_apply]
  intro w hw
  have hk := h w hw
  split <;> simp [hk]

theorem isolated_finished {p : ScriptFinishedEvent}
    (h : onScriptFinished db kills p = .ok (db', kills'))
    (hown : ∀ row ∈ findReservation db p.reservationId,
      row.serverId = serverId ∨ TooLate kills row (.scriptFinished p)) :
    RowsOf serverId db db' ∧ WakesOf serverId db kills kills' := by
  have hwakes : ∀ row, findReservation db p.reservationId = some row → row.serverId = serverId →
      WakesOf serverId db kills (killsAfter kills p) := by
    intro row hrow hserver k r hr hother hsignalled
    rcases isSignalled_killsAfter_of_row hrow hsignalled with hbefore | rfl
    · exact hbefore
    · -- the named row is the connection's own
      rw [(findReservation_eq_some hrow).2, Option.some.injEq] at hr
      exact absurd (hr ▸ hserver) hother
  cases onScriptFinished_ok h with
  | unknown _ eq keep =>
      exact ⟨rowsOf_of_eq (congrArg Db.reservations eq), keep ▸ WakesOf.refl⟩
  | stale row hrow _ eq wake =>
      refine ⟨rowsOf_of_eq (congrArg Db.reservations eq), ?_⟩
      rw [wake]
      rcases hown row hrow with hserver | ⟨-, hnatural | hnowaiter⟩
      · exact hwakes row hrow hserver
      · rw [killsAfter, hnatural]
        exact WakesOf.refl
      · intro k r _ _ hsignalled
        rcases isSignalled_killsAfter_of_row hrow hsignalled with hbefore | rfl
        · exact hbefore
        · unfold killsAfter at hsignalled
          split at hsignalled
          · rw [isSignalled_of_no_waiter hnowaiter] at hsignalled
            cases hsignalled
          · exact hsignalled
  | ended row row' entries hrow running booking _ _ _ eq wake =>
      have hserver : row.serverId = serverId :=
        (hown row hrow).resolve_right fun hstale => hstale.1 running
      rw [eq, wake]
      exact ⟨rowsOf_write hrow booking.id hserver, hwakes row hrow hserver⟩

end OneFrame

/-- A telemetry entry rewrites a card of its server, or adds one. -/
theorem extends_upsertGpu {serverId : Nat} {gpus gpus' : Table Gpu} {entry : GpuTelemetryEntry}
    (h : upsertGpu serverId gpus entry = .ok gpus') :
    gpus.Extends (fun g g' => g'.serverId = g.serverId) gpus' := by
  simp only [upsertGpu, bind_eq_ok_iff] at h
  obtain ⟨gpuIndex, -, memoryTotalMb, -, h⟩ := h
  split at h
  · next g hfound =>
      have hstored : gpus.get? g.id = some g := Table.get?_key (List.mem_of_find?_eq_some hfound)
      exact Except.ok.inj h ▸ Table.extends_put (fun _ => rfl) hstored rfl
  · exact Except.ok.inj h ▸ Table.extends_append (fun g => Eq.refl g.serverId) gpus _

theorem upsertTelemetry_ok {db db' : Db} {serverId : Nat} {entries : List GpuTelemetryEntry}
    (h : upsertTelemetry db serverId entries = .ok db') :
    ∃ gpus, db' = { db with gpus := gpus } ∧
      db.gpus.Extends (fun g g' => g'.serverId = g.serverId) gpus := by
  have hrefl : db.gpus.Extends (fun g g' => g'.serverId = g.serverId) db.gpus :=
    Table.extends_refl (fun g => Eq.refl g.serverId) db.gpus
  unfold upsertTelemetry at h
  split at h
  · rw [bind_eq_ok_iff] at h
    obtain ⟨gpus, hloop, h⟩ := h
    refine ⟨gpus, (Except.ok.inj h).symm, ?_⟩
    refine foldlM_keeps (fun t => db.gpus.Extends (fun g g' => g'.serverId = g.serverId) t)
      ?_ hrefl hloop
    intro s entry t hs ht
    exact hs.trans (fun _ _ _ hab hbc => hbc.trans hab) (extends_upsertGpu ht)
  · exact ⟨db.gpus, (Except.ok.inj h).symm, hrefl⟩

theorem handleViolation_ok {db db' : Db} {p : ComplianceViolationEvent}
    (h : handleViolation db p = .ok db') : ∃ e, db' = db.audit e := by
  simp only [handleViolation, bind_eq_ok_iff] at h
  obtain ⟨gpuId, -, serverId, -, h⟩ := h
  exact ⟨_, (Except.ok.inj h).symm⟩

/-- **A frame** that keeps to its server changes rows of it only. -/
theorem isolated_handleFrame {b b' : Backend} {serverId : Nat} {isOpen : Bool} {f : Frame}
    (hheard : ignored b.db serverId f = false)
    (hown : OwnFrame ⟨serverId, b, isOpen⟩ (.receive f)) (h : handleFrame b serverId f = .ok b') :
    RowsOf serverId b.db b'.db ∧ WakesOf serverId b.db b.kills b'.kills := by
  have hown := fun id hid => hown hheard id hid
  cases f with
  | heartbeat | pong =>
      obtain rfl := Except.ok.inj h
      exact ⟨rowsOf_of_eq rfl, WakesOf.refl⟩
  | gpuTelemetry gpus =>
      obtain ⟨db, hdb, rfl⟩ := map_eq_ok_iff.mp h
      obtain ⟨gpus, rfl, -⟩ := upsertTelemetry_ok hdb
      exact ⟨rowsOf_of_eq rfl, WakesOf.refl⟩
  | accountScan names =>
      obtain rfl := Except.ok.inj h
      obtain ⟨accounts, entries, heq, -⟩ := syncDiscovered_eq b.db serverId names
      exact ⟨rowsOf_of_eq (by rw [heq]), WakesOf.refl⟩
  | scriptStarted p =>
      obtain ⟨db, hdb, rfl⟩ := map_eq_ok_iff.mp h
      exact ⟨rowsOf_started hdb (hown _ rfl), WakesOf.refl⟩
  | scriptOutputChunk p =>
      obtain rfl := Except.ok.inj h
      exact ⟨rowsOf_outputChunk (hown _ rfl), WakesOf.refl⟩
  | scriptFinished p =>
      obtain ⟨⟨db, kills⟩, hdb, rfl⟩ := map_eq_ok_iff.mp h
      exact isolated_finished hdb (hown _ rfl)
  | complianceViolation p =>
      obtain ⟨db, hdb, rfl⟩ := map_eq_ok_iff.mp h
      obtain ⟨e, rfl⟩ := handleViolation_ok hdb
      exact ⟨rowsOf_of_eq rfl, WakesOf.refl⟩

theorem isolated_step {c c' : Connection} {a : Action} (hok : OwnFrame c a)
    (h : step c a = some c') : Isolated c a c' := by
  cases a with
  | elsewhere b => exact True.intro
  | close => exact True.intro
  | receive f =>
      simp only [step] at h
      split at h
      · obtain rfl := Option.some.inj h
        have hsame : RowsOf c.serverId c.backend.db c.backend.db ∧
            WakesOf c.serverId c.backend.db c.backend.kills c.backend.kills :=
          ⟨rowsOf_of_eq rfl, WakesOf.refl⟩
        unfold receive
        split
        · exact hsame
        · next hheard =>
            split
            · next b hb => exact isolated_handleFrame (Bool.eq_false_iff.mpr hheard) hok hb
            · exact hsame
      · cases h

/-- **Agents are isolated**: on the connection of a server, whatever the rest of
the backend does between two frames, frames that keep to their server change
reservations of that server only, and signal no waiter of another one. -/
theorem frames_isolated {c : Connection} {as : List Action} (hok : Meets step OwnFrame c as) :
    Along step Isolated c as := by
  refine along_of_invariant (I := fun _ => True) (fun c a c' _ hframe hstep => ?_) True.intro hok
  have hisolated : Isolated c a c' := isolated_step hframe hstep
  exact ⟨True.intro, hisolated⟩

/-! ## two servers -/

/-- Reservation 7 runs a script on server 1, and a cancel of it waits; the agent
of server `serverId` is connected. -/
def twoServers (serverId : Nat) : Connection :=
  { serverId := serverId
    backend :=
      { db := (smallLab (.single { dueScript with scriptStatus := some .running })).addServer
        kills := [⟨7, false⟩] }
    isOpen := true }

/-- The report that the script of a reservation was killed. -/
def killedReport (reservationId : Int) : Frame :=
  .scriptFinished
    { reservationId := reservationId, exitCode := some 137, finishedAt := .ofStored hourMicros
      outputSizeBytes := 0, logPath := none, killedByCorelab := true }

/-- The agent of server 1 reports the course of its own script. -/
theorem frames_isolated_own :
    Along step Isolated (twoServers 1)
      [.receive (.gpuTelemetry [⟨0, some 24576⟩]),
        .receive (.scriptStarted ⟨7, .ofStored 0, none⟩),
        .receive (.scriptOutputChunk ⟨7, "epoch 1"⟩), .receive (killedReport 7)] :=
  frames_isolated (by decide +kernel)

/-- The agent of server 2 reports that the script on server 1 was killed. -/
theorem frames_not_isolated :
    ¬ ∀ (c : Connection) (as : List Action), Along step Isolated c as := by
  intro hall
  obtain ⟨⟨hrows, -⟩, -⟩ := hall (twoServers 2) [.receive (killedReport 7)] _ rfl
  obtain ⟨r, hr, hserver⟩ := hrows 7 (by decide +kernel)
  have hfirst : (twoServers 2).backend.db.reservations.get? 7 =
      some { dueScript with scriptStatus := some .running } := by decide +kernel
  rw [hfirst, Option.some.injEq] at hr
  rw [← hr] at hserver
  exact absurd hserver (by decide)

end AgentWs

end CoreLab
