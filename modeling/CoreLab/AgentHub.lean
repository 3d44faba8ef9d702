import CoreLab.Lib.Dict
import CoreLab.Lib.Table
import CoreLab.Lib.Transition

/-!
# CoreLab.AgentHub

The handlers of agent connections, the pool in which each registers its
connection, and the status column of their servers.  A handler writes the status
in transactions of its own, each of which decides on a snapshot: `online` after
it registered and with every heartbeat, `offline` after it left the pool.

* `inStep_step` — a server whose connection is in the pool is online or about to
  be marked so, and one without is not, or a handler of it is still to leave;
* `tracks_run` — so the status tells whether the pool has a connection, as long
  as no clean-up marks a server offline that a newer connection marked online.
-/

namespace CoreLab

open Relational Transition

namespace AgentHub

/-! ## servers and handlers -/

/-- `ck_server_status`. -/
inductive ServerStatus where
  | pending
  | online
  | offline
  | maintenance
deriving DecidableEq, Repr

/-- The columns of a server row that the handlers read and write. -/
structure ServerRow where
  id : Nat
  status : ServerStatus
  approvedAt : Option Int
  isActive : Bool
deriving DecidableEq, Repr

instance : Keyed ServerRow := ⟨ServerRow.id⟩

/-- Where the handler of a connection is; `seen` is the status a transaction of
it has read. -/
inductive Phase where
  | accepted
  /-- `register` is closing the connection that it found. -/
  | kicking
  | registered
  /-- The first heartbeat, up to its commit. -/
  | marking (seen : ServerStatus)
  /-- The connect-time frames are being sent. -/
  | greeting
  | receiving
  /-- A heartbeat frame, up to its commit. -/
  | beating (seen : ServerStatus)
  /-- The `finally` block, after `unregister`. -/
  | cleaning
  /-- `_mark_offline`, up to its commit. -/
  | offlining (seen : ServerStatus)
  | done
deriving DecidableEq, Repr

/-- A connection with its handler; `isOpen` until the agent goes or the connection
is closed. -/
structure Handler where
  id : Nat
  serverId : Nat
  phase : Phase
  isOpen : Bool
deriving DecidableEq, Repr

instance : Keyed Handler := ⟨Handler.id⟩

/-- `pool` is `agent_hub.pool`. -/
structure World where
  pool : Dict Nat Nat
  servers : Table ServerRow
  handlers : Table Handler

/-- One atomic step. -/
inductive Action where
  | connect (serverId : Nat)
  | register (handler : Nat)
  | enterPool (handler : Nat)
  | readHeartbeat (handler : Nat)
  | commitHeartbeat (handler : Nat)
  | greeted (handler : Nat)
  | disconnect (handler : Nat)
  | loopEnds (handler : Nat)
  | readOffline (handler : Nat)
  | commitOffline (handler : Nat)

namespace World

/-! ## steps -/

/-- A handler goes on to a phase. -/
def moveTo (w : World) (h : Handler) (phase : Phase) : World :=
  { w with handlers := w.handlers.put { h with phase := phase } }

/-- The connection is closed, from either side. -/
def close (w : World) (h : Handler) : World :=
  { w with handlers := w.handlers.put { h with isOpen := false } }

/-- The connection goes into the pool. -/
def enterPool (w : World) (h : Handler) : World :=
  { w.moveTo h .registered with pool := w.pool.set h.serverId h.id }

/-- `register`, up to where it waits for an older connection to close. -/
def register (w : World) (h : Handler) : World :=
  match w.pool.get? h.serverId with
  | none => w.enterPool h
  | some k => match (w.moveTo h .kicking).handlers.get? k with
    | none => w.moveTo h .kicking
    | some old => (w.moveTo h .kicking).close old

/-- `unregister`. -/
def unregister (w : World) (h : Handler) : World :=
  if w.pool.get? h.serverId = some h.id then { w with pool := w.pool.erase h.serverId } else w

/-- The status a transaction reads first. -/
def statusOf (w : World) (serverId : Nat) : Option ServerStatus :=
  (w.servers.get? serverId).map ServerRow.status

/-- The rows with the status of one server set. -/
def setStatus (w : World) (serverId : Nat) (status : ServerStatus) : World :=
  match w.servers.get? serverId with
  | none => w
  | some s => { w with servers := w.servers.put { s with status := status } }

/-- `approved_at is not None and is_active`. -/
def approved (w : World) (serverId : Nat) : Bool :=
  (w.servers.get? serverId).any fun s => s.approvedAt.isSome && s.isActive

/-- The commit of `mark_heartbeat`: the column is written where it was not read
as `online`. -/
def markOnline (w : World) (serverId : Nat) (seen : ServerStatus) : World :=
  if w.approved serverId = true ∧ seen ≠ .online then w.setStatus serverId .online else w

/-- The commit of `_mark_offline`. -/
def markOffline (w : World) (serverId : Nat) (seen : ServerStatus) : World :=
  if (w.servers.get? serverId).any (fun s => s.approvedAt.isSome) = true ∧ seen = .online then
    w.setStatus serverId .offline
  else w

/-- The step of a handler. -/
def handlerStep (w : World) (h : Handler) : Action → Option World
  | .register _ => if h.phase = .accepted then some (w.register h) else none
  | .enterPool _ => if h.phase = .kicking then some (w.enterPool h) else none
  | .readHeartbeat _ => (w.statusOf h.serverId).bind fun seen => match h.phase with
    | .registered => some (w.moveTo h (.marking seen))
    | .receiving => some (w.moveTo h (.beating seen))
    | _ => none
  | .commitHeartbeat _ => match h.phase with
    | .marking seen => some ((w.moveTo h .greeting).markOnline h.serverId seen)
    | .beating seen => some ((w.moveTo h .receiving).markOnline h.serverId seen)
    | _ => none
  | .greeted _ => if h.phase = .greeting then some (w.moveTo h .receiving) else none
  | .disconnect _ => some (w.close h)
  | .loopEnds _ => if h.phase = .receiving then
      some ((w.moveTo { h with isOpen := false } .cleaning).unregister h) else none
  | .readOffline _ => (w.statusOf h.serverId).bind fun seen =>
    if h.phase = .cleaning then some (w.moveTo h (.offlining seen)) else none
  | .commitOffline _ => match h.phase with
    | .offlining seen => some ((w.moveTo h .done).markOffline h.serverId seen)
    | _ => none
  | .connect _ => none

/-- One step. -/
def step (w : World) (a : Action) : Option World :=
  match a with
  | .connect serverId =>
    if (w.servers.get? serverId).isSome then
      some { w with handlers := w.handlers.append ⟨fun id =>
        { id := id, serverId := serverId, phase := .accepted, isOpen := true }, fun _ => rfl⟩ }
    else none
  | .register id | .enterPool id | .readHeartbeat id | .commitHeartbeat id | .greeted id
  | .disconnect id | .loopEnds id | .readOffline id | .commitOffline id =>
    (w.handlers.get? id).bind fun h => w.handlerStep h a

end World

open World

/-! ## the property and its condition -/

/-- The handler has nothing to do: it is done, or waits for the next frame. -/
def Handler.Idle (h : Handler) : Prop := h.phase = .done ∨ h.phase = .receiving ∧ h.isOpen = true

/-- The status of an approved and active server tells whether the pool has a
connection of it, once no step of its handlers is pending. -/
def Tracks (w : World) : Prop :=
  ∀ s ∈ w.servers, s.approvedAt.isSome → s.isActive = true →
    (∀ h ∈ w.handlers, h.serverId = s.id → h.Idle) →
      (s.status = .online ↔ (w.pool.get? s.id).isSome)

/-- The handler will mark its server online in its first heartbeat. -/
def Phase.willMark : Phase → Bool
  | .registered => true
  | .marking seen => seen ≠ .online
  | _ => false

/-- What the commit of a heartbeat has read, where it writes the status. -/
def Phase.heartbeat? : Phase → Option ServerStatus
  | .marking seen | .beating seen => some seen
  | _ => none

/-- A clean-up that marks a server offline comes before the connection that is in
the pool by then has looked at the status; a heartbeat that marks it online
comes while the pool has a connection, or from one that is closed already. -/
def Timely (w : World) : Action → Prop
  | .commitOffline id => ∀ h ∈ w.handlers.get? id, h.phase = .offlining .online →
      ∀ k ∈ w.pool.get? h.serverId, ∀ g ∈ w.handlers.get? k, g.phase.willMark = true
  | .commitHeartbeat id => ∀ h ∈ w.handlers.get? id, ∀ seen ∈ h.phase.heartbeat?, seen ≠ .online →
      h.isOpen = true → (w.pool.get? h.serverId).isSome = true
  | _ => True

instance (w : World) : ∀ a, Decidable (Timely w a)
  | .commitOffline id => inferInstanceAs (Decidable (∀ h ∈ w.handlers.get? id,
      h.phase = .offlining .online → ∀ k ∈ w.pool.get? h.serverId, ∀ g ∈ w.handlers.get? k,
        g.phase.willMark = true))
  | .commitHeartbeat id => inferInstanceAs (Decidable (∀ h ∈ w.handlers.get? id,
      ∀ seen ∈ h.phase.heartbeat?, seen ≠ .online → h.isOpen = true →
        (w.pool.get? h.serverId).isSome = true))
  | .connect _ | .register _ | .enterPool _ | .readHeartbeat _ | .greeted _ | .disconnect _
  | .loopEnds _ | .readOffline _ => .isTrue True.intro

/-- The backend has just started. -/
def Started (w : World) : Prop :=
  w.pool.entries = [] ∧ w.handlers.rows = [] ∧ ∀ s ∈ w.servers.rows, s.status ≠ .online

instance (w : World) : Decidable (Started w) := inferInstanceAs (Decidable (_ ∧ _ ∧ _))

/-! ## the invariant -/

/-- The handler registered its connection and has not left the pool yet. -/
def Phase.inside : Phase → Bool
  | .registered | .marking _ | .greeting | .receiving | .beating _ => true
  | _ => false

/-- The handler is still to mark its server offline, if it finds it online. -/
def Handler.leaving (h : Handler) : Bool :=
  match h.phase with
  | .cleaning => true
  | .offlining seen => seen = .online
  | phase => phase.inside && !h.isOpen

/-- The server is marked online. -/
def Online (w : World) (s : Nat) : Prop := w.statusOf s = some .online

/-- What the pool and the status of a server know of each other. -/
structure InStep (w : World) (s : Nat) : Prop where
  pooled : ∀ k, w.pool.get? s = some k →
    ∃ g, w.handlers.get? k = some g ∧ g.serverId = s ∧ g.phase.inside = true
  marked : ∀ k g, w.pool.get? s = some k → w.handlers.get? k = some g →
    Online w s ∨ g.phase.willMark = true
  left : w.pool.get? s = none → Online w s →
    ∃ k h, w.handlers.get? k = some h ∧ h.serverId = s ∧ h.leaving = true

section Parts

variable {w : World} {s : Nat} {h : Handler}

theorem get?_put {g : Handler} (hh : w.handlers.get? g.id = some h) (k : Nat) :
    (w.handlers.put g).get? k = if k = g.id then some g else w.handlers.get? k := by
  have hput : (w.handlers.put g).get? g.id = some g := Table.get?_put_self hh
  split
  · next hk => rw [hk, hput]
  · next hk =>
      have hne : Keyed.key g ≠ k := Ne.symm hk
      exact Table.get?_put_ne hne

/-- A handler moves on, as long as it stays inside where it is in the pool, marks
its server online where it was to, and offline likewise. -/
theorem InStep.put {g : Handler} (hs : InStep w s) (hh : w.handlers.get? g.id = some h)
    (hserver : g.serverId = h.serverId)
    (hinside : w.pool.get? s = some g.id → g.phase.inside = true)
    (hmark : w.pool.get? s = some g.id → h.phase.willMark = true →
      Online w s ∨ g.phase.willMark = true)
    (hleave : h.serverId = s → h.leaving = true → Online w s → g.leaving = true) :
    InStep { w with handlers := w.handlers.put g } s := by
  have hget := get?_put hh
  refine ⟨fun k hk => ?_, fun k f hk hf => ?_, fun hnone honline => ?_⟩
  · obtain ⟨f, hf, hfserver, hin⟩ := hs.pooled k hk
    by_cases hkg : k = g.id
    · subst hkg
      obtain rfl : f = h := Option.some.inj (hf.symm.trans hh)
      exact ⟨g, (hget _).trans (if_pos rfl), hserver.trans hfserver, hinside hk⟩
    · exact ⟨f, (hget k).trans ((if_neg hkg).trans hf), hfserver, hin⟩
  · have hf' := (hget k).symm.trans hf
    by_cases hkg : k = g.id
    · subst hkg
      rw [if_pos rfl, Option.some.injEq] at hf'
      rcases hs.marked _ h hk hh with honline | hwill
      · exact Or.inl honline
      · exact hf' ▸ hmark hk hwill
    · rw [if_neg hkg] at hf'
      exact hs.marked k f hk hf'
  · obtain ⟨k, f, hf, hfserver, hleaving⟩ := hs.left hnone honline
    by_cases hkg : k = g.id
    · subst hkg
      obtain rfl : f = h := Option.some.inj (hf.symm.trans hh)
      exact ⟨_, g, (hget _).trans (if_pos rfl), hserver.trans hfserver,
        hleave hfserver hleaving honline⟩
    · exact ⟨k, f, (hget k).trans ((if_neg hkg).trans hf), hfserver, hleaving⟩

/-- A handler in the pool is inside. -/
theorem InStep.inside (hs : InStep w s) (hh : w.handlers.get? h.id = some h)
    (hpool : w.pool.get? s = some h.id) : h.phase.inside = true := by
  obtain ⟨g, hg, -, hin⟩ := hs.pooled _ hpool
  exact Option.some.inj (hg.symm.trans hh) ▸ hin

theorem InStep.moveTo {phase : Phase} (hs : InStep w s) (hh : w.handlers.get? h.id = some h)
    (hinside : h.phase.inside = true → phase.inside = true)
    (hmark : w.pool.get? s = some h.id → h.phase.willMark = true →
      Online w s ∨ phase.willMark = true)
    (hleave : h.serverId = s → h.leaving = true → Online w s →
      ({ h with phase := phase } : Handler).leaving = true) : InStep (w.moveTo h phase) s :=
  hs.put (g := { h with phase := phase }) hh rfl (fun hpool => hinside (hs.inside hh hpool)) hmark
    hleave

/-- Closing a connection leaves its handler with more to do, not less. -/
theorem InStep.close (hs : InStep w s) (hh : w.handlers.get? h.id = some h) :
    InStep (w.close h) s := by
  refine hs.put (g := { h with isOpen := false }) hh rfl
    (fun hpool => hs.inside (h := h) hh hpool) (fun _ hwill => Or.inr hwill) fun _ hleaving _ => ?_
  unfold Handler.leaving at hleaving ⊢
  split at hleaving <;> simp_all

/-- A connection enters the pool of its server. -/
theorem InStep.enterPool (hs : InStep w s) (hh : w.handlers.get? h.id = some h)
    (hleaving : h.leaving = false) : InStep (w.enterPool h) s := by
  have hget := get?_put (g := { h with phase := .registered }) hh
  by_cases hserver : s = h.serverId
  · subst hserver
    have hpool : (w.enterPool h).pool.get? h.serverId = some h.id :=
      (Dict.get?_set ..).trans (if_pos rfl)
    refine ⟨fun k hk => ?_, fun k g hk hg => ?_, fun hnone => ?_⟩
    · obtain rfl := Option.some.inj (hpool.symm.trans hk)
      exact ⟨_, (hget _).trans (if_pos rfl), rfl, rfl⟩
    · obtain rfl := Option.some.inj (hpool.symm.trans hk)
      have hg' := (hget _).symm.trans hg
      rw [if_pos rfl, Option.some.injEq] at hg'
      exact Or.inr (hg' ▸ rfl)
    · rw [hpool] at hnone
      cases hnone
  · -- another server's part of the pool stays
    have hpool : (w.enterPool h).pool.get? s = w.pool.get? s :=
      (Dict.get?_set ..).trans (if_neg hserver)
    have hmoved : InStep (w.moveTo h .registered) s := hs.moveTo hh (fun _ => rfl)
      (fun _ _ => Or.inr rfl) fun _ hl => absurd hl (by rw [hleaving]; decide)
    refine ⟨fun k hk => hmoved.pooled k (hpool ▸ hk), fun k g hk => hmoved.marked k g (hpool ▸ hk),
      fun hnone => hmoved.left (hpool ▸ hnone)⟩

/-- A handler that leaves the pool is still to mark its server offline. -/
theorem InStep.loopEnds (hs : InStep w s) (hh : w.handlers.get? h.id = some h) :
    InStep ((w.moveTo { h with isOpen := false } .cleaning).unregister h) s := by
  have hget := get?_put (g := { h with isOpen := false, phase := .cleaning }) hh
  by_cases hpool : w.pool.get? s = some h.id
  · -- the entry of the handler's own server goes
    obtain ⟨g, hg, hserver, -⟩ := hs.pooled _ hpool
    obtain rfl : g = h := Option.some.inj (hg.symm.trans hh)
    subst hserver
    have hunregister : (w.moveTo { g with isOpen := false } .cleaning).unregister g =
        { w with
          pool := w.pool.erase g.serverId
          handlers := w.handlers.put { g with isOpen := false, phase := .cleaning } } :=
      if_pos hpool
    rw [hunregister]
    have hnone : (w.pool.erase g.serverId).get? g.serverId = none :=
      (Dict.get?_erase ..).trans (if_pos rfl)
    refine ⟨fun k hk => ?_, fun k f hk => ?_, fun _ _ => ?_⟩
    · rw [hnone] at hk
      cases hk
    · rw [hnone] at hk
      cases hk
    · exact ⟨_, _, (hget _).trans (if_pos rfl), rfl, rfl⟩
  · have hmoved : InStep (w.moveTo { h with isOpen := false } .cleaning) s :=
      hs.put (g := { h with isOpen := false, phase := .cleaning }) hh rfl
        (fun hk => absurd hk hpool) (fun hk => absurd hk hpool) fun _ _ _ => rfl
    have hsame : ((w.moveTo { h with isOpen := false } .cleaning).unregister h).pool.get? s =
        w.pool.get? s := by
      unfold unregister
      split
      · next hown =>
          have hne : s ≠ h.serverId := by
            rintro rfl
            exact hpool hown
          exact (Dict.get?_erase ..).trans (if_neg hne)
      · rfl
    unfold unregister at hsame ⊢
    split
    · next hown =>
        rw [if_pos hown] at hsame
        exact ⟨fun k hk => hmoved.pooled k (hsame ▸ hk), fun k g hk => hmoved.marked k g (hsame ▸ hk),
          fun hnone => hmoved.left (hsame ▸ hnone)⟩
    · exact hmoved

/-! ## the status column -/

theorem get?_setStatus (w : World) (t : Nat) (status : ServerStatus) (s : Nat) :
    (w.setStatus t status).servers.get? s = (w.servers.get? s).map fun row =>
      if s = t then { row with status := status } else row := by
  unfold setStatus
  split
  · next hnone =>
      by_cases hst : s = t
      · rw [hst, hnone]; rfl
      · simp [hst]
  · next row hrow =>
      have hid : row.id = t := Table.key_of_get? hrow
      refine (Table.get?_put w.servers { row with status := status } s).trans ?_
      by_cases hst : s = t
      · subst hst
        refine (if_pos hid).trans ?_
        rw [hrow]
        simp
      · refine (if_neg fun he => hst (he.symm.trans hid)).trans ?_
        simp [hst]

theorem online_setStatus {t : Nat} {status : ServerStatus} :
    Online (w.setStatus t status) s ↔
      if s = t then status = .online ∧ (w.servers.get? s).isSome else Online w s := by
  unfold Online statusOf
  rw [get?_setStatus]
  cases w.servers.get? s with
  | none => split <;> simp
  | some row => split <;> simp

@[simp] theorem pool_setStatus (w : World) (t : Nat) (status : ServerStatus) :
    (w.setStatus t status).pool = w.pool := by
  unfold setStatus; split <;> rfl

@[simp] theorem handlers_setStatus (w : World) (t : Nat) (status : ServerStatus) :
    (w.setStatus t status).handlers = w.handlers := by
  unfold setStatus; split <;> rfl

/-- A server is marked online while the pool has a connection of it, or a handler
of it is still to leave. -/
theorem InStep.setOnline {t : Nat} (hs : InStep w s) (hrow : (w.servers.get? t).isSome)
    (hleft : w.pool.get? t = none →
      ∃ k g, w.handlers.get? k = some g ∧ g.serverId = t ∧ g.leaving = true) :
    InStep (w.setStatus t .online) s := by
  refine ⟨by simpa using hs.pooled, fun k g hk hg => ?_, fun hnone honline => ?_⟩
  · rw [pool_setStatus] at hk
    rw [handlers_setStatus] at hg
    rw [online_setStatus]
    split
    · next hst => exact Or.inl ⟨rfl, hst ▸ hrow⟩
    · exact hs.marked k g hk hg
  · rw [pool_setStatus] at hnone
    rw [online_setStatus] at honline
    rw [handlers_setStatus]
    split at honline
    · next hst => exact hst ▸ hleft (hst ▸ hnone)
    · exact hs.left hnone honline

/-- A server is marked offline before its connection in the pool has looked. -/
theorem InStep.setOffline {t : Nat} (hs : InStep w s)
    (hwill : ∀ k g, w.pool.get? t = some k → w.handlers.get? k = some g → g.phase.willMark = true) :
    InStep (w.setStatus t .offline) s := by
  refine ⟨by simpa using hs.pooled, fun k g hk hg => ?_, fun hnone honline => ?_⟩
  · rw [pool_setStatus] at hk
    rw [handlers_setStatus] at hg
    rw [online_setStatus]
    split
    · next hst => exact Or.inr (hwill k g (hst ▸ hk) hg)
    · exact hs.marked k g hk hg
  · rw [pool_setStatus] at hnone
    rw [online_setStatus] at honline
    rw [handlers_setStatus]
    split at honline
    · cases honline.1
    · exact hs.left hnone honline

/-- A commit writes the status of its server, whichever phase the handler goes on to. -/
theorem moveTo_markOnline (w : World) (h : Handler) (phase : Phase) (t : Nat) (seen : ServerStatus) :
    (w.moveTo h phase).markOnline t seen = (w.markOnline t seen).moveTo h phase := by
  unfold markOnline setStatus moveTo approved
  dsimp only
  split
  · split <;> rfl
  · rfl

theorem moveTo_markOffline (w : World) (h : Handler) (phase : Phase) (t : Nat) (seen : ServerStatus) :
    (w.moveTo h phase).markOffline t seen = (w.markOffline t seen).moveTo h phase := by
  unfold markOffline setStatus moveTo
  dsimp only
  split
  · split <;> rfl
  · rfl

end Parts

/-! ## steps -/

/-- The approval of a server stays as it is. -/
theorem approved_setStatus (w : World) (t : Nat) (status : ServerStatus) (s : Nat) :
    (w.setStatus t status).approved s = w.approved s := by
  unfold approved
  rw [get?_setStatus]
  cases w.servers.get? s with
  | none => rfl
  | some row => by_cases hst : s = t <;> simp [hst]

theorem approved_markOnline (w : World) (t : Nat) (seen : ServerStatus) (s : Nat) :
    (w.markOnline t seen).approved s = w.approved s := by
  unfold markOnline
  split
  · exact approved_setStatus w t .online s
  · rfl

theorem approved_markOffline (w : World) (t : Nat) (seen : ServerStatus) (s : Nat) :
    (w.markOffline t seen).approved s = w.approved s := by
  unfold markOffline
  split
  · exact approved_setStatus w t .offline s
  · rfl

section Steps

variable {w w' : World} {s : Nat} {h : Handler} {seen : ServerStatus}

/-- The server of a handler in the pool. -/
theorem InStep.serverId (hs : InStep w s) (hh : w.handlers.get? h.id = some h)
    (hpool : w.pool.get? s = some h.id) : h.serverId = s := by
  obtain ⟨g, hg, hserver, -⟩ := hs.pooled _ hpool
  exact Option.some.inj (hg.symm.trans hh) ▸ hserver

theorem leaving_of_inside {phase : Phase} (hinside : phase.inside = true) (hphase : h.phase = phase) :
    h.leaving = !h.isOpen := by
  unfold Handler.leaving
  rw [hphase]
  cases phase <;> first | rfl | cases hinside

/-- A connection is registered, or the one in its place is closed first. -/
theorem InStep.register (hs : InStep w s) (hh : w.handlers.get? h.id = some h)
    (hphase : h.phase = .accepted) : InStep (w.register h) s := by
  have hleaving : h.leaving = false := by
    unfold Handler.leaving
    rw [hphase]
    rfl
  have hmoved : InStep (w.moveTo h .kicking) s :=
    hs.moveTo hh (fun hin => by rw [hphase] at hin; cases hin)
      (fun _ hwill => by rw [hphase] at hwill; cases hwill)
      fun _ hl => absurd hl (by rw [hleaving]; decide)
  unfold World.register
  split
  · exact hs.enterPool hh hleaving
  · split
    · exact hmoved
    · next old hold =>
        have hid : old.id = _ := Table.key_of_get? hold
        exact hmoved.close (hid ▸ hold)

/-- The commit of a heartbeat, from which its handler goes on inside. -/
theorem InStep.commitHeartbeat {phase : Phase} (happ : w.approved s = true) (hs : InStep w s)
    (hh : w.handlers.get? h.id = some h) (hseen : h.phase.heartbeat? = some seen)
    (hinside : phase.inside = true)
    (hok : seen ≠ .online → h.isOpen = true → (w.pool.get? h.serverId).isSome = true) :
    InStep ((w.moveTo h phase).markOnline h.serverId seen) s := by
  have hin : h.phase.inside = true := by
    cases hp : h.phase <;> rw [hp] at hseen <;> first | rfl | cases hseen
  have hwill : h.phase.willMark = true → seen ≠ .online := by
    cases hp : h.phase <;> rw [hp] at hseen <;> cases hseen
    · simp [Phase.willMark]
    · intro hw; cases hw
  have hclosed : ({ h with phase := phase } : Handler).leaving = !h.isOpen :=
    leaving_of_inside hinside rfl
  rw [moveTo_markOnline]
  have hmarked : InStep (w.markOnline h.serverId seen) s := by
    unfold markOnline
    split
    · next hwrite =>
        obtain ⟨row, hrow, -⟩ := Option.any_eq_true .. |>.mp hwrite.1
        refine hs.setOnline (Option.isSome_iff_exists.mpr ⟨row, hrow⟩) fun hnone => ?_
        refine ⟨h.id, h, hh, rfl, ?_⟩
        rw [leaving_of_inside hin rfl]
        cases hopen : h.isOpen with
        | false => rfl
        | true =>
            have hsome := hok hwrite.2 hopen
            rw [hnone] at hsome
            cases hsome
    · exact hs
  have hpool : (w.markOnline h.serverId seen).pool = w.pool := by
    unfold markOnline; split <;> simp
  have hhandlers : (w.markOnline h.serverId seen).handlers = w.handlers := by
    unfold markOnline; split <;> simp
  refine hmarked.moveTo (by rw [hhandlers]; exact hh) (fun _ => hinside) (fun hp hw => ?_)
    fun _ hl _ => ?_
  · rw [hpool] at hp
    have hserver := hs.serverId hh hp
    subst hserver
    left
    unfold markOnline
    rw [if_pos ⟨happ, hwill hw⟩, online_setStatus, if_pos rfl]
    obtain ⟨row, hrow, -⟩ := Option.any_eq_true .. |>.mp happ
    exact ⟨rfl, Option.isSome_iff_exists.mpr ⟨row, hrow⟩⟩
  · rw [leaving_of_inside hin rfl] at hl
    exact hclosed.trans hl

/-- The commit of a clean-up. -/
theorem InStep.commitOffline (hs : InStep w s) (hh : w.handlers.get? h.id = some h)
    (happ : w.approved s = true) (hphase : h.phase = .offlining seen)
    (hok : seen = .online → ∀ k ∈ w.pool.get? h.serverId, ∀ g ∈ w.handlers.get? k,
      g.phase.willMark = true) :
    InStep ((w.moveTo h .done).markOffline h.serverId seen) s := by
  have hout : w.pool.get? s ≠ some h.id := by
    intro hp
    have hin := hs.inside hh hp
    rw [hphase] at hin
    cases hin
  rw [moveTo_markOffline]
  unfold markOffline
  split
  · next hwrite =>
      have hoff : InStep (w.setStatus h.serverId .offline) s :=
        hs.setOffline fun k g hk hg => hok hwrite.2 k hk g hg
      refine hoff.moveTo (by rw [handlers_setStatus]; exact hh)
        (fun hin => by rw [hphase] at hin; cases hin)
        (fun hp => absurd (by rwa [pool_setStatus] at hp) hout) fun hserver _ honline => ?_
      rw [online_setStatus, if_pos hserver.symm] at honline
      cases honline.1
  · next hwrite =>
      refine hs.moveTo hh (fun hin => by rw [hphase] at hin; cases hin)
        (fun hp => absurd hp hout) fun hserver hl _ => ?_
      exfalso
      have hseen : seen = .online := by
        unfold Handler.leaving at hl
        rw [hphase] at hl
        exact of_decide_eq_true hl
      obtain ⟨row, hrow, hrowapp⟩ := Option.any_eq_true .. |>.mp happ
      refine hwrite ⟨?_, hseen⟩
      rw [hserver, hrow]
      simp only [Bool.and_eq_true] at hrowapp
      exact hrowapp.1

/-- A new handler is outside of the pool. -/
theorem InStep.connect (hs : InStep w s) (serverId : Nat) :
    InStep { w with handlers := w.handlers.append ⟨fun id =>
      { id := id, serverId := serverId, phase := .accepted, isOpen := true }, fun _ => rfl⟩ } s := by
  refine ⟨fun k hk => ?_, fun k g hk hg => ?_, fun hnone honline => ?_⟩
  · obtain ⟨g, hg, hserver, hin⟩ := hs.pooled k hk
    exact ⟨g, Table.get?_append hg, hserver, hin⟩
  · obtain ⟨f, hf, -, -⟩ := hs.pooled k hk
    obtain rfl := Option.some.inj ((Table.get?_append hf).symm.trans hg)
    exact hs.marked k f hk hf
  · obtain ⟨k, g, hg, hserver, hleaving⟩ := hs.left hnone honline
    exact ⟨k, g, Table.get?_append hg, hserver, hleaving⟩

theorem leaving_eq_false_of_phase (hphase : h.phase = .accepted ∨ h.phase = .kicking) :
    h.leaving = false := by
  unfold Handler.leaving
  rcases hphase with hp | hp <;> rw [hp] <;> rfl

/-- A read of the status that a heartbeat starts with. -/
theorem InStep.readHeartbeat {phase : Phase} (hs : InStep w s) (hh : w.handlers.get? h.id = some h)
    (hseen : w.statusOf h.serverId = some seen) (hin : h.phase.inside = true)
    (hinside : phase.inside = true) (hmark : h.phase.willMark = true → phase = .marking seen) :
    InStep (w.moveTo h phase) s := by
  refine hs.moveTo hh (fun _ => hinside) (fun hp hw => ?_) fun _ hl _ => ?_
  · rw [hmark hw]
    by_cases honline : seen = .online
    · left
      rw [← hs.serverId hh hp, Online, hseen, honline]
    · exact Or.inr (decide_eq_true honline)
  · rw [leaving_of_inside hin rfl] at hl
    exact (leaving_of_inside (h := { h with phase := phase }) hinside rfl).trans hl

/-- The step lemma of a handler. -/
theorem InStep.handlerStep {a : Action} {id : Nat} (hs : InStep w s) (happ : w.approved s = true)
    (hh : w.handlers.get? id = some h) (hok : Timely w a) (hstep : w.handlerStep h a = some w')
    (ha : ∀ j, a = .commitHeartbeat j ∨ a = .commitOffline j → j = id) : InStep w' s := by
  obtain rfl : h.id = id := Table.key_of_get? hh
  cases a with
  | connect serverId => cases hstep
  | register j =>
      simp only [World.handlerStep, Option.ite_none_right_eq_some, Option.some.injEq] at hstep
      exact hstep.2 ▸ hs.register hh hstep.1
  | enterPool j =>
      simp only [World.handlerStep, Option.ite_none_right_eq_some, Option.some.injEq] at hstep
      exact hstep.2 ▸ hs.enterPool hh (leaving_eq_false_of_phase (Or.inr hstep.1))
  | readHeartbeat j =>
      obtain ⟨seen, hseen, hstep⟩ := Option.bind_eq_some_iff.mp hstep
      split at hstep
      · next hphase =>
          obtain rfl := Option.some.inj hstep
          exact hs.readHeartbeat hh hseen (by rw [hphase]; rfl) rfl fun _ => rfl
      · next hphase =>
          obtain rfl := Option.some.inj hstep
          exact hs.readHeartbeat hh hseen (by rw [hphase]; rfl) rfl fun hw => by
            rw [hphase] at hw; cases hw
      · cases hstep
  | commitHeartbeat j =>
      obtain rfl := ha j (Or.inl rfl)
      simp only [World.handlerStep] at hstep
      split at hstep
      · next seen hphase =>
          obtain rfl := Option.some.inj hstep
          have hseen : h.phase.heartbeat? = some seen := by rw [hphase]; rfl
          exact hs.commitHeartbeat happ hh hseen rfl (hok h hh seen hseen)
      · next seen hphase =>
          obtain rfl := Option.some.inj hstep
          have hseen : h.phase.heartbeat? = some seen := by rw [hphase]; rfl
          exact hs.commitHeartbeat happ hh hseen rfl (hok h hh seen hseen)
      · cases hstep
  | greeted j =>
      simp only [World.handlerStep, Option.ite_none_right_eq_some, Option.some.injEq] at hstep
      obtain ⟨hphase, rfl⟩ := hstep
      refine hs.moveTo hh (fun _ => rfl) (fun _ hw => by rw [hphase] at hw; cases hw) fun _ hl _ => ?_
      rw [leaving_of_inside (by rw [hphase]; rfl) rfl] at hl
      exact hl
  | disconnect j => exact Option.some.inj hstep ▸ hs.close hh
  | loopEnds j =>
      simp only [World.handlerStep, Option.ite_none_right_eq_some, Option.some.injEq] at hstep
      exact hstep.2 ▸ hs.loopEnds hh
  | readOffline j =>
      obtain ⟨seen, hseen, hstep⟩ := Option.bind_eq_some_iff.mp hstep
      simp only [Option.ite_none_right_eq_some, Option.some.injEq] at hstep
      obtain ⟨hphase, rfl⟩ := hstep
      refine hs.moveTo hh (fun hin => by rw [hphase] at hin; cases hin)
        (fun _ hw => by rw [hphase] at hw; cases hw) fun hserver _ honline => ?_
      -- a handler that finds its server online will mark it offline
      rw [Online, ← hserver, hseen, Option.some.injEq] at honline
      exact decide_eq_true honline
  | commitOffline j =>
      obtain rfl := ha j (Or.inr rfl)
      simp only [World.handlerStep] at hstep
      split at hstep
      · next seen hphase =>
          obtain rfl := Option.some.inj hstep
          exact hs.commitOffline hh happ hphase fun hseen => hok h hh (hseen ▸ hphase)
      · cases hstep

theorem approved_congr (hservers : w'.servers = w.servers) : w'.approved s = w.approved s := by
  rw [approved, approved, hservers]

theorem servers_register (w : World) (h : Handler) : (w.register h).servers = w.servers := by
  unfold World.register
  split
  · rfl
  · split <;> rfl

theorem servers_unregister (w : World) (h : Handler) : (w.unregister h).servers = w.servers := by
  unfold unregister; split <;> rfl

theorem approved_handlerStep {a : Action} (hstep : w.handlerStep h a = some w') :
    w'.approved s = w.approved s := by
  cases a with
  | connect _ => cases hstep
  | register _ =>
      simp only [World.handlerStep, Option.ite_none_right_eq_some, Option.some.injEq] at hstep
      exact hstep.2 ▸ approved_congr (servers_register w h)
  | enterPool _ | greeted _ =>
      simp only [World.handlerStep, Option.ite_none_right_eq_some, Option.some.injEq] at hstep
      exact hstep.2 ▸ rfl
  | loopEnds _ =>
      simp only [World.handlerStep, Option.ite_none_right_eq_some, Option.some.injEq] at hstep
      exact hstep.2 ▸ approved_congr (servers_unregister _ h)
  | readHeartbeat _ =>
      obtain ⟨seen, -, hstep⟩ := Option.bind_eq_some_iff.mp hstep
      split at hstep
      · exact Option.some.inj hstep ▸ rfl
      · exact Option.some.inj hstep ▸ rfl
      · cases hstep
  | commitHeartbeat _ =>
      simp only [World.handlerStep] at hstep
      split at hstep
      · exact Option.some.inj hstep ▸ approved_markOnline _ _ _ s
      · exact Option.some.inj hstep ▸ approved_markOnline _ _ _ s
      · cases hstep
  | disconnect _ => exact Option.some.inj hstep ▸ rfl
  | readOffline _ =>
      obtain ⟨seen, -, hstep⟩ := Option.bind_eq_some_iff.mp hstep
      simp only [Option.ite_none_right_eq_some, Option.some.injEq] at hstep
      exact hstep.2 ▸ rfl
  | commitOffline _ =>
      simp only [World.handlerStep] at hstep
      split at hstep
      · exact Option.some.inj hstep ▸ approved_markOffline _ _ _ s
      · cases hstep

end Steps

/-- Every approved and active server is in step. -/
def AllInStep (w : World) : Prop := ∀ s, w.approved s = true → InStep w s

/-- **The step lemma**: no step leaves a server out of step. -/
theorem inStep_step {w w' : World} {a : Action} (hw : AllInStep w) (hok : Timely w a)
    (hstep : w.step a = some w') : AllInStep w' := by
  intro s happ
  cases a with
  | connect serverId =>
      simp only [step, Option.ite_none_right_eq_some, Option.some.injEq] at hstep
      obtain ⟨-, rfl⟩ := hstep
      exact (hw s happ).connect serverId
  | register id | enterPool id | readHeartbeat id | greeted id | disconnect id | loopEnds id
  | readOffline id =>
      obtain ⟨h, hh, hstep⟩ := Option.bind_eq_some_iff.mp hstep
      have happ' := (approved_handlerStep hstep).symm.trans happ
      exact (hw s happ').handlerStep happ' hh hok hstep fun j hj => by
        rcases hj with hj | hj <;> cases hj
  | commitHeartbeat id | commitOffline id =>
      obtain ⟨h, hh, hstep⟩ := Option.bind_eq_some_iff.mp hstep
      have happ' := (approved_handlerStep hstep).symm.trans happ
      refine (hw s happ').handlerStep happ' hh hok hstep fun j hj => ?_
      rcases hj with hj | hj <;> cases hj
      rfl

/-- A handler with nothing to do neither marks its server online nor offline. -/
theorem tracks_of_inStep {w : World} (hw : AllInStep w) : Tracks w := by
  intro row hrow happroved hactive hidle
  have hget : w.servers.get? row.id = some row := Table.get?_key hrow
  have hs : InStep w row.id := hw row.id (by
    rw [approved, hget, Option.any_some, happroved, hactive]
    rfl)
  have honline : Online w row.id ↔ row.status = .online := by
    rw [Online, statusOf, hget, Option.map_some, Option.some.injEq]
  rw [← honline]
  constructor
  · intro hon
    by_contra hnone
    obtain ⟨k, h, hh, hserver, hleaving⟩ := hs.left (by simpa using hnone) hon
    rcases hidle h (Table.mem_of_get? hh) hserver with hdone | ⟨hphase, hopen⟩
    · unfold Handler.leaving at hleaving
      rw [hdone] at hleaving
      cases hleaving
    · unfold Handler.leaving at hleaving
      rw [hphase, hopen] at hleaving
      cases hleaving
  · intro hsome
    obtain ⟨k, hk⟩ := Option.isSome_iff_exists.mp hsome
    obtain ⟨g, hg, hserver, -⟩ := hs.pooled k hk
    refine (hs.marked k g hk hg).resolve_right fun hwill => ?_
    rcases hidle g (Table.mem_of_get? hg) hserver with hdone | ⟨hphase, -⟩
    · rw [hdone] at hwill
      cases hwill
    · rw [hphase] at hwill
      cases hwill

/-- **The status tracks the pool** in any interleaving whose commits are timely. -/
theorem tracks_run {w w' : World} {as : List Action} (hw : Started w)
    (hok : Meets step Timely w as) (hexec : exec step w as = some w') : Tracks w' := by
  obtain ⟨hpool, hhandlers, hstatus⟩ := hw
  have hnone : ∀ s, w.pool.get? s = none := fun s => by
    rw [Dict.get?_eq_none_iff, hpool]
    exact fun _ he => absurd he List.not_mem_nil
  have hinit : AllInStep w := by
    intro s _
    refine ⟨fun k hk => ?_, fun k g hk => ?_, fun _ honline => ?_⟩
    · rw [hnone] at hk
      cases hk
    · rw [hnone] at hk
      cases hk
    · obtain ⟨row, hrow, hon⟩ := Option.map_eq_some_iff.mp honline
      exact absurd hon (hstatus row (Table.mem_of_get? hrow))
  exact tracks_of_inStep (exec_invariant (fun _ _ _ hs hok ht => inStep_step hs hok ht) hinit hok hexec)

/-- An approved server that is offline. -/
def offlineServer : World :=
  { pool := .empty, handlers := .empty
    servers := .single { id := 1, status := .offline, approvedAt := some 0, isActive := true } }

/-- A connection takes the place of an older one, whose handler marks the server
offline before the new connection looks at its status. -/
def replaced : List Action :=
  [.connect 1, .register 1, .readHeartbeat 1, .commitHeartbeat 1, .greeted 1,
   .connect 1, .register 2, .loopEnds 1, .readOffline 1, .enterPool 2, .commitOffline 1,
   .readHeartbeat 2, .commitHeartbeat 2, .greeted 2]

theorem tracks_run_replaced : ∃ w', exec step offlineServer replaced = some w' ∧ Tracks w' := by
  have hrun : (exec step offlineServer replaced).isSome := by decide +kernel
  obtain ⟨w', hw'⟩ := Option.isSome_iff_exists.mp hrun
  exact ⟨w', hw', tracks_run (by decide +kernel) (by decide +kernel) hw'⟩

/-- The older handler marks the server offline after the new connection marked it
online. -/
def kicked : World :=
  (exec step offlineServer [.connect 1, .register 1, .readHeartbeat 1, .commitHeartbeat 1, .greeted 1,
    .connect 1, .register 2, .enterPool 2, .readHeartbeat 2, .commitHeartbeat 2, .greeted 2,
    .loopEnds 1, .readOffline 1, .commitOffline 1]).get (by decide +kernel)

theorem not_tracks : ¬ ∀ (w w' : World) (as : List Action), Started w →
    exec step w as = some w' → Tracks w' := by
  intro h
  have htracks : Tracks kicked := h offlineServer kicked _ (by decide +kernel) (Option.some_get _).symm
  have hrow : kicked.servers.rows = [⟨1, .offline, some 0, true⟩] := by decide +kernel
  have hhandlers : kicked.handlers.rows = [⟨1, 1, .done, false⟩, ⟨2, 1, .receiving, true⟩] := by
    decide +kernel
  have hpool : (kicked.pool.get? 1).isSome := by decide +kernel
  have hquiet : ∀ h ∈ kicked.handlers, h.serverId = 1 → h.Idle := by
    intro g hg _
    rw [Table.mem_def, hhandlers, List.mem_cons, List.mem_singleton] at hg
    rcases hg with rfl | rfl
    · exact Or.inl rfl
    · exact Or.inr ⟨rfl, rfl⟩
  have honline := (htracks ⟨1, .offline, some 0, true⟩ (by rw [Table.mem_def, hrow]; exact List.mem_singleton_self _)
    rfl rfl hquiet).mpr hpool
  cases honline

end AgentHub

end CoreLab
