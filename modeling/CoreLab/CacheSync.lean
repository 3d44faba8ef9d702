import CoreLab.Lib.Replica
import CoreLab.SyncView

/-!
# CoreLab.CacheSync

The reverse-lookup caches of the agents while the database moves on.  A sync is
sent when an agent connects and when its server is approved; no operation on
reservations, links or accounts sends one.

* `inStep_step` — an operation that touches no server whose agent has its sync
  keeps the caches in step;
* `coherent_run` — so does every sequence of them: an agent with nothing under
  way holds what a sync of the database would give it;
* `not_coherent` — revoking a link leaves it behind.
-/

namespace CoreLab

open Relational Loops Transition Replication
open AgentWs (Backend isServerApproved)
open Operations (Operation)

/-! ## approving a server -/

/-- `ServerError`, by its subclasses. -/
inductive ServerError where
  | base (message : String)
  | notFound (message : String)
deriving DecidableEq, Repr

/-- `approve_server`, of a server with or without an agent token. -/
def approveServer (db : Db) (serverId labId : Nat) (hasAgentToken : Bool) (actorUserId : Nat)
    (now : Time) : Except ServerError Db :=
  match db.servers.get? serverId with
  | none => .error (.notFound s!"server {serverId} not found")
  | some server =>
    if server.labId ≠ labId then .error (.notFound s!"server {serverId} not found")
    else if !server.isActive then .error (.base s!"server {serverId} is soft-deleted")
    else if !hasAgentToken then .error (.base "server_has_not_phoned_home")
    else if server.approvedAt.isSome then .ok db
    else
      let approved := { db with servers := db.servers.put { server with approvedAt := some now } }
      .ok (approved.audit
        { action := .serverApprove, actorUserId := some actorUserId, targetType := .server
          targetId := some server.id, targetServerId := some server.id })

/-- An approval leaves the rows of the other servers. -/
theorem servers_approveServer {db db' : Db} {serverId labId actorUserId k : Nat} {hasAgentToken : Bool}
    {now : Time} (h : approveServer db serverId labId hasAgentToken actorUserId now = .ok db')
    (hk : k ≠ serverId) : db'.servers.get? k = db.servers.get? k := by
  unfold approveServer at h
  split at h
  · cases h
  · next server hserver =>
      have hid : server.id = serverId := Table.key_of_get? hserver
      repeat' split at h
      all_goals cases h
      · rfl
      · exact Table.get?_put_ne fun hkey => hk (hkey.symm.trans hid)

namespace CacheSync

/-! ## the backend and its agents -/

/-- The agent of a server: its cache, and the syncs on their way to it. -/
abbrev Agent := Replica (AccountLinkCacheSync ReservationItem) ReverseCache

structure World where
  backend : Backend
  clock : Time
  /-- By server. -/
  agents : Nat → Agent

def World.db (w : World) : Db := w.backend.db

/-- The server's agent after a step of its own. -/
def World.setAgent (w : World) (serverId : Nat) (a : Agent) : World :=
  { w with agents := Function.update w.agents serverId a }

/-- The server is approved. -/
def World.approved (w : World) (serverId : Nat) : Bool := isServerApproved w.db serverId

inductive Action where
  | op (o : Operation)
  /-- `approve_request` writes the request and a key entry, which no sync reads; the link
  comes with the challenge. -/
  | approveRequest (requestId : Nat)
  | approveServer (serverId labId : Nat) (hasAgentToken : Bool) (actorUserId : Nat)
  /-- `agent_ws` accepts the socket and registers it. -/
  | connect (serverId : Nat)
  /-- `mark_heartbeat` of a registered connection. -/
  | handshake (serverId : Nat)
  /-- `send_on_connect`, up to `compose_full_payload`. -/
  | compose (serverId : Nat)
  /-- `send_on_connect` raises, and the exception is logged. -/
  | syncFailed (serverId : Nat)
  /-- The rest of `send_on_connect`, over the connection of the pool. -/
  | send (serverId i : Nat)
  /-- The agent takes its next frame. -/
  | deliver (serverId : Nat)
  | disconnect (serverId : Nat)
  /-- The agent's process starts anew. -/
  | restart (serverId : Nat)
  | pass (t : Time)

/-- The agent's handler; a frame that it cannot parse closes the connection. -/
def applySync (field : DatetimeField) (cache : ReverseCache)
    (payload : AccountLinkCacheSync ReservationItem) : Option ReverseCache :=
  (parseSync field payload).map (applyFullSnapshot field cache)

/-- One step.  A commit that breaks a constraint of the store is rolled back. -/
def step (field : DatetimeField) (w : World) : Action → Option World
  | .op o => (Operations.step w.backend o).map fun b =>
      if Constrained b.db then { w with backend := b } else w
  | .approveRequest _ => some w
  | .approveServer serverId labId hasAgentToken actorUserId =>
      match CoreLab.approveServer w.db serverId labId hasAgentToken actorUserId w.clock with
      | .error _ => some w
      | .ok db => some <|
          { w with backend := { w.backend with db := db } }.setAgent serverId (w.agents serverId).ask
  | .connect serverId =>
      -- `authenticate_agent` knows active servers only
      if (w.db.servers.get? serverId).any (·.isActive) then
        some (w.setAgent serverId (w.agents serverId).connect)
      else none
  | .handshake serverId =>
      ((w.agents serverId).handshake (w.approved serverId)).map (w.setAgent serverId)
  | .compose serverId =>
      ((w.agents serverId).compose (composeFullPayload w.db serverId w.clock)).map (w.setAgent serverId)
  | .syncFailed serverId => (w.agents serverId).giveUp.map (w.setAgent serverId)
  | .send serverId i => ((w.agents serverId).send i).map (w.setAgent serverId)
  | .deliver serverId => ((w.agents serverId).deliver (applySync field)).map (w.setAgent serverId)
  | .disconnect serverId => some (w.setAgent serverId (w.agents serverId).disconnect)
  | .restart serverId => some (w.setAgent serverId ((w.agents serverId).restart .empty))
  | .pass t => if w.clock ≤ t then some { w with clock := t } else none

/-- The backend has just started: no agent is connected. -/
structure Started (w : World) : Prop where
  constrained : Constrained w.db
  conn : ∀ serverId, (w.agents serverId).conn = none
  composed : ∀ serverId, (w.agents serverId).composed = []

/-! ## coherence -/

/-- The cache of a server's agent is what a sync of the database would make of it: the sync
would be accepted, it would give every name the same users, and every user the same
reservations among those that are still scheduled or active. -/
structure Coherent (field : DatetimeField) (w : World) (serverId : Nat) : Prop where
  accepted : (parseSync field (composeFullPayload w.db serverId w.clock)).isSome
  userIds : ∀ name u, u ∈ lookupUserIds (w.agents serverId).held serverId name ↔
    u ∈ lookupUserIds (receiveFullSync field (w.agents serverId).held
      (composeFullPayload w.db serverId w.clock)) serverId name
  reservations : ∀ name u y, StillOpen w.db y.reservationId →
    (y ∈ lookupActiveReservations (w.agents serverId).held serverId name u ↔
      y ∈ lookupActiveReservations (receiveFullSync field (w.agents serverId).held
        (composeFullPayload w.db serverId w.clock)) serverId name u)

/-- Every approved server with a connected agent and no sync under way has a coherent cache. -/
def AllCoherent (field : DatetimeField) (w : World) : Prop :=
  ∀ serverId, (w.agents serverId).Quiet (w.approved serverId) → Coherent field w serverId

/-- The server may change: no sync of it has been taken that is not sent, and if its agent
waits for one, that is still to be taken. -/
def Free (w : World) (serverId : Nat) : Prop :=
  (w.agents serverId).composed = [] ∧ ¬ (w.agents serverId).Settled (w.approved serverId)

instance (w : World) (serverId : Nat) : Decidable (Free w serverId) :=
  have : Decidable ((w.agents serverId).composed = []) := decidable_of_iff _ List.isEmpty_iff
  inferInstanceAs (Decidable (_ ∧ _))

/-- The servers that show a reservation whose end is passed. -/
def expired (w : World) (t : Time) : List Nat :=
  (w.db.reservations.rows.filter fun r =>
    r.occupies && decide (w.clock ≤ r.endAt ∧ r.endAt < t)).filterMap fun r =>
      shownOn w.db r.accountLinkId

/-- A step that leaves the caches alone, or changes only what is still to be synced: an
operation and the clock touch free servers only, and no sync fails that is the last one
an agent waits for. -/
def Undisturbed (w : World) : Action → Prop
  | .op o => ∀ serverId ∈ touched w.db w.clock o, Free w serverId
  | .pass t => ∀ serverId ∈ expired w t, Free w serverId
  | .syncFailed serverId => ∀ a ∈ (w.agents serverId).giveUp, a.Settled (w.approved serverId) →
      a.composed ≠ []
  | _ => True

instance (w : World) : ∀ a, Decidable (Undisturbed w a)
  | .op o => inferInstanceAs (Decidable (∀ serverId ∈ touched w.db w.clock o, Free w serverId))
  | .pass t => inferInstanceAs (Decidable (∀ serverId ∈ expired w t, Free w serverId))
  | .syncFailed serverId =>
      have (a : Agent) : Decidable (a.composed ≠ []) :=
        decidable_of_iff _ (not_congr (List.isEmpty_iff (l := a.composed)))
      inferInstanceAs (Decidable (∀ a ∈ (w.agents serverId).giveUp,
        a.Settled (w.approved serverId) → a.composed ≠ []))
  | .approveRequest _ | .approveServer .. | .connect _ | .handshake _ | .compose _ | .send .. | .deliver _
  | .disconnect _ | .restart _ => .isTrue True.intro

/-! ## the invariant -/

/-- A payload that was composed from a database of the same view. -/
def Good (db : Db) (clock : Time) (serverId : Nat) (payload : AccountLinkCacheSync ReservationItem) :
    Prop :=
  ∃ db₀ t₀, AccountsUnique db₀ ∧ SameView serverId db₀ t₀ db clock ∧
    payload = composeFullPayload db₀ serverId t₀

/-- A cache that such a payload was applied to. -/
def Current (field : DatetimeField) (db : Db) (clock : Time) (serverId : Nat) (cache : ReverseCache) :
    Prop :=
  ∃ payload cache₀, Good db clock serverId payload ∧ applySync field cache₀ payload = some cache

/-- Every agent is in step with the database. -/
structure InStep (field : DatetimeField) (w : World) : Prop where
  constrained : Constrained w.db
  agents : ∀ serverId, (w.agents serverId).InStep (Good w.db w.clock serverId)
    (Current field w.db w.clock serverId) (w.approved serverId)

section Invariant

variable {field : DatetimeField} {db db' : Db} {clock clock' : Time} {serverId : Nat}

theorem Good.mono {payload : AccountLinkCacheSync ReservationItem}
    (hview : SameView serverId db clock db' clock') (h : Good db clock serverId payload) :
    Good db' clock' serverId payload := by
  obtain ⟨db₀, t₀, hunique, hsame, heq⟩ := h
  exact ⟨db₀, t₀, hunique, hsame.trans hview, heq⟩

theorem Current.mono {cache : ReverseCache} (hview : SameView serverId db clock db' clock')
    (h : Current field db clock serverId cache) : Current field db' clock' serverId cache := by
  obtain ⟨payload, cache₀, hgood, heq⟩ := h
  exact ⟨payload, cache₀, hgood.mono hview, heq⟩

/-- What the clock passes over is not shown, if it passes over the end of no reservation
that a sync of the server shows. -/
theorem sameView_pass {w : World} {t : Time} (hle : w.clock ≤ t) (h : serverId ∉ expired w t) :
    SameView serverId w.db w.clock w.db t := by
  have hlive : ∀ name p l, Linked w.db serverId name p l →
      liveReservations w.db w.clock l = liveReservations w.db t l := by
    intro name p l hlinked
    refine List.filter_congr fun r hr => ?_
    by_cases hshown : r.accountLinkId = l.id ∧ r.occupies = true
    · have hends : w.clock ≤ r.endAt ↔ t ≤ r.endAt := by
        constructor
        · intro hclock
          by_contra hlate
          refine h (List.mem_filterMap.mpr ⟨r, List.mem_filter.mpr ⟨hr, ?_⟩, ?_⟩)
          · simp [hshown.2, hclock, not_le.mp hlate]
          · rw [hshown.1]
            exact hlinked.shownOn
        · exact hle.trans
      simp [hends]
    · have hfalse : (decide (r.accountLinkId = l.id) && r.occupies) = false := by
        rw [Bool.eq_false_iff]
        simpa using hshown
      rw [hfalse, Bool.false_and, Bool.false_and]
  refine ⟨fun _ _ => Iff.rfl, fun name u x _ => ?_, fun _ hid => hid, fun _ _ hopen => hopen⟩
  constructor
  · rintro ⟨p, l, r, hlinked, huser, hr, hx⟩
    exact ⟨p, l, r, hlinked, huser, hlive name p l hlinked ▸ hr, hx⟩
  · rintro ⟨p, l, r, hlinked, huser, hr, hx⟩
    exact ⟨p, l, r, hlinked, huser, (hlive name p l hlinked).symm ▸ hr, hx⟩

/-- A current cache is what a sync would make of it. -/
theorem coherent_of_current {w : World} (hunique : AccountsUnique w.db)
    (h : Current field w.db w.clock serverId (w.agents serverId).held) :
    Coherent field w serverId := by
  obtain ⟨payload, cache₀, ⟨db₀, t₀, hunique₀, hview, rfl⟩, happly⟩ := h
  have haccepted₀ : (parseSync field (composeFullPayload db₀ serverId t₀)).isSome := by
    rw [← Option.isSome_map, ← applySync, happly]
    rfl
  have hheld : (w.agents serverId).held =
      receiveFullSync field cache₀ (composeFullPayload db₀ serverId t₀) := by
    obtain ⟨frame, hframe⟩ := Option.isSome_iff_exists.mp haccepted₀
    rw [applySync, hframe, Option.map_some, Option.some.injEq] at happly
    rw [receiveFullSync, hframe, Option.elim_some, happly]
  have haccepted : (parseSync field (composeFullPayload w.db serverId w.clock)).isSome :=
    parseSync_isSome_iff_items.mpr fun name u x hx =>
      parseSync_isSome_iff_items.mp haccepted₀ name u x ((hview.items name u x hx.stillOpen).mpr hx)
  refine ⟨haccepted, fun name u => ?_, fun name u y hopen => ?_⟩
  · rw [mem_lookupUserIds_accepted hunique haccepted, hheld,
      mem_lookupUserIds_accepted hunique₀ haccepted₀]
    exact hview.users name u
  · rw [mem_lookupActiveReservations_accepted hunique haccepted, hheld,
      mem_lookupActiveReservations_accepted hunique₀ haccepted₀]
    refine exists_congr fun x => and_congr_left fun hx => hview.items name u x ?_
    rwa [← reservationId_of_cachedItem? hx]

end Invariant

/-! ## one step -/

section Step

variable {field : DatetimeField} {w w' : World}

/-- A step of one agent. -/
theorem inStep_setAgent (h : InStep field w) {serverId : Nat} {a : Agent}
    (ha : a.InStep (Good w.db w.clock serverId) (Current field w.db w.clock serverId)
      (w.approved serverId)) : InStep field (w.setAgent serverId a) := by
  refine ⟨h.constrained, fun k => ?_⟩
  show (Function.update w.agents serverId a k).InStep (Good w.db w.clock k)
    (Current field w.db w.clock k) (w.approved k)
  by_cases hk : k = serverId
  · subst hk
    rw [Function.update_self]
    exact ha
  · rw [Function.update_of_ne hk]
    exact h.agents k

/-- A move of the database or the clock that keeps the view of every server that is not free. -/
theorem inStep_moved (h : InStep field w) (hconstrained : Constrained w'.db)
    (hagents : w'.agents = w.agents) (hservers : w'.db.servers = w.db.servers)
    (hview : ∀ serverId, ¬ Free w serverId → SameView serverId w.db w.clock w'.db w'.clock) :
    InStep field w' := by
  refine ⟨hconstrained, fun serverId => ?_⟩
  have happroved : w'.approved serverId = w.approved serverId := by
    rw [World.approved, World.approved, isServerApproved, isServerApproved, hservers]
  rw [hagents, happroved]
  by_cases hfree : Free w serverId
  · exact Replica.inStep_of_unsettled hfree.1 hfree.2
  · exact (h.agents serverId).mono (fun _ => Good.mono (hview serverId hfree))
      fun _ => Current.mono (hview serverId hfree)

theorem inStep_op {o : Operation} {b : Backend} (h : InStep field w) (hok : Undisturbed w (.op o))
    (hb : Operations.step w.backend o = some b) :
    InStep field (if Constrained b.db then { w with backend := b } else w) := by
  split
  · next hconstrained =>
      refine inStep_moved h hconstrained rfl (Operations.contextKept_step hb).servers
        fun serverId hnot => ?_
      exact sameView_step h.constrained hb fun htouched => hnot (hok serverId htouched)
  · exact h

theorem inStep_approveServer {serverId labId actorUserId : Nat} {hasAgentToken : Bool} {db : Db}
    (h : InStep field w)
    (hdb : CoreLab.approveServer w.db serverId labId hasAgentToken actorUserId w.clock = .ok db) :
    InStep field ({ w with backend := { w.backend with db := db } }.setAgent serverId
      (w.agents serverId).ask) := by
  -- the approval changes the row of the server, which no sync reads
  have heq : db.physicalAccounts = w.db.physicalAccounts ∧ db.accountLinks = w.db.accountLinks ∧
      db.reservations = w.db.reservations := by
    unfold CoreLab.approveServer at hdb
    split at hdb
    · cases hdb
    · repeat' split at hdb
      all_goals cases hdb
      · exact ⟨rfl, rfl, rfl⟩
      · exact ⟨rfl, rfl, rfl⟩
  obtain ⟨haccounts, hlinks, hrows⟩ := heq
  have hview : ∀ k, SameView k w.db w.clock db w.clock :=
    fun k => sameView_of_tables hrows haccounts hlinks
  have hagents : ∀ k wanted, (w.agents k).InStep (Good w.db w.clock k) (Current field w.db w.clock k)
      wanted → (w.agents k).InStep (Good db w.clock k) (Current field db w.clock k) wanted :=
    fun k wanted hk => hk.mono (fun _ => Good.mono (hview k)) fun _ => Current.mono (hview k)
  refine ⟨?_, fun k => ?_⟩
  · have hunique := h.constrained
    refine ⟨?_, ?_, ?_⟩
    · show ∀ p ∈ db.physicalAccounts.rows, ∀ q ∈ db.physicalAccounts.rows, _
      rw [haccounts]
      exact hunique.account
    · show ∀ l ∈ db.accountLinks.rows, (db.physicalAccounts.get? l.physicalAccountId).isSome
      rw [haccounts, hlinks]
      exact hunique.linkAccount
    · show ∀ r ∈ db.reservations.rows, (db.accountLinks.get? r.accountLinkId).isSome
      rw [hrows, hlinks]
      exact hunique.reservationLink
  · by_cases hk : k = serverId
    · subst hk
      simp only [World.setAgent, Function.update_self]
      exact Replica.inStep_ask (hagents k _ (h.agents k))
    · have happroved : isServerApproved db k = isServerApproved w.db k := by
        rw [isServerApproved, isServerApproved, servers_approveServer hdb hk]
      simp only [World.setAgent, Function.update_of_ne hk]
      show (w.agents k).InStep _ _ (isServerApproved db k)
      rw [happroved]
      exact hagents k _ (h.agents k)

/-- **One step** that leaves the caches undisturbed keeps the agents in step. -/
theorem inStep_step {a : Action} (h : InStep field w) (hok : Undisturbed w a)
    (hstep : step field w a = some w') : InStep field w' := by
  cases a with
  | op o =>
      obtain ⟨b, hb, rfl⟩ := Option.map_eq_some_iff.mp hstep
      exact inStep_op h hok hb
  | approveRequest requestId =>
      obtain rfl := Option.some.inj hstep
      exact h
  | approveServer serverId labId hasAgentToken actorUserId =>
      simp only [step] at hstep
      split at hstep
      · obtain rfl := Option.some.inj hstep
        exact h
      · next db hdb =>
          obtain rfl := Option.some.inj hstep
          exact inStep_approveServer h hdb
  | connect serverId =>
      simp only [step] at hstep
      split at hstep
      · obtain rfl := Option.some.inj hstep
        exact inStep_setAgent h (Replica.inStep_connect (h.agents serverId))
      · cases hstep
  | handshake serverId =>
      obtain ⟨a, ha, rfl⟩ := Option.map_eq_some_iff.mp hstep
      exact inStep_setAgent h (Replica.inStep_handshake ha (h.agents serverId))
  | compose serverId =>
      obtain ⟨a, ha, rfl⟩ := Option.map_eq_some_iff.mp hstep
      refine inStep_setAgent h (Replica.inStep_compose ?_ ha (h.agents serverId))
      exact ⟨w.db, w.clock, h.constrained.account, .refl serverId w.db w.clock, rfl⟩
  | syncFailed serverId =>
      obtain ⟨a, ha, rfl⟩ := Option.map_eq_some_iff.mp hstep
      exact inStep_setAgent h (Replica.inStep_giveUp ha (hok a ha) (h.agents serverId))
  | send serverId i =>
      obtain ⟨a, ha, rfl⟩ := Option.map_eq_some_iff.mp hstep
      exact inStep_setAgent h (Replica.inStep_send ha (h.agents serverId))
  | deliver serverId =>
      obtain ⟨a, ha, rfl⟩ := Option.map_eq_some_iff.mp hstep
      refine inStep_setAgent h (Replica.inStep_deliver ?_ ha (h.agents serverId))
      exact fun cache payload cache' hgood happly => ⟨payload, cache, hgood, happly⟩
  | disconnect serverId =>
      obtain rfl := Option.some.inj hstep
      exact inStep_setAgent h (Replica.inStep_disconnect (h.agents serverId))
  | restart serverId =>
      obtain rfl := Option.some.inj hstep
      exact inStep_setAgent h (Replica.inStep_restart .empty (h.agents serverId))
  | pass t =>
      simp only [step] at hstep
      split at hstep
      · next hle =>
          obtain rfl := Option.some.inj hstep
          exact inStep_moved h h.constrained rfl rfl fun serverId hnot =>
            sameView_pass hle fun hexpired => hnot (hok serverId hexpired)
      · cases hstep

end Step

/-! ## runs -/

theorem inStep_started {field : DatetimeField} {w : World} (h : Started w) : InStep field w := by
  refine ⟨h.constrained, fun serverId => Replica.inStep_of_unsettled (h.composed serverId) ?_⟩
  rintro ⟨-, hconn, -⟩
  rw [h.conn serverId] at hconn
  cases hconn

/-- **Coherent caches**: in a run from the start of the backend in which operations and the
clock touch free servers only and no sync fails that an agent waits for, every approved
server with a connected agent and no sync under way has a coherent cache. -/
theorem coherent_run (field : DatetimeField) {w : World} {as : List Action} (hstart : Started w)
    (hok : Meets (step field) Undisturbed w as) :
    Along (step field) (fun _ _ w' => AllCoherent field w') w as := by
  refine along_of_invariant (I := InStep field) (fun w a w' h hdisturb hstep => ?_)
    (inStep_started hstart) hok
  have h' : InStep field w' := inStep_step h hdisturb hstep
  exact ⟨h', fun serverId hquiet =>
    coherent_of_current h'.constrained.account ((h'.agents serverId).current_of_quiet hquiet)⟩

/-! ## a connected agent -/

/-- The small lab, its agent offline. -/
def lab : World :=
  { backend := { db := smallLab .empty, kills := [] }, clock := 0, agents := fun _ => { held := .empty } }

theorem started_lab : Started lab := ⟨by decide, fun _ => rfl, fun _ => rfl⟩

/-- The agent connects, and its sync arrives. -/
def connectAndSync : List Action :=
  [.connect 1, .handshake 1, .compose 1, .send 1 0, .deliver 1]

/-- An hour on the card. -/
def oneHour : BatchRequest :=
  { items := [{ serverId := 1, gpuId := some 11, startAt := .ofStored 0, endAt := .ofStored hourMicros
                accountLinkId := 31 }]
    userId := 41 }

/-- A booking before the agent connects, and a cancel while it is connected. -/
theorem coherent_run_cancel :
    Along (step zuluField) (fun _ _ w' => AllCoherent zuluField w') lab
      (.op (.book oneHour "g" 0) :: connectAndSync ++ [.op (.cancel 1 41 false none 0)]) :=
  coherent_run zuluField started_lab (by decide +kernel)

/-- The user revokes the link. -/
def revoke : Action := .op (.revokeLink 31 1 41 .self 0)

/-- The lab after the sync. -/
def synced : World := (exec (step zuluField) lab connectAndSync).get (by decide +kernel)

/-- The lab after the link was revoked. -/
def afterRevoke : World := (step zuluField synced revoke).get (by decide +kernel)

/-- A revoked link stays in the cache of the agent. -/
theorem not_coherent :
    ¬ ∀ (field : DatetimeField) (w : World) (as : List Action), field.Lawful → Started w →
      Along (step field) (fun _ _ w' => AllCoherent field w') w as := by
  intro hall
  have halong := hall zuluField lab (connectAndSync ++ [revoke]) lawful_zuluField started_lab
  have hcoherent : AllCoherent zuluField afterRevoke :=
    halong.step_of_exec (Option.some_get _).symm (Option.some_get _).symm
  have husers := ((hcoherent 1 (by decide +kernel)).userIds "alice" 41).mp (by decide +kernel)
  exact absurd husers (by decide +kernel)

end CacheSync

end CoreLab
