import CoreLab.Datetime
import CoreLab.Lib.History
import CoreLab.Lib.MultiMap
import CoreLab.Lib.Schema
import CoreLab.Lib.Spacing
import CoreLab.Lib.Transition

/-!
# CoreLab.WsUser

The hub of the browsers' connections, and the broker that sends them live updates.  A handler
registers its socket and takes the frames of its client; the services and the broker push frames
to users, one socket after the other, while handlers come and go and sends fail.

* `Allowed` — what may happen next, said of what has happened so far;
* `delivers_run` — and nothing else happens in any run;
* `subscribers_run` — no subscription outlives the last handler of its user, as long as no client
  subscribes over a socket to which a send has failed.
-/

namespace CoreLab

open Transition History Schema

namespace WsUser

/-! ## the registries -/

/-- `_user_connections` and `_gpu_subscribers`. -/
structure Registry where
  userConnections : Dict Nat (List Nat)
  gpuSubscribers : Dict Int (List Nat)

namespace Registry

/-- `_register_connection`. -/
def registerConnection (r : Registry) (userId ws : Nat) : Registry :=
  { r with userConnections := r.userConnections.add userId ws }

/-- `_unregister_connection`. -/
def unregisterConnection (r : Registry) (userId ws : Nat) : Registry :=
  match r.userConnections.get? userId with
  | none => r
  | some _ =>
    let conns := r.userConnections.remove userId ws
    { userConnections := conns
      gpuSubscribers :=
        if (conns.get? userId).isNone then r.gpuSubscribers.discardAll userId
        else r.gpuSubscribers }

/-- `add_gpu_subscriber`. -/
def addGpuSubscriber (r : Registry) (serverId : Int) (userId : Nat) : Registry :=
  { r with gpuSubscribers := r.gpuSubscribers.add serverId userId }

/-- `remove_gpu_subscriber`. -/
def removeGpuSubscriber (r : Registry) (serverId : Int) (userId : Nat) : Registry :=
  { r with gpuSubscribers := r.gpuSubscribers.remove serverId userId }

/-- The sockets of a user. -/
def sockets (r : Registry) (userId : Nat) : List Nat := r.userConnections.members userId

/-- `gpu_subscribers`. -/
def subscribers (r : Registry) (serverId : Int) : List Nat := r.gpuSubscribers.members serverId

end Registry

/-! ## frames -/

/-- The envelope of a frame. -/
structure Envelope where
  type : String
  id : String
  ts : String
  payload : Json

/-- What a handler makes of a frame of its client. -/
inductive ClientFrame where
  | ping (payload : Json)
  | subscribe (serverId : Int)
  | unsubscribe (serverId : Int)
  /-- Dropped, or logged and dropped. -/
  | other
  /-- An exception that ends the handler. -/
  | raises
deriving Inhabited

def truthy : Json → Bool
  | .null => false
  | .bool b => b
  | .num n => n ≠ 0
  | .str s => s ≠ ""
  | .arr items => !items.isEmpty
  | .obj fields => !fields.isEmpty

/-- `isinstance(v, int)`, which a `bool` is too. -/
def int? : Json → Option Int
  | .num n => some n
  | .bool b => some (if b then 1 else 0)
  | _ => none

/-- `frame.get("payload") or {}`. -/
def payloadOf (frame : Json) : Json := ((frame.get? "payload").filter truthy).getD (.obj [])

/-- The `server_id` of a payload, which must be a dictionary. -/
def serverIdOf (payload : Json) (act : Int → ClientFrame) : ClientFrame :=
  match payload with
  | .obj _ => ((payload.get? "server_id").bind int?).elim .other act
  | _ => .raises

/-- The loop of `ws_user_endpoint`, and `_handle_client_frame`. -/
def readFrame (frame : Json) : ClientFrame :=
  match frame with
  | .obj _ =>
    match frame.get? "type" with
    | some (.str t) =>
      if t = "ping" then .ping (payloadOf frame)
      else if t = "subscribe" then serverIdOf (payloadOf frame) .subscribe
      else if t = "unsubscribe" then serverIdOf (payloadOf frame) .unsubscribe
      else .other
    -- a list or a dictionary cannot be looked up in `_CLIENT_FRAME_TYPES`
    | some (.arr _) | some (.obj _) => .raises
    | _ => .other
  | _ => .other

/-- The frame that `fan_out` composes. -/
def liveUpdate (serverId : Int) (gpus : List Json) (id sampledAt : String) : Envelope where
  type := "gpu.live_update"
  id := id
  ts := sampledAt
  payload := .obj [("server_id", .num serverId), ("gpus", .arr gpus), ("sampled_at", .str sampledAt)]

/-! ## handlers and pushes -/

/-- Who pushes: a service, or the broker at a reading of the monotonic clock. -/
inductive Origin where
  | service
  | broker (serverId now : Int)
deriving DecidableEq

/-- The calls of `push_to_user` of one service or of one `fan_out`, one recipient after the other. -/
structure Push where
  origin : Origin
  frame : Envelope
  /-- The recipients that are still to come. -/
  userIds : List Nat
  /-- The recipient whose turn it is, and what is left of `list(sockets)`. -/
  userId : Nat
  sockets : List Nat
  delivered : Nat

/-- What happens, as seen from outside. -/
inductive Event where
  | opened (ws userId : Nat)
  | closed (ws : Nat)
  | ponged (ws : Nat) (payload : Json)
  | subscribed (userId : Nat) (serverId : Int)
  | unsubscribed (userId : Nat) (serverId : Int)
  | pushed (id : Nat) (origin : Origin) (userIds : List Nat) (frame : Envelope)
  /-- The turn of a recipient, with its sockets. -/
  | served (id userId : Nat) (sockets : List Nat)
  | sent (id ws : Nat)
  | failed (id ws : Nat)
  /-- An exception that `push_to_user` does not catch. -/
  | aborted (id userId : Nat)
  | finished (id delivered : Nat)

inductive Action where
  | openConn (userId : Nat)
  | receive (ws : Nat) (frame : Json)
  | leave (ws : Nat)
  | push (userIds : List Nat) (frame : Envelope)
  | fanOut (serverId : Int) (gpus : List Json) (frameId sampledAt : String) (now : Int)
  | next (id : Nat)
  | send (id : Nat) (ok : Bool)
  | abort (id : Nat)

structure World where
  registry : Registry
  /-- `_throttle`. -/
  throttle : Dict Int Int
  /-- The user of each socket whose handler runs. -/
  handlers : Dict Nat Nat
  nextWs : Nat
  pushes : Dict Nat Push
  nextPush : Nat
  log : List Event

namespace World

def start : World := ⟨⟨.empty, .empty⟩, .empty, .empty, 0, .empty, 0, []⟩

def did (w : World) (e : Event) : World := { w with log := w.log ++ [e] }

/-- The `finally` block of a handler. -/
def left (w : World) (ws userId : Nat) : World :=
  ({ w with
    handlers := w.handlers.erase ws
    registry := w.registry.unregisterConnection userId ws } : World).did (.closed ws)

/-- A push begins. -/
def begun (w : World) (origin : Origin) (userIds : List Nat) (frame : Envelope) : World :=
  ({ w with
    pushes := w.pushes.set w.nextPush ⟨origin, frame, userIds, 0, [], 0⟩
    nextPush := w.nextPush + 1 } : World).did (.pushed w.nextPush origin userIds frame)

def setPush (w : World) (id : Nat) (p : Push) : World := { w with pushes := w.pushes.set id p }

end World

/-- `_min_interval_seconds`, in microseconds. -/
def minInterval : Int := secondMicros

/-- One step. -/
def step (w : World) : Action → Option World
  | .openConn userId =>
    some (({ w with
      handlers := w.handlers.set w.nextWs userId
      registry := w.registry.registerConnection userId w.nextWs
      nextWs := w.nextWs + 1 } : World).did (.opened w.nextWs userId))
  | .receive ws frame =>
    (w.handlers.get? ws).map fun userId =>
      match readFrame frame with
      | .ping payload => w.did (.ponged ws payload)
      | .subscribe serverId =>
        ({ w with registry := w.registry.addGpuSubscriber serverId userId } : World).did
          (.subscribed userId serverId)
      | .unsubscribe serverId =>
        ({ w with registry := w.registry.removeGpuSubscriber serverId userId } : World).did
          (.unsubscribed userId serverId)
      | .other => w
      | .raises => w.left ws userId
  | .leave ws => (w.handlers.get? ws).map (w.left ws)
  -- the recipients are one user, or a sorted set
  | .push userIds frame => if userIds.Nodup then some (w.begun .service userIds frame) else none
  | .fanOut serverId gpus frameId sampledAt now =>
    if now - (w.throttle.get? serverId).getD 0 < minInterval then some w
    else
      some (({ w with throttle := w.throttle.set serverId now } : World).begun
        (.broker serverId now) (w.registry.subscribers serverId)
        (liveUpdate serverId gpus frameId sampledAt))
  | .next id =>
    (w.pushes.get? id).bind fun p =>
      match p.sockets, p.userIds with
      | [], [] =>
        some (({ w with pushes := w.pushes.erase id } : World).did (.finished id p.delivered))
      | [], userId :: userIds =>
        let sockets := w.registry.sockets userId
        some ((w.setPush id { p with userIds := userIds, userId := userId, sockets := sockets }).did
          (.served id userId sockets))
      | _ :: _, _ => none
  | .send id ok =>
    (w.pushes.get? id).bind fun p =>
      match p.sockets with
      | [] => none
      | ws :: rest =>
        if ok then
          some ((w.setPush id { p with sockets := rest, delivered := p.delivered + 1 }).did
            (.sent id ws))
        else
          let conns := w.registry.userConnections.discard p.userId ws
          some ((({ w with registry := { w.registry with userConnections := conns } } :
            World).setPush id { p with sockets := rest }).did (.failed id ws))
  | .abort id =>
    (w.pushes.get? id).bind fun p =>
      match p.sockets, p.origin with
      | [], _ => none
      -- the services go on with the next recipient
      | _ :: _, .service => some ((w.setPush id { p with sockets := [] }).did (.aborted id p.userId))
      | _ :: _, .broker _ _ =>
        some (({ w with pushes := w.pushes.erase id } : World).did (.aborted id p.userId))

/-! ## what may happen -/

/-- The socket was opened by the user, and can still be sent to. -/
structure Reachable (log : List Event) (ws userId : Nat) : Prop where
  opened : .opened ws userId ∈ log
  notClosed : .closed ws ∉ log
  notFailed : ∀ id, .failed id ws ∉ log

/-- The end of a handler leaves the user no socket that he can be reached over. -/
def Cuts (before : List Event) (userId : Nat) (e : Event) : Prop :=
  ∃ ws, e = .closed ws ∧ .opened ws userId ∈ before ∧
    ∀ ws', ¬ Reachable (before ++ [e]) ws' userId

/-- The user opened a socket, and has not been cut off since. -/
def Present (userId : Nat) : List Event → Prop :=
  Since (fun e => ∃ ws, e = .opened ws userId) (fun before e => ¬ Cuts before userId e)

/-- The user subscribed to the updates of the server, and has neither unsubscribed nor been cut off
since. -/
def Subscribed (serverId : Int) (userId : Nat) : List Event → Prop :=
  Since (· = .subscribed userId serverId) fun before e =>
    e ≠ .unsubscribed userId serverId ∧ (Present userId before → ¬ Cuts before userId e)

/-- The push has come to the socket. -/
def Tried (log : List Event) (id ws : Nat) : Prop := .sent id ws ∈ log ∨ .failed id ws ∈ log

def isSent (id : Nat) : Event → Bool
  | .sent id' _ => id' = id
  | _ => false

/-- An update of a server, and its time. -/
def updateOf : Event → Option (Int × Int)
  | .pushed _ (.broker serverId now) _ _ => some (serverId, now)
  | _ => none

def updates (log : List Event) : List (Int × Int) := log.filterMap updateOf

/-- The recipients of an update are the subscribers, and the updates of a server keep their
distance. -/
def Addressed (log : List Event) (userIds : List Nat) : Origin → Prop
  | .service => True
  | .broker serverId now =>
    (∀ u, u ∈ userIds ↔ Subscribed serverId u log) ∧
      ∀ e ∈ updates log, e.1 = serverId → e.2 + minInterval ≤ now

/-- What may happen next. -/
def Allowed (before : List Event) : Event → Prop
  | .opened ws _ => ∀ userId, .opened ws userId ∉ before
  | .closed ws | .ponged ws _ => (∃ userId, .opened ws userId ∈ before) ∧ .closed ws ∉ before
  | .subscribed userId _ | .unsubscribed userId _ =>
    ∃ ws, .opened ws userId ∈ before ∧ .closed ws ∉ before
  | .pushed id origin userIds _ =>
    (∀ o us f, .pushed id o us f ∉ before) ∧ userIds.Nodup ∧ Addressed before userIds origin
  | .served id userId sockets =>
    (∃ o us f, .pushed id o us f ∈ before ∧ userId ∈ us) ∧
      (∀ sockets', .served id userId sockets' ∉ before) ∧ sockets.Nodup ∧
      ∀ ws, ws ∈ sockets ↔ Reachable before ws userId
  | .sent id ws | .failed id ws =>
    (∃ userId sockets, .served id userId sockets ∈ before ∧ ws ∈ sockets) ∧ ¬ Tried before id ws
  | .aborted id userId => ∃ sockets, .served id userId sockets ∈ before
  | .finished id delivered =>
    (∃ o us f, .pushed id o us f ∈ before ∧ ∀ u ∈ us, ∃ sockets, .served id u sockets ∈ before ∧
      (.aborted id u ∈ before ∨ ∀ ws ∈ sockets, Tried before id ws)) ∧
      delivered = before.countP (isSent id)

section Laws

variable {log : List Event} {e : Event} {ws userId id : Nat} {serverId : Int}

/-- A socket belongs to the user who opened it. -/
theorem opened_unique (h : Lawful Allowed log) {u v : Nat} (hu : .opened ws u ∈ log)
    (hv : .opened ws v ∈ log) : u = v := by
  induction log using List.reverseRecOn with
  | nil => cases hu
  | append_singleton log e ih =>
      obtain ⟨hlog, he⟩ := lawful_concat_iff.mp h
      rcases List.mem_append.mp hu with hu | hu <;> rcases List.mem_append.mp hv with hv | hv
      · exact ih hlog hu hv
      · exact absurd hu ((List.mem_singleton.mp hv ▸ he : Allowed log (.opened ws v)) u)
      · exact absurd hv ((List.mem_singleton.mp hu ▸ he : Allowed log (.opened ws u)) v)
      · exact (Event.opened.inj ((List.mem_singleton.mp hu).trans (List.mem_singleton.mp hv).symm)).2

/-- The sockets that a push serves are those of the recipient. -/
theorem opened_of_served (h : Lawful Allowed log) {sockets : List Nat}
    (hserved : .served id userId sockets ∈ log) (hws : ws ∈ sockets) : .opened ws userId ∈ log := by
  obtain ⟨before, hpre, hallowed⟩ := h.allowed_of_mem hserved
  exact hpre.subset ((hallowed.2.2.2 ws).mp hws).opened

theorem served_of_tried (h : Lawful Allowed log) (ht : Tried log id ws) :
    ∃ userId sockets, .served id userId sockets ∈ log ∧ ws ∈ sockets := by
  rcases ht with ht | ht <;>
  · obtain ⟨before, hpre, hallowed⟩ := h.allowed_of_mem ht
    obtain ⟨userId, sockets, hserved, hws⟩ := hallowed.1
    exact ⟨userId, sockets, hpre.subset hserved, hws⟩

/-- **A frame is sent** only over a socket that one of its recipients opened. -/
theorem recipient_of_tried (h : Lawful Allowed log) (ht : Tried log id ws) :
    ∃ origin userIds frame userId, .pushed id origin userIds frame ∈ log ∧ userId ∈ userIds ∧
      .opened ws userId ∈ log := by
  obtain ⟨userId, sockets, hserved, hws⟩ := served_of_tried h ht
  obtain ⟨before, hpre, hallowed⟩ := h.allowed_of_mem hserved
  obtain ⟨origin, userIds, frame, hpushed, hmem⟩ := hallowed.1
  exact ⟨origin, userIds, frame, userId, hpre.subset hpushed, hmem,
    opened_of_served h hserved hws⟩

theorem updates_concat (log : List Event) (e : Event) :
    updates (log ++ [e]) = updates log ++ (updateOf e).toList := by
  rw [updates, List.filterMap_append, updates]
  cases h : updateOf e <;> simp [h]

/-- **The updates of a server** lie apart. -/
theorem spaced_updates (h : Lawful Allowed log) : Spacing.Spaced minInterval (updates log) := by
  induction log using List.reverseRecOn with
  | nil => exact Spacing.spaced_nil
  | append_singleton log e ih =>
      obtain ⟨hlog, he⟩ := lawful_concat_iff.mp h
      rw [updates_concat]
      cases hupdate : updateOf e with
      | none => rw [Option.toList_none, List.append_nil]; exact ih hlog
      | some t =>
          cases e with
          | pushed id origin userIds frame =>
              cases origin with
              | service => cases hupdate
              | broker serverId now =>
                  obtain rfl := Option.some.inj hupdate
                  exact (ih hlog).concat he.2.2.2
          | _ => cases hupdate

theorem present_concat : Present userId (log ++ [e]) ↔
    (∃ ws, e = .opened ws userId) ∨ Present userId log ∧ ¬ Cuts log userId e := since_concat_iff

theorem subscribed_concat : Subscribed serverId userId (log ++ [e]) ↔
    e = .subscribed userId serverId ∨ Subscribed serverId userId log ∧
      e ≠ .unsubscribed userId serverId ∧ (Present userId log → ¬ Cuts log userId e) :=
  since_concat_iff

theorem not_cuts (he : ∀ ws, e ≠ .closed ws) : ¬ Cuts log userId e := by
  rintro ⟨ws, rfl, -⟩
  exact he ws rfl

/-- An event other than the end of a handler. -/
theorem present_concat_of_ne (he : ∀ ws, e ≠ .closed ws) : Present userId (log ++ [e]) ↔
    (∃ ws, e = .opened ws userId) ∨ Present userId log := by
  rw [present_concat, and_iff_left (not_cuts he)]

theorem subscribed_concat_of_ne (he : ∀ ws, e ≠ .closed ws) :
    Subscribed serverId userId (log ++ [e]) ↔ e = .subscribed userId serverId ∨
      Subscribed serverId userId log ∧ e ≠ .unsubscribed userId serverId := by
  rw [subscribed_concat, and_iff_left fun _ => not_cuts he]

end Laws

/-! ## the registries tell the log -/

/-- The registries say who is reachable, and who is subscribed. -/
structure Registered (r : Registry) (log : List Event) : Prop where
  sockets : ∀ ws userId, ws ∈ r.sockets userId ↔ Reachable log ws userId
  socketsNodup : ∀ userId, (r.sockets userId).Nodup
  present : ∀ userId, r.userConnections.get? userId ≠ none ↔ Present userId log
  subscribers : ∀ serverId userId, userId ∈ r.subscribers serverId ↔ Subscribed serverId userId log
  subscribersNodup : ∀ serverId, (r.subscribers serverId).Nodup

/-- The events that the registries follow. -/
def isRegistered : Event → Bool
  | .opened .. | .closed .. | .failed .. | .subscribed .. | .unsubscribed .. => true
  | _ => false

section Registered

variable {r : Registry} {log : List Event} {e : Event} {ws userId id : Nat} {serverId : Int}

theorem reachable_concat_of_quiet (he : isRegistered e = false) :
    Reachable (log ++ [e]) ws userId ↔ Reachable log ws userId := by
  constructor
  · rintro ⟨hopened, hclosed, hfailed⟩
    refine ⟨?_, fun h => hclosed (List.mem_append_left _ h),
      fun id h => hfailed id (List.mem_append_left _ h)⟩
    rcases List.mem_append.mp hopened with h | h
    · exact h
    · rw [← List.mem_singleton.mp h] at he
      cases he
  · rintro ⟨hopened, hclosed, hfailed⟩
    refine ⟨List.mem_append_left _ hopened, fun h => ?_, fun id h => ?_⟩ <;>
    · rcases List.mem_append.mp h with h | h
      · first | exact hclosed h | exact hfailed id h
      · rw [← List.mem_singleton.mp h] at he
        cases he

theorem Registered.quiet (h : Registered r log) (he : isRegistered e = false) :
    Registered r (log ++ [e]) where
  sockets ws userId := (h.sockets ws userId).trans (reachable_concat_of_quiet he).symm
  socketsNodup := h.socketsNodup
  present u := by
    rw [present_concat_of_ne (by rintro ws rfl; cases he), h.present]
    exact (or_iff_right (by rintro ⟨ws, rfl⟩; cases he)).symm
  subscribers s u := by
    rw [subscribed_concat_of_ne (by rintro ws rfl; cases he), h.subscribers,
      or_iff_right (by rintro rfl; cases he), and_iff_left (by rintro rfl; cases he)]
  subscribersNodup := h.subscribersNodup

/-- A handler registers a new socket. -/
theorem Registered.register (h : Registered r log) (hnew : ∀ u, .opened ws u ∉ log)
    (hclosed : .closed ws ∉ log) (hfailed : ∀ id, .failed id ws ∉ log) :
    Registered (r.registerConnection userId ws) (log ++ [.opened ws userId]) where
  sockets ws' u := by
    rw [Registry.sockets, Registry.registerConnection, Dict.mem_members_add, ← Registry.sockets,
      h.sockets]
    constructor
    · rintro (⟨hopened, hclosed', hfailed'⟩ | ⟨rfl, rfl⟩)
      · exact ⟨List.mem_append_left _ hopened, by simpa using hclosed', by simpa using hfailed'⟩
      · exact ⟨by simp, by simpa using hclosed, by simpa using hfailed⟩
    · rintro ⟨hopened, hclosed', hfailed'⟩
      rcases List.mem_append.mp hopened with hm | hm
      · exact Or.inl ⟨hm, by simpa using hclosed', by simpa using hfailed'⟩
      · obtain ⟨rfl, rfl⟩ := Event.opened.inj (List.mem_singleton.mp hm)
        exact Or.inr ⟨rfl, rfl⟩
  socketsNodup u := Dict.nodup_members_add (h.socketsNodup u)
  present u := by
    rw [present_concat_of_ne (by simp), ← h.present, Registry.registerConnection, Dict.get?_add]
    by_cases heq : u = userId
    · simp [heq]
    · simp [heq, Ne.symm heq]
  subscribers s u := by
    rw [subscribed_concat_of_ne (by simp), or_iff_right (by simp), and_iff_left (by simp)]
    exact h.subscribers s u
  subscribersNodup := h.subscribersNodup

theorem mem_sockets_unregister {ws' u : Nat} : ws' ∈ (r.unregisterConnection userId ws).sockets u ↔
    ws' ∈ r.sockets u ∧ ¬ (u = userId ∧ ws' = ws) := by
  unfold Registry.unregisterConnection
  split
  · next hnone =>
      refine ⟨fun hm => ⟨hm, ?_⟩, fun hm => hm.1⟩
      rintro ⟨rfl, -⟩
      rw [Registry.sockets, Dict.members, hnone] at hm
      cases hm
  · exact Dict.mem_members_remove

/-- The user stays in the registry with a socket left; the other users stay as they were. -/
theorem get?_unregister_ne_none {u : Nat} :
    (r.unregisterConnection userId ws).userConnections.get? u ≠ none ↔
      r.userConnections.get? u ≠ none ∧
        (u = userId → (r.unregisterConnection userId ws).sockets userId ≠ []) := by
  unfold Registry.unregisterConnection
  split
  · next hnone =>
      refine ⟨fun hu => ⟨hu, ?_⟩, fun hu => hu.1⟩
      rintro rfl
      exact absurd hnone hu
  · next hsome =>
      rw [Registry.sockets, Dict.members_remove, if_pos rfl, Dict.get?_remove]
      split
      · next heq =>
          have hin : r.userConnections.get? u ≠ none := by
            rw [heq, hsome]
            exact Option.some_ne_none _
          rw [and_iff_right hin, forall_prop_of_true heq]
          split
          · next hnil => exact iff_of_false (fun h => h rfl) (fun h => h hnil)
          · next hleft => exact iff_of_true (Option.some_ne_none _) hleft
      · next hne => simp [hne]

/-- The subscriptions of a user end with its entry of the registry. -/
theorem mem_subscribers_unregister {u : Nat} :
    u ∈ (r.unregisterConnection userId ws).subscribers serverId ↔ u ∈ r.subscribers serverId ∧
      (u = userId → r.userConnections.get? u ≠ none →
        (r.unregisterConnection userId ws).userConnections.get? u ≠ none) := by
  unfold Registry.unregisterConnection
  split
  · next hnone =>
      refine ⟨fun hu => ⟨hu, ?_⟩, fun hu => hu.1⟩
      rintro rfl hsome
      exact absurd hnone hsome
  · next hsome =>
      simp only [Registry.subscribers]
      split
      · next hgone =>
          rw [Dict.members_discardAll, List.mem_filter]
          refine and_congr_right fun _ => ?_
          rw [Option.isNone_iff_eq_none] at hgone
          simp only [ne_eq, decide_eq_true_eq]
          refine ⟨fun hne heq => absurd heq hne, ?_⟩
          rintro hkept rfl
          exact hkept rfl (by simp [hsome]) hgone
      · next hleft =>
          refine (and_iff_left ?_).symm
          rintro rfl -
          simpa using hleft

/-- A handler ends. -/
theorem Registered.unregister (h : Registered r log) (hlaw : Lawful Allowed log)
    (hopened : .opened ws userId ∈ log) :
    Registered (r.unregisterConnection userId ws) (log ++ [.closed ws]) := by
  have hsockets (ws' u : Nat) : ws' ∈ (r.unregisterConnection userId ws).sockets u ↔
      Reachable (log ++ [.closed ws]) ws' u := by
    rw [mem_sockets_unregister, h.sockets]
    constructor
    · rintro ⟨⟨hopened', hclosed, hfailed⟩, hne⟩
      refine ⟨List.mem_append_left _ hopened', fun hm => ?_, by simpa using hfailed⟩
      rcases List.mem_append.mp hm with hm | hm
      · exact hclosed hm
      · obtain rfl := Event.closed.inj (List.mem_singleton.mp hm)
        exact hne ⟨opened_unique hlaw hopened' hopened, rfl⟩
    · rintro ⟨hopened', hclosed, hfailed⟩
      rw [List.mem_append, not_or] at hclosed
      refine ⟨⟨by simpa using hopened', hclosed.1, by simpa using hfailed⟩, ?_⟩
      rintro ⟨-, rfl⟩
      exact hclosed.2 (List.mem_singleton.mpr rfl)
  have hcuts (u : Nat) : Cuts log u (.closed ws) ↔
      u = userId ∧ (r.unregisterConnection userId ws).sockets userId = [] := by
    constructor
    · rintro ⟨ws', heq, hmem, hnone⟩
      obtain rfl := Event.closed.inj heq
      obtain rfl := opened_unique hlaw hmem hopened
      exact ⟨rfl, List.eq_nil_iff_forall_not_mem.mpr fun v hv => hnone v ((hsockets v u).mp hv)⟩
    · rintro ⟨rfl, hnil⟩
      refine ⟨ws, rfl, hopened, fun v hv => ?_⟩
      have hin := (hsockets v u).mpr hv
      rw [hnil] at hin
      cases hin
  have hpresent (u : Nat) : (r.unregisterConnection userId ws).userConnections.get? u ≠ none ↔
      Present u (log ++ [.closed ws]) := by
    rw [get?_unregister_ne_none, present_concat, or_iff_right (by simp), h.present, hcuts, not_and]
  refine ⟨hsockets, fun u => ?_, hpresent, fun s u => ?_, fun s => ?_⟩
  · unfold Registry.unregisterConnection
    split
    · exact h.socketsNodup u
    · exact Dict.nodup_members_remove (h.socketsNodup u)
  · have hne : Event.closed ws ≠ .unsubscribed u s := nofun
    rw [mem_subscribers_unregister, subscribed_concat, or_iff_right (by simp), h.subscribers,
      h.present, hpresent, present_concat, or_iff_right (by simp), and_iff_right hne]
    refine and_congr_right fun _ => ⟨fun hkept hin hcut => ?_, fun hkept heq hin => ?_⟩
    · exact (hkept ((hcuts u).mp hcut).1 hin).2 hcut
    · exact ⟨hin, hkept hin⟩
  · unfold Registry.unregisterConnection
    split
    · exact h.subscribersNodup s
    · simp only [Registry.subscribers]
      split
      · rw [Dict.members_discardAll]
        exact (h.subscribersNodup s).filter _
      · exact h.subscribersNodup s

/-- A send fails, and the socket is discarded. -/
theorem Registered.fail (h : Registered r log) (hlaw : Lawful Allowed log)
    (hopened : .opened ws userId ∈ log) :
    Registered { r with userConnections := r.userConnections.discard userId ws }
      (log ++ [.failed id ws]) where
  sockets ws' u := by
    rw [Registry.sockets, Dict.mem_members_discard, ← Registry.sockets, h.sockets]
    constructor
    · rintro ⟨⟨hopened', hclosed, hfailed⟩, hne⟩
      refine ⟨List.mem_append_left _ hopened', by simpa using hclosed, fun id' hm => ?_⟩
      rcases List.mem_append.mp hm with hm | hm
      · exact hfailed id' hm
      · obtain ⟨-, rfl⟩ := Event.failed.inj (List.mem_singleton.mp hm)
        exact hne ⟨opened_unique hlaw hopened' hopened, rfl⟩
    · rintro ⟨hopened', hclosed, hfailed⟩
      refine ⟨⟨by simpa using hopened', by simpa using hclosed, fun id' hm =>
        hfailed id' (List.mem_append_left _ hm)⟩, ?_⟩
      rintro ⟨-, rfl⟩
      exact hfailed id (by simp)
  socketsNodup u := Dict.nodup_members_discard (h.socketsNodup u)
  present u := by
    rw [present_concat_of_ne (by simp), or_iff_right (by simp), ← h.present, ne_eq,
      Dict.get?_discard_eq_none_iff]
  subscribers s u := by
    rw [subscribed_concat_of_ne (by simp), or_iff_right (by simp), and_iff_left (by simp)]
    exact h.subscribers s u
  subscribersNodup := h.subscribersNodup

theorem reachable_concat_request {s : Int} {u ws' v : Nat} :
    (Reachable (log ++ [.subscribed u s]) ws' v ↔ Reachable log ws' v) ∧
      (Reachable (log ++ [.unsubscribed u s]) ws' v ↔ Reachable log ws' v) := by
  constructor <;>
  · constructor
    · rintro ⟨h, hc, hf⟩
      exact ⟨by simpa using h, by simpa using hc, by simpa using hf⟩
    · rintro ⟨h, hc, hf⟩
      exact ⟨by simpa using h, by simpa using hc, by simpa using hf⟩

/-- A client subscribes. -/
theorem Registered.subscribe (h : Registered r log) :
    Registered (r.addGpuSubscriber serverId userId) (log ++ [.subscribed userId serverId]) where
  sockets ws' u := (h.sockets ws' u).trans reachable_concat_request.1.symm
  socketsNodup := h.socketsNodup
  present u := by
    rw [present_concat_of_ne (by simp), or_iff_right (by simp)]
    exact h.present u
  subscribers s u := by
    rw [Registry.subscribers, Registry.addGpuSubscriber, Dict.mem_members_add,
      subscribed_concat_of_ne (by simp), ← Registry.subscribers, h.subscribers,
      Event.subscribed.injEq, or_comm]
    refine or_congr ?_ (iff_self_and.mpr fun _ => nofun)
    rw [and_comm, @eq_comm _ u, @eq_comm _ s]
  subscribersNodup s := Dict.nodup_members_add (h.subscribersNodup s)

/-- A client unsubscribes. -/
theorem Registered.unsubscribe (h : Registered r log) :
    Registered (r.removeGpuSubscriber serverId userId) (log ++ [.unsubscribed userId serverId]) where
  sockets ws' u := (h.sockets ws' u).trans reachable_concat_request.2.symm
  socketsNodup := h.socketsNodup
  present u := by
    rw [present_concat_of_ne (by simp), or_iff_right (by simp)]
    exact h.present u
  subscribers s u := by
    rw [Registry.subscribers, Registry.removeGpuSubscriber, Dict.mem_members_remove,
      subscribed_concat_of_ne (by simp), or_iff_right (by simp), ne_eq, Event.unsubscribed.injEq,
      ← h.subscribers, Registry.subscribers]
    simp only [eq_comm, and_comm]
  subscribersNodup s := Dict.nodup_members_remove (h.subscribersNodup s)

end Registered

/-! ## the invariant -/

/-- How far a push is. -/
structure Task (log : List Event) (id : Nat) (p : Push) : Prop where
  addressed : ∃ done, .pushed id p.origin (done ++ p.userIds) p.frame ∈ log ∧
    ∀ u ∈ done, ∃ sockets, .served id u sockets ∈ log ∧ (.aborted id u ∈ log ∨
      ∀ ws ∈ sockets, Tried log id ws ∨ u = p.userId ∧ ws ∈ p.sockets)
  unserved : ∀ u ∈ p.userIds, ∀ sockets, .served id u sockets ∉ log
  left : ∀ ws ∈ p.sockets, (∃ sockets, .served id p.userId sockets ∈ log ∧ ws ∈ sockets) ∧
    ¬ Tried log id ws
  nodup : p.sockets.Nodup
  delivered : p.delivered = log.countP (isSent id)

structure Inv (w : World) : Prop where
  lawful : Lawful Allowed w.log
  registered : Registered w.registry w.log
  handlers : ∀ ws userId, w.handlers.get? ws = some userId ↔
    .opened ws userId ∈ w.log ∧ .closed ws ∉ w.log
  fresh : ∀ ws userId, .opened ws userId ∈ w.log → ws < w.nextWs
  freshPush : ∀ id o us f, .pushed id o us f ∈ w.log → id < w.nextPush
  throttle : ∀ e ∈ updates w.log, ∃ last, w.throttle.get? e.1 = some last ∧ e.2 ≤ last
  tasks : ∀ id p, w.pushes.get? id = some p → Task w.log id p

/-- The event is a step of the push. -/
def concerns (id : Nat) : Event → Bool
  | .served id' .. | .sent id' _ | .failed id' _ | .aborted id' _ => id' = id
  | _ => false

section Inv

variable {w w' : World} {log : List Event} {e : Event} {p : Push} {ws userId id : Nat}

theorem Tried.concat (h : Tried log id ws) (e : Event) : Tried (log ++ [e]) id ws :=
  h.imp (List.mem_append_left _) (List.mem_append_left _)

theorem tried_of_concat (h : Tried (log ++ [e]) id ws) :
    Tried log id ws ∨ e = .sent id ws ∨ e = .failed id ws := by
  rcases h with h | h <;> rcases List.mem_append.mp h with h | h
  · exact Or.inl (Or.inl h)
  · exact Or.inr (Or.inl (List.mem_singleton.mp h).symm)
  · exact Or.inl (Or.inr h)
  · exact Or.inr (Or.inr (List.mem_singleton.mp h).symm)

/-- Nothing of a push changes with an event that is no step of it. -/
theorem Task.frame (h : Task log id p) (he : concerns id e = false) : Task (log ++ [e]) id p where
  addressed := by
    obtain ⟨done, hpushed, hdone⟩ := h.addressed
    refine ⟨done, List.mem_append_left _ hpushed, fun u hu => ?_⟩
    obtain ⟨sockets, hserved, hs⟩ := hdone u hu
    exact ⟨sockets, List.mem_append_left _ hserved, hs.imp (List.mem_append_left _)
      fun hall ws hws => (hall ws hws).imp_left fun ht => ht.concat e⟩
  unserved u hu sockets hm := by
    rcases List.mem_append.mp hm with hm | hm
    · exact h.unserved u hu sockets hm
    · rw [← List.mem_singleton.mp hm] at he
      simp [concerns] at he
  left ws hws := by
    obtain ⟨⟨sockets, hserved, hmem⟩, hnot⟩ := h.left ws hws
    refine ⟨⟨sockets, List.mem_append_left _ hserved, hmem⟩, fun ht => ?_⟩
    rcases tried_of_concat ht with ht | rfl | rfl
    · exact hnot ht
    · simp [concerns] at he
    · simp [concerns] at he
  nodup := h.nodup
  delivered := by
    rw [List.countP_append, h.delivered, List.countP_singleton]
    cases e <;> simp_all [isSent, concerns]

/-- The push that an event is no step of stays as it was. -/
theorem Inv.frame_tasks (h : Inv w) (he : ∀ id p, w.pushes.get? id = some p → concerns id e = false) :
    ∀ id p, w.pushes.get? id = some p → Task (w.log ++ [e]) id p :=
  fun id p hp => (h.tasks id p hp).frame (he id p hp)

theorem inv_start : Inv .start where
  lawful := lawful_nil
  registered := by
    refine ⟨fun ws u => ⟨fun h => (by cases h), fun h => (by cases h.opened)⟩,
      fun u => List.nodup_nil, fun u => ⟨fun h => absurd rfl h, fun h => (not_since_nil h).elim⟩,
      fun s u => ⟨fun h => (by cases h), fun h => (not_since_nil h).elim⟩, fun s => List.nodup_nil⟩
  handlers ws u := ⟨fun h => (by cases h), fun h => (by cases h.1)⟩
  fresh ws u h := by cases h
  freshPush id o us f h := by cases h
  throttle e h := by cases h
  tasks id p h := by cases h

/-- The log is lawful, and what follows for the fields that an event leaves alone. -/
theorem Inv.quiet (h : Inv w) (hallowed : Allowed w.log e) (he : isRegistered e = false)
    (hpushed : ∀ id o us f, e ≠ .pushed id o us f)
    (htasks : ∀ id p, w'.pushes.get? id = some p → Task (w.log ++ [e]) id p)
    (hw' : w'.registry = w.registry ∧ w'.handlers = w.handlers ∧ w'.nextWs = w.nextWs ∧
      w'.nextPush = w.nextPush ∧ w'.throttle = w.throttle ∧ w'.log = w.log ++ [e]) : Inv w' := by
  obtain ⟨hregistry, hhandlers, hnextWs, hnextPush, hthrottle, hlog⟩ := hw'
  have hopened (ws u : Nat) : .opened ws u ∈ w'.log ↔ .opened ws u ∈ w.log := by
    rw [hlog, List.mem_append, List.mem_singleton]
    exact or_iff_left (by rintro rfl; cases he)
  refine ⟨hlog ▸ h.lawful.concat hallowed, ?_, fun ws u => ?_, fun ws u hm => ?_,
    fun id o us f hm => ?_, fun t ht => ?_, fun id p hp => hlog ▸ htasks id p hp⟩
  · rw [hregistry, hlog]
    exact h.registered.quiet he
  · have hclosed : .closed ws ∈ w'.log ↔ .closed ws ∈ w.log := by
      rw [hlog, List.mem_append, List.mem_singleton]
      exact or_iff_left (by rintro rfl; cases he)
    rw [hhandlers, h.handlers, hopened, hclosed]
  · rw [hnextWs]
    exact h.fresh ws u ((hopened ws u).mp hm)
  · rw [hnextPush]
    rw [hlog, List.mem_append, List.mem_singleton] at hm
    exact h.freshPush id o us f (hm.resolve_right (Ne.symm (hpushed id o us f)))
  · rw [hthrottle]
    rw [hlog, updates_concat] at ht
    have hnone : updateOf e = none := by
      cases e with
      | pushed id o us f => exact absurd rfl (hpushed id o us f)
      | _ => rfl
    rw [hnone, Option.toList_none, List.append_nil] at ht
    exact h.throttle t ht

/-! ## the steps -/

theorem Inv.not_closed (h : Inv w) (hws : w.handlers.get? ws = some userId) :
    .opened ws userId ∈ w.log ∧ .closed ws ∉ w.log := (h.handlers ws userId).mp hws

/-- The steps of a push come after it has begun. -/
theorem Inv.lt_of_concerns (h : Inv w) (he : e ∈ w.log) (hc : concerns id e = true) :
    id < w.nextPush := by
  have hserved {u : Nat} {sockets : List Nat} (hm : .served id u sockets ∈ w.log) :
      id < w.nextPush := by
    obtain ⟨before, hpre, hallowed⟩ := h.lawful.allowed_of_mem hm
    obtain ⟨o, us, f, hpushed, -⟩ := hallowed.1
    exact h.freshPush id o us f (hpre.subset hpushed)
  cases e with
  | served id' u sockets => exact hserved (of_decide_eq_true hc ▸ he)
  | sent id' ws =>
      obtain ⟨u, sockets, hm, -⟩ := served_of_tried h.lawful (Or.inl (of_decide_eq_true hc ▸ he))
      exact hserved hm
  | failed id' ws =>
      obtain ⟨u, sockets, hm, -⟩ := served_of_tried h.lawful (Or.inr (of_decide_eq_true hc ▸ he))
      exact hserved hm
  | aborted id' u =>
      obtain ⟨before, hpre, sockets, hm⟩ := h.lawful.allowed_of_mem he
      exact hserved (hpre.subset (of_decide_eq_true hc ▸ hm))
  | _ => cases hc

theorem Inv.openConn (h : Inv w) (userId : Nat) :
    Inv (({ w with
      handlers := w.handlers.set w.nextWs userId
      registry := w.registry.registerConnection userId w.nextWs
      nextWs := w.nextWs + 1 } : World).did (.opened w.nextWs userId)) := by
  have hnew (u : Nat) : .opened w.nextWs u ∉ w.log := fun hm =>
    Nat.lt_irrefl _ (h.fresh w.nextWs u hm)
  have hclosed : .closed w.nextWs ∉ w.log := by
    intro hm
    obtain ⟨before, hpre, ⟨u, hopened⟩, -⟩ := h.lawful.allowed_of_mem hm
    exact hnew u (hpre.subset hopened)
  have hfailed (id : Nat) : .failed id w.nextWs ∉ w.log := by
    intro hm
    obtain ⟨u, sockets, hserved, hws⟩ := served_of_tried h.lawful (Or.inr hm)
    exact hnew u (opened_of_served h.lawful hserved hws)
  refine ⟨h.lawful.concat hnew, h.registered.register hnew hclosed hfailed, fun ws u => ?_,
    fun ws u hm => ?_, fun id o us f hm => ?_, fun t ht => ?_, h.frame_tasks fun _ _ _ => rfl⟩
  · simp only [World.did, Dict.get?_set, List.mem_append, List.mem_singleton]
    split
    · next heq =>
        subst heq
        simp only [Option.some.injEq, Event.opened.injEq, true_and, reduceCtorEq, or_false]
        constructor
        · rintro rfl
          exact ⟨Or.inr rfl, hclosed⟩
        · rintro ⟨hm | rfl, -⟩
          · exact absurd hm (hnew u)
          · rfl
    · next hne =>
        rw [h.handlers]
        simp [hne]
  · rcases List.mem_append.mp hm with hm | hm
    · exact Nat.lt_succ_of_lt (h.fresh ws u hm)
    · obtain ⟨rfl, -⟩ := Event.opened.inj (List.mem_singleton.mp hm)
      exact Nat.lt_succ_self _
  · exact h.freshPush id o us f (by simpa [World.did] using hm)
  · rw [World.did, updates_concat] at ht
    exact h.throttle t (by simpa [updateOf] using ht)

theorem Inv.left (h : Inv w) (hws : w.handlers.get? ws = some userId) : Inv (w.left ws userId) := by
  obtain ⟨hopened, hclosed⟩ := h.not_closed hws
  refine ⟨h.lawful.concat ⟨⟨userId, hopened⟩, hclosed⟩, h.registered.unregister h.lawful hopened,
    fun ws' u => ?_, fun ws' u hm => ?_, fun id o us f hm => ?_, fun t ht => ?_,
    h.frame_tasks fun _ _ _ => rfl⟩
  · simp only [World.left, World.did, Dict.get?_erase, List.mem_append, List.mem_singleton]
    split
    · next heq => simp [heq]
    · next hne =>
        rw [h.handlers]
        simp [hne]
  · exact h.fresh ws' u (by simpa [World.left, World.did] using hm)
  · exact h.freshPush id o us f (by simpa [World.left, World.did] using hm)
  · rw [World.left, World.did, updates_concat] at ht
    exact h.throttle t (by simpa [updateOf] using ht)

/-- A frame that changes subscriptions. -/
theorem Inv.request (h : Inv w) {r : Registry} (hregistered : Registered r (w.log ++ [e]))
    (hallowed : Allowed w.log e) (he : ∃ u s, e = .subscribed u s ∨ e = .unsubscribed u s) :
    Inv (({ w with registry := r } : World).did e) := by
  obtain ⟨u, s, rfl | rfl⟩ := he <;>
  · refine ⟨h.lawful.concat hallowed, hregistered, fun ws v => ?_, fun ws v hm => ?_,
      fun id o us f hm => ?_, fun t ht => ?_, h.frame_tasks fun _ _ _ => rfl⟩
    · rw [World.did, h.handlers]
      simp
    · exact h.fresh ws v (by simpa [World.did] using hm)
    · exact h.freshPush id o us f (by simpa [World.did] using hm)
    · rw [World.did, updates_concat] at ht
      exact h.throttle t (by simpa [updateOf] using ht)

theorem Inv.receive (h : Inv w) {frame : Json} (hs : step w (.receive ws frame) = some w') :
    Inv w' := by
  simp only [step, Option.map_eq_some_iff] at hs
  obtain ⟨userId, hws, rfl⟩ := hs
  obtain ⟨hopened, hclosed⟩ := h.not_closed hws
  cases readFrame frame with
  | ping payload =>
      exact h.quiet (e := .ponged ws payload) ⟨⟨userId, hopened⟩, hclosed⟩ rfl (by simp)
        (h.frame_tasks fun _ _ _ => rfl) ⟨rfl, rfl, rfl, rfl, rfl, rfl⟩
  | subscribe serverId =>
      exact h.request h.registered.subscribe ⟨ws, hopened, hclosed⟩ ⟨_, _, Or.inl rfl⟩
  | unsubscribe serverId =>
      exact h.request h.registered.unsubscribe ⟨ws, hopened, hclosed⟩ ⟨_, _, Or.inr rfl⟩
  | other => exact h
  | raises => exact h.left hws

/-- A push begins. -/
theorem Inv.begun (h : Inv w) {origin : Origin} {userIds : List Nat} {frame : Envelope}
    (hnodup : userIds.Nodup) (haddressed : Addressed w.log userIds origin)
    {throttle : Dict Int Int}
    (hthrottle : ∀ t ∈ updates (w.log ++ [.pushed w.nextPush origin userIds frame]),
      ∃ last, throttle.get? t.1 = some last ∧ t.2 ≤ last) :
    Inv (({ w with throttle := throttle } : World).begun origin userIds frame) := by
  have hfresh (o : Origin) (us : List Nat) (f : Envelope) : .pushed w.nextPush o us f ∉ w.log :=
    fun hm => Nat.lt_irrefl _ (h.freshPush _ o us f hm)
  refine ⟨h.lawful.concat ⟨hfresh, hnodup, haddressed⟩, h.registered.quiet rfl, fun ws u => ?_,
    fun ws u hm => ?_, fun id o us f hm => ?_, hthrottle, fun id p hp => ?_⟩
  · rw [World.begun, World.did, h.handlers]
    simp
  · exact h.fresh ws u (by simpa [World.begun, World.did] using hm)
  · rcases List.mem_append.mp hm with hm | hm
    · exact Nat.lt_succ_of_lt (h.freshPush id o us f hm)
    · obtain ⟨rfl, -⟩ := Event.pushed.inj (List.mem_singleton.mp hm)
      exact Nat.lt_succ_self _
  · simp only [World.begun, World.did, Dict.get?_set] at hp
    split at hp
    · next heq =>
        obtain rfl := Option.some.inj hp
        subst heq
        have hnone (e' : Event) (he' : e' ∈ w.log) : concerns w.nextPush e' = false :=
          Bool.eq_false_iff.mpr fun hc => Nat.lt_irrefl _ (h.lt_of_concerns he' hc)
        refine ⟨⟨[], by simp [World.begun, World.did], by simp⟩, fun u _ sockets hm => ?_,
          by simp, List.nodup_nil, ?_⟩
        · have hserved := hnone (.served w.nextPush u sockets)
            (by simpa [World.begun, World.did] using hm)
          simp [concerns] at hserved
        · refine (List.countP_eq_zero.mpr fun e' he' => ?_).symm
          rcases List.mem_append.mp he' with he' | he'
          · have := hnone e' he'
            cases e' <;> simp_all [isSent, concerns]
          · rw [List.mem_singleton.mp he']
            simp [isSent]
    · exact (h.tasks id p hp).frame rfl

theorem Inv.fanOut (h : Inv w) {serverId now : Int} {gpus : List Json} {frameId sampledAt : String}
    (hs : step w (.fanOut serverId gpus frameId sampledAt now) = some w') : Inv w' := by
  simp only [step] at hs
  split at hs
  · exact Option.some.inj hs ▸ h
  · next hlast =>
      rw [not_lt] at hlast
      obtain rfl := Option.some.inj hs
      have hearlier (t : Int × Int) (ht : t ∈ updates w.log) (hkey : t.1 = serverId) :
          t.2 + minInterval ≤ now := by
        obtain ⟨last, hget, hle⟩ := h.throttle t ht
        rw [← hkey, hget, Option.getD_some] at hlast
        omega
      have haddressed : Addressed w.log (w.registry.subscribers serverId) (.broker serverId now) :=
        ⟨h.registered.subscribers serverId, hearlier⟩
      refine h.begun (h.registered.subscribersNodup serverId) haddressed ?_
      intro t ht
      rw [updates_concat] at ht
      rw [Dict.get?_set]
      rcases List.mem_append.mp ht with ht | ht
      · split
        · next hkey =>
            have hle := hearlier t ht hkey
            exact ⟨now, rfl, by simp only [minInterval, secondMicros] at hle; omega⟩
        · exact h.throttle t ht
      · obtain rfl : (serverId, now) = t := by simpa [updateOf, eq_comm] using ht
        exact ⟨now, by simp, Int.le_refl _⟩

/-- The pushes after one of them has made a step. -/
theorem Inv.tasks_set (h : Inv w) {p' : Push} (hother : ∀ j, j ≠ id → concerns j e = false)
    (hp' : Task (w.log ++ [e]) id p') :
    ∀ j q, (w.pushes.set id p').get? j = some q → Task (w.log ++ [e]) j q := by
  intro j q hq
  rw [Dict.get?_set] at hq
  split at hq
  · next heq => exact heq ▸ Option.some.inj hq ▸ hp'
  · next hne => exact (h.tasks j q hq).frame (hother j hne)

/-- The pushes after one of them has ended. -/
theorem Inv.tasks_erase (h : Inv w) (hother : ∀ j, j ≠ id → concerns j e = false) :
    ∀ j q, (w.pushes.erase id).get? j = some q → Task (w.log ++ [e]) j q := by
  intro j q hq
  rw [Dict.get?_erase] at hq
  split at hq
  · cases hq
  · next hne => exact (h.tasks j q hq).frame (hother j hne)

/-- The turn of the next recipient. -/
theorem Task.serve (h : Task log id p) (hlaw : Lawful Allowed log) {userIds sockets : List Nat}
    (hleft : p.sockets = []) (hnext : p.userIds = userId :: userIds) (hnodup : sockets.Nodup)
    (hopened : ∀ ws ∈ sockets, .opened ws userId ∈ log) :
    Task (log ++ [.served id userId sockets]) id
      { p with userIds := userIds, userId := userId, sockets := sockets } := by
  obtain ⟨done, hpushed, hdone⟩ := h.addressed
  rw [hnext] at hpushed
  obtain ⟨before, hpre, hallowed⟩ := hlaw.allowed_of_mem hpushed
  have hdistinct : userId ∉ userIds :=
    (List.nodup_cons.mp (List.nodup_append.mp hallowed.2.1).2.1).1
  refine ⟨⟨done ++ [userId], by simpa using hpushed, fun u hu => ?_⟩, fun u hu sockets' hm => ?_,
    fun ws hws => ⟨⟨sockets, by simp, hws⟩, fun ht => ?_⟩, hnodup, ?_⟩
  · rcases List.mem_append.mp hu with hu | hu
    · obtain ⟨sockets', hserved, hs⟩ := hdone u hu
      refine ⟨sockets', List.mem_append_left _ hserved, hs.imp (List.mem_append_left _)
        fun hall ws hws => Or.inl ?_⟩
      rcases hall ws hws with ht | ⟨-, hmem⟩
      · exact ht.concat _
      · rw [hleft] at hmem
        cases hmem
    · obtain rfl := List.mem_singleton.mp hu
      exact ⟨sockets, by simp, Or.inr fun ws hws => Or.inr ⟨rfl, hws⟩⟩
  · rcases List.mem_append.mp hm with hm | hm
    · exact h.unserved u (hnext ▸ List.mem_cons_of_mem _ hu) sockets' hm
    · obtain ⟨-, rfl, -⟩ := Event.served.inj (List.mem_singleton.mp hm)
      exact hdistinct hu
  · rcases tried_of_concat ht with ht | heq | heq
    · obtain ⟨u, sockets', hserved, hmem⟩ := served_of_tried hlaw ht
      obtain rfl := opened_unique hlaw (opened_of_served hlaw hserved hmem) (hopened ws hws)
      exact h.unserved u (hnext ▸ List.mem_cons_self) sockets' hserved
    · cases heq
    · cases heq
  · rw [List.countP_append, h.delivered]
    simp [isSent]

theorem Inv.next (h : Inv w) (hs : step w (.next id) = some w') : Inv w' := by
  simp only [step, Option.bind_eq_some_iff] at hs
  obtain ⟨p, hp, hs⟩ := hs
  have htask := h.tasks id p hp
  split at hs
  · next hsockets huserIds =>
      obtain rfl := Option.some.inj hs
      obtain ⟨done, hpushed, hdone⟩ := htask.addressed
      rw [huserIds, List.append_nil] at hpushed
      refine h.quiet (e := .finished id p.delivered) ⟨⟨_, done, _, hpushed, fun u hu => ?_⟩,
        htask.delivered⟩ rfl (by simp) (h.tasks_erase fun _ _ => rfl)
        ⟨rfl, rfl, rfl, rfl, rfl, rfl⟩
      obtain ⟨sockets, hserved, hall⟩ := hdone u hu
      refine ⟨sockets, hserved, hall.imp_right fun hall ws hws => (hall ws hws).resolve_right ?_⟩
      rintro ⟨-, hmem⟩
      rw [hsockets] at hmem
      cases hmem
  · next userId userIds hsockets huserIds =>
      obtain rfl := Option.some.inj hs
      obtain ⟨done, hpushed, -⟩ := htask.addressed
      have hserve := htask.serve h.lawful hsockets huserIds (h.registered.socketsNodup userId)
        fun ws hws => ((h.registered.sockets ws userId).mp hws).opened
      refine h.quiet (e := .served id userId (w.registry.sockets userId))
        ⟨⟨_, _, _, hpushed, ?_⟩, htask.unserved userId (huserIds ▸ List.mem_cons_self),
          h.registered.socketsNodup userId, fun ws => h.registered.sockets ws userId⟩ rfl (by simp)
        (h.tasks_set (fun j hj => decide_eq_false hj.symm) hserve) ⟨rfl, rfl, rfl, rfl, rfl, rfl⟩
      rw [huserIds]
      exact List.mem_append_right _ List.mem_cons_self
  · cases hs

/-- One more socket has been tried. -/
theorem Task.tried (h : Task log id p) {rest : List Nat} (hsockets : p.sockets = ws :: rest)
    (he : e = .sent id ws ∨ e = .failed id ws) :
    Task (log ++ [e]) id
      { p with sockets := rest, delivered := p.delivered + if isSent id e then 1 else 0 } := by
  obtain ⟨done, hpushed, hdone⟩ := h.addressed
  have hnodup := List.nodup_cons.mp (hsockets ▸ h.nodup)
  have htried : Tried (log ++ [e]) id ws := by
    rcases he with rfl | rfl
    · exact Or.inl (by simp)
    · exact Or.inr (by simp)
  refine ⟨⟨done, List.mem_append_left _ hpushed, fun u hu => ?_⟩, fun u hu sockets hm => ?_,
    fun ws' hws => ⟨?_, fun ht => ?_⟩, hnodup.2, ?_⟩
  · obtain ⟨sockets, hserved, hs⟩ := hdone u hu
    refine ⟨sockets, List.mem_append_left _ hserved, hs.imp (List.mem_append_left _)
      fun hall ws' hws => ?_⟩
    rcases hall ws' hws with ht | ⟨heq, hmem⟩
    · exact Or.inl (ht.concat e)
    · rcases List.mem_cons.mp (hsockets ▸ hmem) with rfl | hrest
      · exact Or.inl htried
      · exact Or.inr ⟨heq, hrest⟩
  · rcases List.mem_append.mp hm with hm | hm
    · exact h.unserved u hu sockets hm
    · rcases he with rfl | rfl <;> cases List.mem_singleton.mp hm
  · obtain ⟨⟨sockets, hserved, hmem⟩, -⟩ := h.left ws' (hsockets ▸ List.mem_cons_of_mem _ hws)
    exact ⟨sockets, List.mem_append_left _ hserved, hmem⟩
  · have hne : ws ≠ ws' := fun heq => hnodup.1 (heq ▸ hws)
    rcases tried_of_concat ht with ht | heq | heq
    · exact (h.left ws' (hsockets ▸ List.mem_cons_of_mem _ hws)).2 ht
    · rcases he with rfl | rfl
      · exact hne (Event.sent.inj heq).2
      · cases heq
    · rcases he with rfl | rfl
      · cases heq
      · exact hne (Event.failed.inj heq).2
  · rw [List.countP_append, h.delivered, List.countP_singleton]

theorem Inv.send (h : Inv w) {ok : Bool} (hs : step w (.send id ok) = some w') : Inv w' := by
  simp only [step, Option.bind_eq_some_iff] at hs
  obtain ⟨p, hp, hs⟩ := hs
  have htask := h.tasks id p hp
  split at hs
  · cases hs
  · next ws rest hsockets =>
      obtain ⟨⟨sockets, hserved, hmem⟩, hnot⟩ := htask.left ws (hsockets ▸ List.mem_cons_self)
      have hallowed : Allowed w.log (.sent id ws) ∧ Allowed w.log (.failed id ws) :=
        ⟨⟨⟨p.userId, sockets, hserved, hmem⟩, hnot⟩, ⟨p.userId, sockets, hserved, hmem⟩, hnot⟩
      split at hs
      · obtain rfl := Option.some.inj hs
        have hsent := htask.tried hsockets (e := .sent id ws) (Or.inl rfl)
        simp only [isSent, decide_true, if_true] at hsent
        exact h.quiet hallowed.1 rfl (by simp)
          (h.tasks_set (fun j hj => decide_eq_false hj.symm) hsent) ⟨rfl, rfl, rfl, rfl, rfl, rfl⟩
      · obtain rfl := Option.some.inj hs
        have hfailed := htask.tried hsockets (e := .failed id ws) (Or.inr rfl)
        simp only [isSent, Bool.false_eq_true, if_false, Nat.add_zero] at hfailed
        have hopened := opened_of_served h.lawful hserved hmem
        refine ⟨h.lawful.concat hallowed.2, h.registered.fail h.lawful hopened, fun ws' u => ?_,
          fun ws' u hm => ?_, fun id' o us f hm => ?_, fun t ht => ?_,
          h.tasks_set (fun j hj => decide_eq_false hj.symm) hfailed⟩
        · simp only [World.did, World.setPush, h.handlers]
          simp
        · exact h.fresh ws' u (by simpa [World.did, World.setPush] using hm)
        · exact h.freshPush id' o us f (by simpa [World.did, World.setPush] using hm)
        · simp only [World.did, World.setPush, updates_concat] at ht
          exact h.throttle t (by simpa [updateOf] using ht)

/-- The rest of the sockets of a recipient is skipped. -/
theorem Task.abort (h : Task log id p) :
    Task (log ++ [.aborted id p.userId]) id { p with sockets := [] } := by
  obtain ⟨done, hpushed, hdone⟩ := h.addressed
  refine ⟨⟨done, List.mem_append_left _ hpushed, fun u hu => ?_⟩, fun u hu sockets hm => ?_,
    by simp, List.nodup_nil, ?_⟩
  · obtain ⟨sockets, hserved, hs⟩ := hdone u hu
    refine ⟨sockets, List.mem_append_left _ hserved, ?_⟩
    by_cases heq : u = p.userId
    · exact Or.inl (by simp [heq])
    · refine hs.imp (List.mem_append_left _) fun hall ws hws => Or.inl ?_
      exact ((hall ws hws).resolve_right fun hcur => heq hcur.1).concat _
  · exact h.unserved u hu sockets (by simpa using hm)
  · rw [List.countP_append, h.delivered]
    simp [isSent]

theorem Inv.abort (h : Inv w) (hs : step w (.abort id) = some w') : Inv w' := by
  simp only [step, Option.bind_eq_some_iff] at hs
  obtain ⟨p, hp, hs⟩ := hs
  have htask := h.tasks id p hp
  have hallowed (hne : p.sockets ≠ []) : Allowed w.log (.aborted id p.userId) := by
    obtain ⟨ws, rest, hsockets⟩ := List.exists_cons_of_ne_nil hne
    obtain ⟨⟨sockets, hserved, -⟩, -⟩ := htask.left ws (hsockets ▸ List.mem_cons_self)
    exact ⟨sockets, hserved⟩
  split at hs
  · cases hs
  · next hsockets _ =>
      obtain rfl := Option.some.inj hs
      exact h.quiet (hallowed (by simp [hsockets])) rfl (by simp)
        (h.tasks_set (fun j hj => decide_eq_false hj.symm) htask.abort) ⟨rfl, rfl, rfl, rfl, rfl, rfl⟩
  · next hsockets _ =>
      obtain rfl := Option.some.inj hs
      exact h.quiet (hallowed (by simp [hsockets])) rfl (by simp)
        (h.tasks_erase fun j hj => decide_eq_false hj.symm) ⟨rfl, rfl, rfl, rfl, rfl, rfl⟩

theorem inv_step {a : Action} (h : Inv w) (hs : step w a = some w') : Inv w' := by
  cases a with
  | openConn userId => exact Option.some.inj hs ▸ h.openConn userId
  | receive ws frame => exact h.receive hs
  | leave ws =>
      simp only [step, Option.map_eq_some_iff] at hs
      obtain ⟨userId, hws, rfl⟩ := hs
      exact h.left hws
  | push userIds frame =>
      simp only [step] at hs
      split at hs
      · next hnodup =>
          have haddressed : Addressed w.log userIds .service := True.intro
          refine Option.some.inj hs ▸ h.begun hnodup haddressed fun t ht => h.throttle t ?_
          rw [updates_concat] at ht
          simpa [updateOf] using ht
      · cases hs
  | fanOut serverId gpus frameId sampledAt now => exact h.fanOut hs
  | next id => exact h.next hs
  | send id ok => exact h.send hs
  | abort id => exact h.abort hs

end Inv

/-- What the hub does, and what follows from it: a frame goes only to sockets of its recipients, and
no window of `n` seconds has more than `n` updates of a server. -/
structure Delivers (log : List Event) : Prop where
  lawful : Lawful Allowed log
  isolated : ∀ id ws, Tried log id ws → ∃ origin userIds frame userId,
    .pushed id origin userIds frame ∈ log ∧ userId ∈ userIds ∧ .opened ws userId ∈ log
  throttled : ∀ (serverId start : Int) (n : Nat), (updates log).countP
    (fun e => decide (e.1 = serverId ∧ start ≤ e.2 ∧ e.2 < start + n • minInterval)) ≤ n

/-- **The hub delivers** in every run: a push comes once to each socket of each recipient that can
be reached when it is the recipient's turn, and to no other; an update is addressed to exactly the
subscribers of the server; and the updates of a server are throttled. -/
theorem delivers_run (as : List Action) : Along step (fun _ _ w' => Delivers w'.log) .start as :=
  along_of_keeps (I := Inv)
    (fun _ _ _ h hs => ⟨inv_step h hs, (inv_step h hs).lawful,
      fun _ _ ht => recipient_of_tried (inv_step h hs).lawful ht,
      fun serverId start n => (spaced_updates (inv_step h hs).lawful).countP_le serverId start n⟩)
    inv_start as

/-! ## subscriptions -/

def isFailed (ws : Nat) : Event → Bool
  | .failed _ ws' => ws' = ws
  | _ => false

/-- A client that subscribes does so over a socket to which no send has failed. -/
def SubscribesReachable (w : World) : Action → Prop
  | .receive ws frame =>
    match readFrame frame with
    | .subscribe _ => w.log.any (isFailed ws) = false
    | _ => True
  | _ => True

instance (w : World) (a : Action) : Decidable (SubscribesReachable w a) := by
  unfold SubscribesReachable
  split
  · split <;> infer_instance
  · infer_instance

/-- A user in the registry has a handler, and a subscriber is in the registry. -/
structure Owned (w : World) : Prop where
  handler : ∀ u, w.registry.userConnections.get? u ≠ none → ∃ ws, w.handlers.get? ws = some u
  subscriber : ∀ s, ∀ u ∈ w.registry.subscribers s, w.registry.userConnections.get? u ≠ none

section Owned

variable {w w' : World} {ws userId id : Nat}

theorem Owned.openConn (h : Owned w) (hinv : Inv w) (userId : Nat) :
    Owned (({ w with
      handlers := w.handlers.set w.nextWs userId
      registry := w.registry.registerConnection userId w.nextWs
      nextWs := w.nextWs + 1 } : World).did (.opened w.nextWs userId)) := by
  have hkey (u : Nat) : (w.registry.userConnections.add userId w.nextWs).get? u =
      if u = userId then some ((w.registry.userConnections.members userId).insert w.nextWs)
      else w.registry.userConnections.get? u := Dict.get?_set ..
  refine ⟨fun u hu => ?_, fun s u hu => ?_⟩
  · simp only [World.did, Registry.registerConnection, hkey] at hu ⊢
    split at hu
    · next heq => exact ⟨w.nextWs, by rw [Dict.get?_set, if_pos rfl, heq]⟩
    · obtain ⟨ws, hws⟩ := h.handler u hu
      refine ⟨ws, ?_⟩
      have hlt := hinv.fresh ws u (hinv.not_closed hws).1
      rw [Dict.get?_set, if_neg (Nat.ne_of_lt hlt), hws]
  · simp only [World.did, Registry.registerConnection, hkey]
    split
    · simp
    · exact h.subscriber s u hu

/-- What is left of a user in the registry after one of its handlers has ended. -/
theorem unregister_cases (r : Registry) (userId ws : Nat) :
    (∀ u, u ≠ userId → (r.unregisterConnection userId ws).userConnections.get? u =
      r.userConnections.get? u) ∧
    ((r.unregisterConnection userId ws).userConnections.get? userId ≠ none →
      (r.unregisterConnection userId ws).sockets userId ≠ []) ∧
    ∀ s, ∀ u ∈ (r.unregisterConnection userId ws).subscribers s, u ∈ r.subscribers s ∧
      (u = userId → (r.unregisterConnection userId ws).userConnections.get? u = none →
        r.userConnections.get? u = none) := by
  unfold Registry.unregisterConnection
  split
  · next hnone =>
      exact ⟨fun _ _ => rfl, fun hne => absurd hnone hne, fun s u hu => ⟨hu, fun _ h => h⟩⟩
  · refine ⟨fun u hne => ?_, fun hne => ?_, fun s u hu => ?_⟩
    · simp only [Dict.get?_remove, if_neg hne]
    · simp only [Registry.sockets, Dict.members_remove, if_true]
      simp only [Dict.get?_remove, if_true] at hne
      split at hne
      · exact absurd rfl hne
      · assumption
    · simp only [Registry.subscribers] at hu ⊢
      split at hu
      · rw [Dict.members_discardAll, List.mem_filter] at hu
        exact ⟨hu.1, fun heq _ => absurd heq (of_decide_eq_true hu.2)⟩
      · next hsome =>
          refine ⟨hu, ?_⟩
          rintro rfl hnone
          exact absurd (Option.isNone_iff_eq_none.mpr hnone) hsome

theorem Owned.left (h : Owned w) (hinv : Inv w) (hws : w.handlers.get? ws = some userId) :
    Owned (w.left ws userId) := by
  have hleft := hinv.left hws
  obtain ⟨hkeep, hself, hsub⟩ := unregister_cases w.registry userId ws
  refine ⟨fun u hu => ?_, fun s u hu hnone => ?_⟩
  · by_cases heq : u = userId
    · subst heq
      obtain ⟨ws', rest, hsockets⟩ := List.exists_cons_of_ne_nil (hself hu)
      have hreach := (hleft.registered.sockets ws' u).mp (hsockets ▸ List.mem_cons_self)
      exact ⟨ws', (hleft.handlers ws' u).mpr ⟨hreach.opened, hreach.notClosed⟩⟩
    · obtain ⟨ws', hws'⟩ := h.handler u (hkeep u heq ▸ hu)
      refine ⟨ws', ?_⟩
      simp only [World.left, World.did]
      rw [Dict.get?_erase, if_neg, hws']
      rintro rfl
      rw [hws] at hws'
      exact heq (Option.some.inj hws').symm
  · obtain ⟨hmem, hgone⟩ := hsub s u hu
    refine h.subscriber s u hmem ?_
    by_cases heq : u = userId
    · exact hgone heq hnone
    · exact hkeep u heq ▸ hnone

/-- A step that touches neither the registries nor the handlers. -/
theorem Owned.same (h : Owned w) (hregistry : w'.registry = w.registry)
    (hhandlers : w'.handlers = w.handlers) : Owned w' :=
  ⟨fun u hu => hhandlers ▸ h.handler u (hregistry ▸ hu), fun s u hu =>
    hregistry ▸ h.subscriber s u (hregistry ▸ hu)⟩

theorem not_failed_of_any {log : List Event} (h : log.any (isFailed ws) = false) (id : Nat) :
    .failed id ws ∉ log := by
  intro hm
  have hany : log.any (isFailed ws) = true :=
    List.any_eq_true.mpr ⟨_, hm, by simp [isFailed]⟩
  rw [h] at hany
  cases hany

theorem Owned.receive (h : Owned w) (hinv : Inv w) {frame : Json}
    (hok : SubscribesReachable w (.receive ws frame))
    (hs : step w (.receive ws frame) = some w') : Owned w' := by
  simp only [step, Option.map_eq_some_iff] at hs
  obtain ⟨userId, hws, rfl⟩ := hs
  cases hframe : readFrame frame with
  | ping payload => exact h.same rfl rfl
  | subscribe serverId =>
      refine ⟨h.handler, fun s u hu => ?_⟩
      simp only [SubscribesReachable, hframe] at hok
      simp only [World.did, Registry.subscribers, Registry.addGpuSubscriber,
        Dict.mem_members_add] at hu
      rcases hu with hu | ⟨-, rfl⟩
      · exact h.subscriber s u hu
      · obtain ⟨hopened, hclosed⟩ := hinv.not_closed hws
        exact Dict.ne_none_of_mem_members
          ((hinv.registered.sockets ws u).mpr ⟨hopened, hclosed, not_failed_of_any hok⟩)
  | unsubscribe serverId =>
      refine ⟨h.handler, fun s u hu => ?_⟩
      simp only [World.did, Registry.subscribers, Registry.removeGpuSubscriber,
        Dict.mem_members_remove] at hu
      exact h.subscriber s u hu.1
  | other => exact h
  | raises => exact h.left hinv hws

theorem Owned.send (h : Owned w) {ok : Bool} (hs : step w (.send id ok) = some w') : Owned w' := by
  simp only [step, Option.bind_eq_some_iff] at hs
  obtain ⟨p, hp, hs⟩ := hs
  split at hs
  · cases hs
  · next ws rest _ =>
      split at hs
      · exact Option.some.inj hs ▸ h.same rfl rfl
      · obtain rfl := Option.some.inj hs
        exact ⟨fun u hu => h.handler u fun hnone => hu (Dict.get?_discard_eq_none_iff.mpr hnone),
          fun s u hu hnone => h.subscriber s u hu (Dict.get?_discard_eq_none_iff.mp hnone)⟩

theorem owned_step {a : Action} (h : Owned w) (hinv : Inv w) (hok : SubscribesReachable w a)
    (hs : step w a = some w') : Owned w' := by
  cases a with
  | openConn userId => exact Option.some.inj hs ▸ h.openConn hinv userId
  | receive ws frame => exact h.receive hinv hok hs
  | leave ws =>
      simp only [step, Option.map_eq_some_iff] at hs
      obtain ⟨userId, hws, rfl⟩ := hs
      exact h.left hinv hws
  | push userIds frame =>
      simp only [step] at hs
      split at hs
      · exact Option.some.inj hs ▸ h.same rfl rfl
      · cases hs
  | fanOut serverId gpus frameId sampledAt now =>
      simp only [step] at hs
      split at hs <;> exact Option.some.inj hs ▸ h.same rfl rfl
  | next id =>
      simp only [step, Option.bind_eq_some_iff] at hs
      obtain ⟨p, -, hs⟩ := hs
      split at hs
      · exact Option.some.inj hs ▸ h.same rfl rfl
      · exact Option.some.inj hs ▸ h.same rfl rfl
      · cases hs
  | send id ok => exact h.send hs
  | abort id =>
      simp only [step, Option.bind_eq_some_iff] at hs
      obtain ⟨p, -, hs⟩ := hs
      split at hs
      · cases hs
      · exact Option.some.inj hs ▸ h.same rfl rfl
      · exact Option.some.inj hs ▸ h.same rfl rfl

end Owned

/-- **No subscription outlives** the last handler of its user, in every run in which no client
subscribes over a socket to which a send has failed. -/
theorem subscribers_run (as : List Action) (hok : Meets step SubscribesReachable .start as) :
    Along step (fun _ _ w' => ∀ serverId, ∀ u ∈ w'.registry.subscribers serverId,
      ∃ ws, w'.handlers.get? ws = some u) .start as := by
  refine along_of_invariant (I := fun w => Inv w ∧ Owned w) ?_ ⟨inv_start, ?_⟩ hok
  · intro w a w' h hok hs
    have howned := owned_step h.2 h.1 hok hs
    exact ⟨⟨inv_step h.1 hs, howned⟩, fun s u hu =>
      howned.handler u (howned.subscriber s u hu)⟩
  · exact ⟨fun u hu => absurd rfl hu, fun s u hu => (by cases hu)⟩

/-- Two tabs of one user, of which one goes. -/
def twoTabs : List Action :=
  [.openConn 7, .openConn 7, .receive 0 (.obj [("type", .str "subscribe"),
    ("payload", .obj [("server_id", .num 1)])]), .fanOut 1 [] "f" "now" 5000000, .next 0,
    .send 0 false, .leave 0, .send 0 true, .next 0, .leave 1]

theorem subscribers_run_twoTabs : Along step (fun _ _ w' => ∀ serverId,
    ∀ u ∈ w'.registry.subscribers serverId, ∃ ws, w'.handlers.get? ws = some u) .start twoTabs :=
  subscribers_run twoTabs (by decide +kernel)

end WsUser

end CoreLab
