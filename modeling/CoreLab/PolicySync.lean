import CoreLab.AgentPolicyService
import CoreLab.AgentRpc
import CoreLab.CacheSync

/-!
# CoreLab.PolicySync

The policies and the capabilities of a server, and the agent's copies of both.
An update commits, then a sync is composed and sent; composing and sending are
steps of their own, and the frames of one socket arrive in order.

* `inStep_step` — the copies stay in step as long as no commit comes between the
  composing and the sending of a sync that is the last of its kind;
* `converged_run` — in such a run an agent with nothing under way holds the committed
  rows of its server;
* `not_converged` — two updaters, of which the first sends last, leave it behind.
-/

namespace CoreLab

open Schema Transition Replication
open AgentHost (Agent Host PolicyEntry)
open AgentWs (isServerApproved)

namespace PolicySync

/-! ## sync frames -/

/-- The two syncs. -/
inductive Kind where
  | policy | capability
deriving DecidableEq, Repr

/-- A statement about both kinds can be decided. -/
instance {p : Kind → Prop} [DecidablePred p] : Decidable (∀ kind, p kind) :=
  decidable_of_iff (p .policy ∧ p .capability)
    ⟨fun h kind => by cases kind with | policy => exact h.1 | capability => exact h.2,
      fun h => ⟨h _, h _⟩⟩

/-- A sync frame, before it is dumped. -/
inductive SyncFrame where
  | policy (entries : List (AgentPolicyKey × AgentPolicy)) (etag : String)
  | capability (entries : List (String × Bool))
deriving DecidableEq, Repr

def SyncFrame.kind : SyncFrame → Kind
  | policy .. => .policy
  | capability _ => .capability

/-- One entry of a policy sync. -/
def policyEntry (policyKey : AgentPolicyKey) (row : AgentPolicy) : PolicyEntry where
  key := policyKey.text
  enabled := row.enabled
  severity := row.severity.text
  thresholdValue := row.thresholdValue.map fun t => .obj t.fields
  gracePeriodSeconds := row.gracePeriodSeconds.map Int.ofNat
  notifyAdmin := row.notifyAdmin

/-- What the agent receives. -/
def SyncFrame.request (serverId : Nat) : SyncFrame → AgentRpc.Request
  | policy entries etag => .policySync serverId (entries.map fun e => policyEntry e.1 e.2) etag
  | capability entries => .capabilitySync entries

/-- `json.dumps` of a threshold, with sorted keys. -/
def thresholdText : Option Threshold → String
  | none => "null"
  | some (.pct value) => "\x7b\"unit\": \"pct\", \"value\": " ++ toString value ++ "\x7d"
  | some (.gpuHang utilZeroSeconds memFloorMb) => "\x7b\"mem_floor_mb\": " ++ toString memFloorMb ++
      ", \"util_zero_seconds\": " ++ toString utilZeroSeconds ++ "\x7d"
  | some (.celsius value) => "\x7b\"unit\": \"celsius\", \"value\": " ++ toString value ++ "\x7d"

/-- A flag, as a format string shows it. -/
def flagText (b : Bool) : String := if b then "True" else "False"

/-- `_compute_etag`, of entries in the order of their keys; the agent never reads it. -/
def computeEtag (sha256 : String → String) (entries : List (AgentPolicyKey × AgentPolicy)) : String :=
  let line (e : AgentPolicyKey × AgentPolicy) : String := String.intercalate ":"
    [e.1.text, flagText e.2.enabled, e.2.severity.text, thresholdText e.2.thresholdValue,
     e.2.gracePeriodSeconds.elim "None" toString, flagText e.2.notifyAdmin]
  "policy-" ++ String.ofList ((sha256 (String.intercalate "|" (entries.map line))).toList.take 16)

/-! ## a server and its agent -/

/-- What a request or a connection handler has still to do.  The flag `behind` is history
that no step reads: another commit has replaced what the job goes on with. -/
inductive Job where
  /-- A policy endpoint that has flushed: `session.commit`. -/
  | savePolicy (writes : List PolicyWrite)
  /-- The capability endpoint that has flushed: `session.commit`. -/
  | saveCapability (capabilityKey : String) (enabled : Bool) (column : Option Bool) (behind : Bool)
  /-- `_push_agent_context_after_approval`. -/
  | pushContext
  /-- `compose_payload` of the policies, of `send_on_connect` or of a push. -/
  | composePolicy (onConnect : Bool)
  /-- `compose_payload` of the capabilities.  The session of a flip still holds the row that
  it wrote, and reads it from there. -/
  | composeCapability (held : Option (String × Bool)) (behind : Bool)
  | send (frame : SyncFrame) (behind : Bool)
deriving DecidableEq, Repr

/-- Whether the job has a sync of the kind still to send, its own commit apart. -/
def Job.Syncs (kind : Kind) : Job → Bool
  | savePolicy _ | saveCapability .. => false
  | pushContext => true
  | composePolicy _ => kind = .policy
  | composeCapability .. => kind = .capability
  | send frame _ => kind = frame.kind

def Job.behind : Job → Bool
  | savePolicy _ | pushContext | composePolicy _ => false
  | saveCapability _ _ _ behind | composeCapability _ behind | send _ behind => behind

/-- What a commit replaces. -/
inductive Commit where
  | policies
  | capability (key : String)
deriving DecidableEq, Repr

def Commit.kind : Commit → Kind
  | policies => .policy
  | capability _ => .capability

/-- The job after the commit of another one.  A flip that found its row as it wants it
writes no column, and goes on with the row as it was. -/
def Job.afterCommit (c : Commit) : Job → Job
  | saveCapability key enabled none behind =>
    saveCapability key enabled none (behind || c = .capability key)
  | composeCapability (some (key, enabled)) behind =>
    composeCapability (some (key, enabled)) (behind || c = .capability key)
  | send frame behind => send frame (behind || frame.kind = c.kind)
  | job => job

/-- A server's rows, the socket to its agent, the jobs that concern it, and the agent. -/
structure Site where
  policies : Dict AgentPolicyKey AgentPolicy
  capabilities : Dict String AgentCapability
  /-- The frames in flight, oldest first; `none` without a connection. -/
  socket : Option (List SyncFrame)
  /-- Connections that were registered and whose handler has not run yet. -/
  opening : Nat
  jobs : List Job
  agent : Agent

/-- The keys, in the order of `order_by(AgentPolicy.policy_key)`. -/
def sortedPolicyKeys : List AgentPolicyKey :=
  [.gpuHang, .gpuTempHigh, .memoryOveruse, .noReservationOccupy, .preemptOthersReservation,
   .scriptOverrunGrace, .unlinkedUserOccupy, .zombieProcess]

namespace Site

variable (s : Site)

/-- The entries of `policy_sync_service.compose_payload`. -/
def policyEntries : List (AgentPolicyKey × AgentPolicy) :=
  sortedPolicyKeys.filterMap fun key => (s.policies.get? key).map fun row => (key, row)

/-- The entries of `capability_sync_service.compose_payload`, in a session that holds a row. -/
def capabilityEntries (held : Option (String × Bool)) : List (String × Bool) :=
  s.capabilities.entries.map fun e =>
    (e.1, match held with
      | some (key, enabled) => if key = e.1 then enabled else e.2.isEnabled
      | none => e.2.isEnabled)

/-- The frame that a job composes; a connect-time sync, and one of the capabilities, that
has no entries is not sent. -/
def composed (sha256 : String → String) : Job → Option (Option SyncFrame)
  | .composePolicy onConnect =>
    if onConnect ∧ s.policyEntries = [] then some none
    else some (some (.policy s.policyEntries (computeEtag sha256 s.policyEntries)))
  | .composeCapability held _ =>
    if s.capabilityEntries held = [] then some none
    else some (some (.capability (s.capabilityEntries held)))
  | _ => none

/-- A job ends, and leaves others to do. -/
def replaceJob (i : Nat) (jobs : List Job) : Site := { s with jobs := s.jobs.eraseIdx i ++ jobs }

/-- The jobs, as a commit leaves them. -/
def afterCommit (c : Commit) : Site := { s with jobs := s.jobs.map (Job.afterCommit c) }

/-- The commit of an endpoint; `none` if the store refuses a statement. -/
def commit (i : Nat) : Job → Option Site
  | .savePolicy writes => (runWrites s.policies writes).map fun policies =>
      { (s.afterCommit .policies).replaceJob i [.composePolicy false] with policies := policies }
  | .saveCapability capabilityKey enabled column behind =>
    (s.capabilities.get? capabilityKey).map fun cap =>
      { (s.afterCommit (.capability capabilityKey)).replaceJob i
          [.composeCapability (some (capabilityKey, enabled)) behind] with
        capabilities := s.capabilities.set capabilityKey
          { cap with isEnabled := column.getD cap.isEnabled } }
  | _ => none

/-- The rollback of an endpoint. -/
def rollBack (i : Nat) : Job → Option Site
  | .savePolicy _ | .saveCapability .. => some (s.replaceJob i [])
  | _ => none

/-- The syncs of a new connection, and of an approval. -/
def contextJobs : List Job := [.composeCapability none false, .composePolicy true]

/-- The agent's handler takes the oldest frame in flight. -/
def deliver (h : Host) (serverId : Nat) : Option Site :=
  match s.socket with
  | some (frame :: frames) =>
    match AgentRpc.invokeHandler s.agent h (frame.request serverId) with
    | .ok (agent, _) => some { s with socket := some frames, agent := agent }
    | .error _ => some { s with socket := none }
  | _ => none

end Site

/-! ## the system -/

structure World where
  /-- Of which the syncs read the approval of the servers. -/
  db : Db
  sites : Nat → Site

def World.approved (w : World) (serverId : Nat) : Bool := isServerApproved w.db serverId

def World.setSite (w : World) (serverId : Nat) (s : Site) : World :=
  { w with sites := Function.update w.sites serverId s }

inductive Action where
  /-- The endpoints, up to the flush of their writes. -/
  | updatePolicy (serverId : Nat) (policyKey : String) (body : PolicyUpdateRequest)
  | switchProfile (serverId : Nat) (profile : ProfileName)
  | updateCapability (serverId : Nat) (capabilityKey : String) (enabled : Bool) (notes : Option String)
  /-- Of the `i`-th job. -/
  | commit (serverId i : Nat)
  | rollBack (serverId i : Nat)
  | approveServer (serverId labId : Nat) (hasAgentToken : Bool) (actorUserId : Nat) (now : Time)
  | pushContext (serverId i : Nat)
  /-- `agent_ws` accepts the socket and registers it. -/
  | connect (serverId : Nat)
  /-- `mark_heartbeat` of a registered connection. -/
  | handshake (serverId : Nat)
  | compose (serverId i : Nat)
  /-- The job raises before its frame is sent. -/
  | syncFailed (serverId i : Nat)
  /-- Over the connection of the pool, if there is one. -/
  | send (serverId i : Nat)
  | deliver (serverId : Nat)
  | disconnect (serverId : Nat)
  /-- The agent's process starts anew. -/
  | restart (serverId : Nat)

/-- The readers of JSON and the hash of the backend, and the host of the agents. -/
structure Env where
  scalars : Scalars
  sha256 : String → String
  host : Host

/-- Take the `i`-th job of a server further. -/
def World.job (w : World) (serverId i : Nat) (next : Site → Job → Option Site) : Option World :=
  ((w.sites serverId).jobs[i]?.bind (next (w.sites serverId))).map (w.setSite serverId)

def World.enqueue (w : World) (serverId : Nat) (job : Job) : World :=
  w.setSite serverId { w.sites serverId with jobs := (w.sites serverId).jobs ++ [job] }

/-- A request that was refused writes nothing. -/
def World.request {ε : Type} (w : World) (serverId : Nat) : Except ε Job → World
  | .error _ => w
  | .ok job => w.enqueue serverId job

/-- One step. -/
def step (env : Env) (w : World) : Action → Option World
  | .updatePolicy serverId policyKey body =>
    some <| w.request serverId <|
      (updateOne env.scalars (w.sites serverId).policies policyKey body).map fun write =>
        .savePolicy [write]
  | .switchProfile serverId profile =>
    let rows := (w.sites serverId).policies
    some <| w.enqueue serverId <| .savePolicy <|
      if rows.entries = [] then seedDefaultProfile rows profile
      else CoreLab.switchProfile rows profile
  | .updateCapability serverId capabilityKey enabled notes =>
    some <| w.request serverId <|
      (CoreLab.updateCapability (w.sites serverId).capabilities serverId capabilityKey enabled notes).map
        fun column => .saveCapability capabilityKey enabled column false
  | .commit serverId i => w.job serverId i fun s => s.commit i
  | .rollBack serverId i => w.job serverId i fun s => s.rollBack i
  | .approveServer serverId labId hasAgentToken actorUserId now =>
    match CoreLab.approveServer w.db serverId labId hasAgentToken actorUserId now with
    | .error _ => some w
    | .ok db => some <| { w with db := db }.enqueue serverId .pushContext
  | .pushContext serverId i => w.job serverId i fun s job =>
      if job = .pushContext then
        some (s.replaceJob i (if s.socket.isSome then Site.contextJobs else []))
      else none
  | .connect serverId =>
    -- `authenticate_agent` knows active servers only
    if (w.db.servers.get? serverId).any (·.isActive) then
      some <| w.setSite serverId
        { w.sites serverId with socket := some [], opening := (w.sites serverId).opening + 1 }
    else none
  | .handshake serverId =>
    let s := w.sites serverId
    if s.opening = 0 then none
    else some <| w.setSite serverId
      { s with
        opening := s.opening - 1
        jobs := s.jobs ++ if w.approved serverId then Site.contextJobs else [] }
  | .compose serverId i => w.job serverId i fun s job =>
      (s.composed env.sha256 job).map fun frame =>
        s.replaceJob i (frame.toList.map (Job.send · job.behind))
  | .syncFailed serverId i => w.job serverId i fun s job =>
      if job.Syncs .policy ∨ job.Syncs .capability then some (s.replaceJob i []) else none
  | .send serverId i => w.job serverId i fun s job =>
      match job with
      | .send frame _ => some { s.replaceJob i [] with socket := s.socket.map (· ++ [frame]) }
      | _ => none
  | .deliver serverId => ((w.sites serverId).deliver env.host serverId).map (w.setSite serverId)
  | .disconnect serverId => some <| w.setSite serverId { w.sites serverId with socket := none }
  | .restart serverId =>
    let s := w.sites serverId
    some <| w.setSite serverId
      { s with socket := none, agent := { s.agent with policies := .empty, capabilities := .empty } }

/-! ## the property -/

namespace Site

variable (serverId : Nat) (approved : Bool) (kind : Kind) (s : Site)

/-- The entry of a policy, by its text. -/
def policyOf? (key : String) : Option PolicyEntry :=
  (AgentPolicyKey.parse? key).bind fun k => (s.policies.get? k).map (policyEntry k)

/-- The agent's copy of the rows of a kind is the rows. -/
def Holds (a : Agent) : Kind → Prop
  | .policy => ∀ key, a.policies.get? ((serverId : Int), key) = s.policyOf? key
  | .capability => ∀ key, a.capabilities.get? key = (s.capabilities.get? key).map (·.isEnabled)

/-- The server is approved and its agent connected, and no sync of the kind is still to be
composed or sent. -/
def Settled : Prop :=
  approved = true ∧ s.socket.isSome ∧ s.opening = 0 ∧ ∀ job ∈ s.jobs, job.Syncs kind = false

instance : Decidable (s.Settled approved kind) := inferInstanceAs (Decidable (_ ∧ _))

/-- An approved server with a connected agent and nothing under way. -/
def Quiet : Prop := approved = true ∧ s.socket = some [] ∧ s.opening = 0 ∧ s.jobs = []

end Site

/-- Every quiet agent holds the rows of its server. -/
def AllSynced (w : World) : Prop :=
  ∀ serverId, (w.sites serverId).Quiet (w.approved serverId) →
    ∀ kind, (w.sites serverId).Holds serverId (w.sites serverId).agent kind

/-- A sync that is behind is not the last one of its kind to be sent, and the last one does
not fail. -/
def Orderly (w : World) : Action → Prop
  | .send serverId i => ∀ job ∈ (w.sites serverId).jobs[i]?, job.behind = true →
      ∀ kind, job.Syncs kind = true →
        ¬ ((w.sites serverId).replaceJob i []).Settled (w.approved serverId) kind
  | .syncFailed serverId i => ∀ job ∈ (w.sites serverId).jobs[i]?, ∀ kind, job.Syncs kind = true →
      ¬ ((w.sites serverId).replaceJob i []).Settled (w.approved serverId) kind
  | _ => True

instance (w : World) : DecidablePred (Orderly w)
  | .send serverId i => inferInstanceAs
      (Decidable (∀ job ∈ (w.sites serverId).jobs[i]?, job.behind = true →
        ∀ kind, job.Syncs kind = true →
          ¬ ((w.sites serverId).replaceJob i []).Settled (w.approved serverId) kind))
  | .syncFailed serverId i => inferInstanceAs
      (Decidable (∀ job ∈ (w.sites serverId).jobs[i]?, ∀ kind, job.Syncs kind = true →
        ¬ ((w.sites serverId).replaceJob i []).Settled (w.approved serverId) kind))
  | .updatePolicy .. | .switchProfile .. | .updateCapability .. | .commit .. | .rollBack ..
  | .approveServer .. | .pushContext .. | .connect _ | .handshake _ | .compose .. | .deliver _
  | .disconnect _ | .restart _ => .isTrue True.intro

/-! ## what a frame leaves in the agent -/

namespace SyncFrame

/-- The agent after its handler. -/
def applyTo (serverId : Nat) (a : Agent) : SyncFrame → Agent
  | policy entries _ =>
    AgentRpc.applyPolicies a serverId (entries.map fun e => policyEntry e.1 e.2)
  | capability entries => { a with
      capabilities := entries.foldl (fun d e => d.set e.1 e.2) a.capabilities }

theorem invokeHandler_request (a : Agent) (h : Host) (serverId : Nat) (frame : SyncFrame) :
    (AgentRpc.invokeHandler a h (frame.request serverId)).map Prod.fst =
      .ok (frame.applyTo serverId a) := by
  cases frame <;> rfl

end SyncFrame

theorem deliver_eq_some {s s' : Site} {h : Host} {serverId : Nat}
    (hs : s.deliver h serverId = some s') : ∃ frame frames, s.socket = some (frame :: frames) ∧
      s' = { s with socket := some frames, agent := frame.applyTo serverId s.agent } := by
  unfold Site.deliver at hs
  split at hs
  · next frame frames hsocket =>
      refine ⟨frame, frames, hsocket, ?_⟩
      have hhandler := SyncFrame.invokeHandler_request s.agent h serverId frame
      cases hresult : AgentRpc.invokeHandler s.agent h (frame.request serverId) with
      | error e =>
          rw [hresult] at hhandler
          cases hhandler
      | ok result =>
          obtain ⟨agent, rest⟩ := result
          rw [hresult] at hhandler hs
          obtain rfl : agent = frame.applyTo serverId s.agent := Except.ok.inj hhandler
          exact (Option.some.inj hs).symm
  · cases hs

section Applied

variable {serverId : Nat} {a : Agent} {s : Site}

theorem mem_policyEntries {e : AgentPolicyKey × AgentPolicy} :
    e ∈ s.policyEntries ↔ s.policies.get? e.1 = some e.2 := by
  have hsorted : e.1 ∈ sortedPolicyKeys := by
    cases e.1 <;> decide
  rw [Site.policyEntries, List.mem_filterMap]
  constructor
  · rintro ⟨key, -, hkey⟩
    obtain ⟨row, hrow, rfl⟩ := Option.map_eq_some_iff.mp hkey
    exact hrow
  · intro hrow
    exact ⟨e.1, hsorted, Option.map_eq_some_iff.mpr ⟨e.2, hrow, rfl⟩⟩

/-- What a policy sync does not name is gone. -/
theorem policies_applyTo_of_ne {entries : List (AgentPolicyKey × AgentPolicy)} {etag key : String}
    (h : ∀ e ∈ entries, e.1.text ≠ key) :
    ((SyncFrame.policy entries etag).applyTo serverId a).policies.get? ((serverId : Int), key) =
      none := by
  refine (Dict.get?_foldl_set_of_ne fun p hp hkey => ?_).trans (Dict.get?_dropKeys (by simp))
  obtain ⟨e, he, rfl⟩ := List.mem_map.mp hp
  exact h e he (Prod.ext_iff.mp hkey).2

theorem holds_policy_applyTo (etag : String) :
    s.Holds serverId ((SyncFrame.policy s.policyEntries etag).applyTo serverId a) .policy := by
  intro key
  cases hentry : s.policyOf? key with
  | none =>
      refine policies_applyTo_of_ne fun e he hkey => ?_
      rw [← hkey, Site.policyOf?, AgentPolicyKey.parse?_text, Option.bind_some,
        mem_policyEntries.mp he] at hentry
      cases hentry
  | some entry =>
      obtain ⟨k, hk, hrows⟩ := Option.bind_eq_some_iff.mp hentry
      obtain ⟨row, hrow, rfl⟩ := Option.map_eq_some_iff.mp hrows
      have htext : k.text = key := AgentPolicyKey.text_of_parse? hk
      refine Dict.get?_foldl_set ?_ ?_
      · exact ⟨policyEntry k row, List.mem_map.mpr ⟨(k, row), mem_policyEntries.mpr hrow, rfl⟩,
          Prod.ext rfl htext⟩
      · intro p hp hkey
        obtain ⟨e, he, rfl⟩ := List.mem_map.mp hp
        have hsame : e.1 = k := by
          have hparse := AgentPolicyKey.parse?_text e.1
          rw [show e.1.text = key from (Prod.ext_iff.mp hkey).2, hk] at hparse
          exact (Option.some.inj hparse).symm
        have hrow' := mem_policyEntries.mp he
        rw [hsame, hrow] at hrow'
        rw [hsame, ← Option.some.inj hrow']

theorem capabilities_applyTo (entries : List (String × Bool)) (key : String) :
    ((SyncFrame.capability entries).applyTo serverId a).capabilities.get? key =
      ((entries.filter fun e => e.1 = key).getLast?.map Prod.snd).or (a.capabilities.get? key) :=
  Dict.get?_foldl_set_pairs entries a.capabilities key

theorem holds_capability_applyTo
    (hknown : ∀ key, (a.capabilities.get? key).isSome → (s.capabilities.get? key).isSome) :
    s.Holds serverId ((SyncFrame.capability (s.capabilityEntries none)).applyTo serverId a)
      .capability := by
  intro key
  cases hcap : s.capabilities.get? key with
  | none =>
      have hnone : a.capabilities.get? key = none := by
        rw [← Option.not_isSome_iff_eq_none]
        intro hsome
        have := hknown key hsome
        rw [hcap] at this
        cases this
      refine (Dict.get?_foldl_set_of_ne fun e he hkey => ?_).trans hnone
      obtain ⟨row, hrow, rfl⟩ := List.mem_map.mp he
      exact Dict.get?_eq_none_iff.mp hcap row hrow hkey
  | some cap =>
      refine Dict.get?_foldl_set ?_ ?_
      · exact ⟨(key, cap.isEnabled), List.mem_map.mpr
          ⟨(key, cap), Dict.get?_eq_some_iff.mp hcap, rfl⟩, rfl⟩
      · intro e he hkey
        obtain ⟨row, hrow, rfl⟩ := List.mem_map.mp he
        have heq : row = (key, cap) :=
          Dict.eq_of_fst_eq hrow (Dict.get?_eq_some_iff.mp hcap) hkey
        rw [heq]

end Applied

/-! ## the invariant -/

namespace Site

/-- The frame shows the rows. -/
def Shows (s : Site) : SyncFrame → Prop
  | .policy entries _ => entries = s.policyEntries
  | .capability entries => entries = s.capabilityEntries none

/-- The job goes on with the rows as they are. -/
def Reads (s : Site) : Job → Prop
  | .saveCapability key enabled column _ =>
    ∀ cap, s.capabilities.get? key = some cap → column.getD cap.isEnabled = enabled
  | .composeCapability (some (key, enabled)) _ =>
    ∀ cap, s.capabilities.get? key = some cap → cap.isEnabled = enabled
  | .send frame _ => s.Shows frame
  | .savePolicy _ | .pushContext | .composePolicy _ | .composeCapability none _ => True

/-- The frame lists keys of the rows only. -/
def Lists (s : Site) : SyncFrame → Prop
  | .policy entries _ => ∀ e ∈ entries, (s.policies.get? e.1).isSome
  | .capability entries => ∀ e ∈ entries, (s.capabilities.get? e.1).isSome

/-- Whatever the agent holds or will receive is about rows that the server has. -/
structure Known (serverId : Nat) (s : Site) : Prop where
  jobs : ∀ frame behind, .send frame behind ∈ s.jobs → s.Lists frame
  socket : ∀ frames ∈ s.socket, ∀ frame ∈ frames, s.Lists frame
  policies : ∀ key, (s.agent.policies.get? ((serverId : Int), key)).isSome →
    (s.policyOf? key).isSome
  capabilities : ∀ key, (s.agent.capabilities.get? key).isSome → (s.capabilities.get? key).isSome

/-- Where no sync of the kind is still to come, the last one in flight shows the rows, or
the agent holds them. -/
def InStep (serverId : Nat) (approved : Bool) (kind : Kind) (s : Site) : Prop :=
  s.Settled approved kind → ∀ frames ∈ s.socket,
    Replica.Latest s.Shows (fun a => s.Holds serverId a kind) (frames.filter fun f => f.kind = kind) s.agent

section

variable {serverId i : Nat} {approved : Bool} {kind : Kind} {s s' : Site} {job : Job}
  {new : List Job} {frame : SyncFrame}

theorem inStep_of_not_settled (h : ¬ s.Settled approved kind) : s.InStep serverId approved kind :=
  fun hsettled => absurd hsettled h

/-- A sync of the kind is still to come. -/
theorem inStep_of_syncs (hjob : job ∈ s.jobs) (hsyncs : job.Syncs kind = true) :
    s.InStep serverId approved kind :=
  inStep_of_not_settled fun hsettled => by
    rw [hsettled.2.2.2 job hjob] at hsyncs
    cases hsyncs

theorem inStep_of_offline (h : s.socket = none) : s.InStep serverId approved kind :=
  inStep_of_not_settled fun hsettled => by
    have hsocket := hsettled.2.1
    rw [h] at hsocket
    cases hsocket

/-- A step that settles nothing and moves neither the rows of the kind nor the agent. -/
theorem InStep.mono {approved' : Bool} (h : s.InStep serverId approved kind)
    (hsettled : s'.Settled approved' kind → s.Settled approved kind) (hsocket : s'.socket = s.socket)
    (hshows : ∀ frame, frame.kind = kind → s.Shows frame → s'.Shows frame)
    (hholds : s.Holds serverId s.agent kind → s'.Holds serverId s'.agent kind) :
    s'.InStep serverId approved' kind := by
  intro hs' frames hframes
  refine (h (hsettled hs') frames (hsocket ▸ hframes)).mono (fun frame hframe => ?_) hholds
  exact hshows frame (by simpa using (List.mem_filter.mp hframe).2)

/-- The policies move, the capabilities do not. -/
theorem Known.grow (h : Known serverId s) (hjobs : s'.jobs = s.jobs) (hsocket : s'.socket = s.socket)
    (hagent : s'.agent = s.agent)
    (hpolicies : ∀ key, (s.policies.get? key).isSome → (s'.policies.get? key).isSome)
    (hcapabilities : ∀ key, (s.capabilities.get? key).isSome → (s'.capabilities.get? key).isSome) :
    Known serverId s' := by
  have hlists : ∀ frame, s.Lists frame → s'.Lists frame := by
    intro frame hframe
    cases frame with
    | policy entries etag => exact fun e he => hpolicies e.1 (hframe e he)
    | capability entries => exact fun e he => hcapabilities e.1 (hframe e he)
  refine ⟨fun frame behind hframe => ?_, fun frames hframes frame hframe => ?_, fun key hkey => ?_,
    fun key hkey => ?_⟩
  · exact hlists frame (h.jobs frame behind (hjobs ▸ hframe))
  · exact hlists frame (h.socket frames (hsocket ▸ hframes) frame hframe)
  · have hentry := h.policies key (hagent ▸ hkey)
    rw [policyOf?, Option.isSome_bind, Option.any_eq_true] at hentry ⊢
    obtain ⟨k, hk, hrow⟩ := hentry
    refine ⟨k, hk, ?_⟩
    rw [Option.isSome_map] at hrow ⊢
    exact hpolicies k hrow
  · exact hcapabilities key (h.capabilities key (hagent ▸ hkey))

/-! ### jobs -/

theorem mem_or_mem_eraseIdx {jobs : List Job} {j : Job} (hjob : jobs[i]? = some job) (hj : j ∈ jobs) :
    j = job ∨ j ∈ jobs.eraseIdx i := by
  obtain ⟨hi, rfl⟩ := List.getElem?_eq_some_iff.mp hjob
  have hperm := (List.getElem_cons_eraseIdx_perm hi).mem_iff (a := j)
  exact List.mem_cons.mp (hperm.mpr hj)

theorem settled_of_replaceJob (hjob : s.jobs[i]? = some job) (hsyncs : job.Syncs kind = false)
    (h : (s.replaceJob i new).Settled approved kind) : s.Settled approved kind := by
  refine ⟨h.1, h.2.1, h.2.2.1, fun j hj => ?_⟩
  rcases mem_or_mem_eraseIdx hjob hj with rfl | hrest
  · exact hsyncs
  · exact h.2.2.2 j (List.mem_append_left _ hrest)

theorem Known.replaceJob (h : Known serverId s)
    (hnew : ∀ frame behind, .send frame behind ∈ new → s.Lists frame) :
    Known serverId (s.replaceJob i new) := by
  refine ⟨fun frame behind hframe => ?_, h.socket, h.policies, h.capabilities⟩
  rcases List.mem_append.mp hframe with hold | hframe
  · exact h.jobs frame behind (List.mem_of_mem_eraseIdx hold)
  · exact hnew frame behind hframe

/-- A job that ends and was no sync of the kind. -/
theorem InStep.replaceJob (h : s.InStep serverId approved kind) (hjob : s.jobs[i]? = some job)
    (hsyncs : job.Syncs kind = false) : (s.replaceJob i new).InStep serverId approved kind :=
  h.mono (settled_of_replaceJob hjob hsyncs) rfl (fun _ _ hshows => hshows) fun hholds => hholds

theorem Reads.congr (h : s.Reads job) (hpolicies : s'.policies = s.policies)
    (hcapabilities : s'.capabilities = s.capabilities) : s'.Reads job := by
  cases job with
  | savePolicy writes | pushContext | composePolicy onConnect => trivial
  | saveCapability key enabled column behind => simpa only [Reads, hcapabilities] using h
  | composeCapability held behind =>
      cases held with
      | none => trivial
      | some held => simpa only [Reads, hcapabilities] using h
  | send f behind =>
      cases f with
      | policy entries etag => simpa only [Reads, Shows, policyEntries, hpolicies] using h
      | capability entries => simpa only [Reads, Shows, capabilityEntries, hcapabilities] using h

/-! ### commits -/

@[simp] theorem syncs_afterCommit (c : Commit) (job : Job) (kind : Kind) :
    (job.afterCommit c).Syncs kind = job.Syncs kind := by
  unfold Job.afterCommit
  split <;> rfl

theorem send_of_afterCommit {c : Commit} {behind : Bool} (h : job.afterCommit c = .send frame behind) :
    ∃ earlier, job = .send frame earlier := by
  unfold Job.afterCommit at h
  split at h
  · cases h
  · cases h
  · next f earlier =>
      obtain ⟨rfl, -⟩ := Job.send.inj h
      exact ⟨earlier, rfl⟩
  · exact ⟨behind, h⟩

theorem Known.afterCommit (h : Known serverId s) (c : Commit) : Known serverId (s.afterCommit c) := by
  refine ⟨fun frame behind hframe => ?_, h.socket, h.policies, h.capabilities⟩
  obtain ⟨job, hjob, hsame⟩ := List.mem_map.mp hframe
  obtain ⟨earlier, rfl⟩ := send_of_afterCommit hsame
  exact h.jobs frame earlier hjob

theorem settled_of_afterCommit {c : Commit} (h : (s.afterCommit c).Settled approved kind) :
    s.Settled approved kind := by
  refine ⟨h.1, h.2.1, h.2.2.1, fun job hjob => ?_⟩
  rw [← syncs_afterCommit c]
  exact h.2.2.2 _ (List.mem_map_of_mem hjob)

/-- A job that a commit does not leave behind goes on with the rows after it. -/
theorem reads_afterCommit {c : Commit} (h : job.behind = false → s.Reads job)
    (hrow : ∀ key, c ≠ .capability key → s'.capabilities.get? key = s.capabilities.get? key)
    (hkeys : ∀ key, (s'.capabilities.get? key).isSome → (s.capabilities.get? key).isSome)
    (hshows : ∀ f, f.kind ≠ c.kind → s.Shows f → s'.Shows f)
    (hbehind : (job.afterCommit c).behind = false) : s'.Reads (job.afterCommit c) := by
  cases job with
  | savePolicy writes | pushContext | composePolicy onConnect => trivial
  | saveCapability key enabled column behind =>
      cases column with
      | none =>
          simp only [Job.afterCommit, Job.behind, Bool.or_eq_false_iff, decide_eq_false_iff_not] at hbehind
          intro cap hcap
          exact h hbehind.1 cap (hrow key hbehind.2 ▸ hcap)
      | some value =>
          intro cap hcap
          obtain ⟨before, hbefore⟩ := Option.isSome_iff_exists.mp (hkeys key (by rw [hcap]; rfl))
          exact h hbehind before hbefore
  | composeCapability held behind =>
      cases held with
      | none => trivial
      | some held =>
          simp only [Job.afterCommit, Job.behind, Bool.or_eq_false_iff, decide_eq_false_iff_not] at hbehind
          intro cap hcap
          exact h hbehind.1 cap (hrow held.1 hbehind.2 ▸ hcap)
  | send f behind =>
      simp only [Job.afterCommit, Job.behind, Bool.or_eq_false_iff, decide_eq_false_iff_not] at hbehind
      exact hshows f hbehind.2 (h hbehind.1)

/-! ### steps of a server and its agent -/

/-- What is known of one server and its agent. -/
structure Coherent (serverId : Nat) (approved : Bool) (s : Site) : Prop where
  known : Known serverId s
  reads : ∀ job ∈ s.jobs, job.behind = false → s.Reads job
  inStep : ∀ kind, s.InStep serverId approved kind

/-- The jobs that are left, and new ones. -/
theorem Coherent.reads_replaceJob (h : Coherent serverId approved s)
    (hnew : ∀ job ∈ new, job.behind = false → s.Reads job) :
    ∀ job ∈ (s.replaceJob i new).jobs, job.behind = false → (s.replaceJob i new).Reads job := by
  intro job hjob
  rcases List.mem_append.mp hjob with hold | hjob
  · exact h.reads job (List.mem_of_mem_eraseIdx hold)
  · exact hnew job hjob

theorem coherent_savePolicy {writes : List PolicyWrite} (h : Coherent serverId approved s)
    (hjob : s.jobs[i]? = some (.savePolicy writes)) (hs : s.commit i (.savePolicy writes) = some s') :
    Coherent serverId approved s' := by
  obtain ⟨policies, hrun, rfl⟩ := Option.map_eq_some_iff.mp hs
  refine ⟨((h.known.afterCommit .policies).replaceJob (by simp)).grow rfl rfl rfl
    (fun key => runWrites_keys hrun) (fun _ hkey => hkey), fun job hmem => ?_, fun kind => ?_⟩
  · rcases List.mem_append.mp hmem with hold | hnew
    · obtain ⟨earlier, hearlier, rfl⟩ := List.mem_map.mp (List.mem_of_mem_eraseIdx hold)
      refine reads_afterCommit (h.reads earlier hearlier) (fun _ _ => rfl) (fun _ hkey => hkey) ?_
      intro f hf hshows
      cases f with
      | policy entries etag => exact absurd rfl hf
      | capability entries => exact hshows
    · rw [List.mem_singleton.mp hnew]
      exact fun _ => trivial
  · cases kind with
    | policy => exact inStep_of_syncs (List.mem_append_right _ List.mem_cons_self) rfl
    | capability =>
        have hmarked : (s.afterCommit .policies).jobs[i]? = some (.savePolicy writes) := by
          rw [Site.afterCommit, List.getElem?_map, hjob]
          rfl
        refine (h.inStep .capability).mono
          (fun hsettled => settled_of_afterCommit (settled_of_replaceJob hmarked rfl hsettled)) rfl
          (fun frame hframe hshows => ?_) fun hholds => hholds
        cases frame with
        | policy entries etag => cases hframe
        | capability entries => exact hshows

theorem coherent_saveCapability {key : String} {enabled behind : Bool} {column : Option Bool}
    (h : Coherent serverId approved s) (hjob : s.jobs[i]? = some (.saveCapability key enabled column behind))
    (hs : s.commit i (.saveCapability key enabled column behind) = some s') :
    Coherent serverId approved s' := by
  obtain ⟨cap, hcap, rfl⟩ := Option.map_eq_some_iff.mp hs
  have hget : ∀ k row, (s.capabilities.set key row).get? k =
      if k = key then some row else s.capabilities.get? k := fun k row => Dict.get?_set ..
  refine ⟨((h.known.afterCommit (.capability key)).replaceJob (by simp)).grow rfl rfl rfl
    (fun _ hkey => hkey) (fun k hk => ?_), fun job hmem => ?_, fun kind => ?_⟩
  · show ((s.capabilities.set key _).get? k).isSome
    rw [hget]
    split
    · rfl
    · exact hk
  · rcases List.mem_append.mp hmem with hold | hnew
    · obtain ⟨earlier, hearlier, rfl⟩ := List.mem_map.mp (List.mem_of_mem_eraseIdx hold)
      refine reads_afterCommit (h.reads earlier hearlier) (fun k hk => ?_) (fun k hk => ?_) ?_
      · exact (hget k _).trans (if_neg fun heq => hk (congrArg Commit.capability heq.symm))
      · by_cases heq : k = key
        · rw [heq, hcap]
          rfl
        · rwa [hget, if_neg heq] at hk
      · intro f hf hshows
        cases f with
        | policy entries etag => exact hshows
        | capability entries => exact absurd rfl hf
    · -- the flip goes on with the row that it has just written
      rw [List.mem_singleton.mp hnew]
      intro hbehind row hrow
      obtain rfl := Option.some.inj (((hget key _).trans (if_pos rfl)).symm.trans hrow)
      exact h.reads _ (List.mem_of_getElem? hjob) hbehind cap hcap
  · cases kind with
    | policy =>
        have hmarked : ∃ job, (s.afterCommit (.capability key)).jobs[i]? = some job ∧
            job.Syncs .policy = false := by
          refine ⟨_, by rw [Site.afterCommit, List.getElem?_map, hjob, Option.map_some], ?_⟩
          rw [syncs_afterCommit]
          rfl
        obtain ⟨job, hat, hsyncs⟩ := hmarked
        refine (h.inStep .policy).mono
          (fun hsettled => settled_of_afterCommit (settled_of_replaceJob hat hsyncs hsettled)) rfl
          (fun frame hframe hshows => ?_) fun hholds => hholds
        cases frame with
        | policy entries etag => exact hshows
        | capability entries => cases hframe
    | capability => exact inStep_of_syncs (List.mem_append_right _ List.mem_cons_self) rfl

theorem coherent_commit (h : Coherent serverId approved s) (hjob : s.jobs[i]? = some job)
    (hs : s.commit i job = some s') : Coherent serverId approved s' := by
  cases job with
  | savePolicy writes => exact coherent_savePolicy h hjob hs
  | saveCapability key enabled column behind => exact coherent_saveCapability h hjob hs
  | pushContext | composePolicy onConnect | composeCapability held behind | send f behind => cases hs

theorem coherent_rollBack (h : Coherent serverId approved s) (hjob : s.jobs[i]? = some job)
    (hs : s.rollBack i job = some s') : Coherent serverId approved s' := by
  have hends : (∀ kind, job.Syncs kind = false) ∧ s' = s.replaceJob i [] := by
    cases job with
    | savePolicy writes | saveCapability key enabled column behind =>
        exact ⟨fun _ => rfl, (Option.some.inj hs).symm⟩
    | pushContext | composePolicy onConnect | composeCapability held behind | send f behind => cases hs
  obtain ⟨hsyncs, rfl⟩ := hends
  exact ⟨h.known.replaceJob (by simp), h.reads_replaceJob (by simp),
    fun kind => (h.inStep kind).replaceJob hjob (hsyncs kind)⟩

/-- A server without policies: no frame that lists one is on its way. -/
theorem inStep_of_no_policies (h : Known serverId s) (hempty : s.policyEntries = []) :
    s.InStep serverId approved .policy := by
  have hnone : ∀ key, s.policies.get? key = none := by
    intro key
    rw [← Option.not_isSome_iff_eq_none]
    intro hsome
    obtain ⟨row, hrow⟩ := Option.isSome_iff_exists.mp hsome
    have hmem : (key, row) ∈ s.policyEntries := mem_policyEntries.mpr hrow
    rw [hempty] at hmem
    cases hmem
  refine fun _ frames hframes => Replica.latest_of_forall (fun frame hframe => ?_) fun key => ?_
  · have hlists := h.socket frames hframes frame (List.mem_of_mem_filter hframe)
    cases frame with
    | capability entries => cases of_decide_eq_true (List.mem_filter.mp hframe).2
    | policy entries etag =>
        cases entries with
        | nil => exact hempty.symm
        | cons e entries =>
            have hlisted := hlists e List.mem_cons_self
            rw [hnone] at hlisted
            cases hlisted
  · have hentry : s.policyOf? key = none := by
      rw [policyOf?, Option.bind_eq_none_iff]
      intro k _
      rw [hnone, Option.map_none]
    rw [hentry, ← Option.not_isSome_iff_eq_none]
    intro hsome
    have hknown := h.policies key hsome
    rw [hentry] at hknown
    cases hknown

theorem inStep_of_no_capabilities (h : Known serverId s) (hempty : s.capabilities.entries = []) :
    s.InStep serverId approved .capability := by
  have hnone : ∀ key, s.capabilities.get? key = none := by
    intro key
    rw [Dict.get?_eq_none_iff, hempty]
    exact fun e he => absurd he List.not_mem_nil
  refine fun _ frames hframes => Replica.latest_of_forall (fun frame hframe => ?_) fun key => ?_
  · have hlists := h.socket frames hframes frame (List.mem_of_mem_filter hframe)
    cases frame with
    | policy entries etag => cases of_decide_eq_true (List.mem_filter.mp hframe).2
    | capability entries =>
        cases entries with
        | nil =>
            show [] = s.capabilityEntries none
            rw [capabilityEntries, hempty, List.map_nil]
        | cons e entries =>
            have hlisted := hlists e List.mem_cons_self
            rw [hnone] at hlisted
            cases hlisted
  · rw [hnone, Option.map_none, ← Option.not_isSome_iff_eq_none]
    intro hsome
    have hknown := h.capabilities key hsome
    rw [hnone] at hknown
    cases hknown

/-- A session whose row is the committed one reads the committed rows. -/
theorem capabilityEntries_of_reads {held : Option (String × Bool)} {behind : Bool}
    (h : s.Reads (.composeCapability held behind)) :
    s.capabilityEntries held = s.capabilityEntries none := by
  cases held with
  | none => rfl
  | some held =>
      obtain ⟨key, enabled⟩ := held
      refine List.map_congr_left fun e he => ?_
      show (e.1, if key = e.1 then enabled else e.2.isEnabled) = (e.1, e.2.isEnabled)
      split
      · next hkey =>
          have hrow : e.2.isEnabled = enabled := h e.2 (hkey ▸ Dict.get?_eq_some_iff.mpr he)
          rw [hrow]
      · rfl

/-- What is composed shows the rows, unless the session is behind. -/
theorem shows_composed {sha256 : String → String} (hs : s.composed sha256 job = some (some frame))
    (hreads : s.Reads job) : s.Shows frame := by
  cases job with
  | composePolicy onConnect =>
      simp only [Site.composed] at hs
      split at hs
      · cases hs
      · obtain rfl := Option.some.inj (Option.some.inj hs)
        rfl
  | composeCapability held behind =>
      simp only [Site.composed] at hs
      split at hs
      · cases hs
      · obtain rfl := Option.some.inj (Option.some.inj hs)
        exact capabilityEntries_of_reads hreads
  | savePolicy writes | saveCapability key enabled column behind | pushContext | send f behind => cases hs

/-- What is composed lists keys of the rows. -/
theorem lists_composed {sha256 : String → String} (hs : s.composed sha256 job = some (some frame)) :
    s.Lists frame := by
  cases job with
  | composePolicy onConnect =>
      simp only [Site.composed] at hs
      split at hs
      · cases hs
      · obtain rfl := Option.some.inj (Option.some.inj hs)
        intro e he
        rw [mem_policyEntries.mp he]
        rfl
  | composeCapability held behind =>
      simp only [Site.composed] at hs
      split at hs
      · cases hs
      · obtain rfl := Option.some.inj (Option.some.inj hs)
        intro e he
        obtain ⟨row, hrow, rfl⟩ := List.mem_map.mp he
        rw [Dict.get?_eq_some_iff.mpr hrow]
        rfl
  | savePolicy writes | saveCapability key enabled column behind | pushContext | send f behind => cases hs

/-- A composed frame is of the kind of its job, and a job that composes none syncs an empty
table. -/
theorem inStep_compose {sha256 : String → String} {composed : Option SyncFrame}
    (h : Coherent serverId approved s) (hjob : s.jobs[i]? = some job)
    (hs : s.composed sha256 job = some composed)
    (hknown : Known serverId (s.replaceJob i (composed.toList.map (Job.send · job.behind)))) (kind : Kind) :
    (s.replaceJob i (composed.toList.map (Job.send · job.behind))).InStep serverId approved kind := by
  cases job with
  | composePolicy onConnect =>
      cases kind with
      | capability => exact (h.inStep .capability).replaceJob hjob rfl
      | policy =>
          simp only [Site.composed] at hs
          split at hs
          · next hempty => exact inStep_of_no_policies hknown hempty.2
          · obtain rfl := Option.some.inj hs
            exact inStep_of_syncs (List.mem_append_right _ List.mem_cons_self) rfl
  | composeCapability held behind =>
      cases kind with
      | policy => exact (h.inStep .policy).replaceJob hjob rfl
      | capability =>
          simp only [Site.composed] at hs
          split at hs
          · next hempty => exact inStep_of_no_capabilities hknown (List.map_eq_nil_iff.mp hempty)
          · obtain rfl := Option.some.inj hs
            exact inStep_of_syncs (List.mem_append_right _ List.mem_cons_self) rfl
  | savePolicy writes | saveCapability key enabled column behind | pushContext | send f behind => cases hs

theorem coherent_compose {sha256 : String → String} {composed : Option SyncFrame}
    (h : Coherent serverId approved s) (hjob : s.jobs[i]? = some job)
    (hs : s.composed sha256 job = some composed) :
    Coherent serverId approved (s.replaceJob i (composed.toList.map (Job.send · job.behind))) := by
  have hframe : ∀ j ∈ composed.toList.map (Job.send · job.behind), ∃ frame,
      s.composed sha256 job = some (some frame) ∧ j = .send frame job.behind := by
    intro j hj
    obtain ⟨frame, hcomposed, rfl⟩ := List.mem_map.mp hj
    exact ⟨frame, by rw [hs, Option.mem_toList.mp hcomposed], rfl⟩
  have hknown := h.known.replaceJob (i := i) fun frame behind hmem => by
    obtain ⟨f, hf, heq⟩ := hframe _ hmem
    obtain ⟨rfl, -⟩ := Job.send.inj heq
    exact lists_composed hf
  refine ⟨hknown, h.reads_replaceJob fun j hj => ?_, inStep_compose h hjob hs hknown⟩
  obtain ⟨frame, hcomposed, rfl⟩ := hframe j hj
  exact fun hbehind => shows_composed hcomposed (h.reads job (List.mem_of_getElem? hjob) hbehind)

/-- A frame that is sent either shows the rows or is not the last one. -/
theorem coherent_send {behind : Bool} (h : Coherent serverId approved s)
    (hjob : s.jobs[i]? = some (.send frame behind))
    (hok : behind = true → ¬ (s.replaceJob i []).Settled approved frame.kind) :
    Coherent serverId approved
      { s.replaceJob i [] with socket := s.socket.map (· ++ [frame]) } := by
  have hmem : Job.send frame behind ∈ s.jobs := List.mem_of_getElem? hjob
  have hknown : Known serverId (s.replaceJob i []) := h.known.replaceJob (by simp)
  refine ⟨⟨hknown.jobs, fun frames hframes f hf => ?_, hknown.policies, hknown.capabilities⟩,
    fun job hjob hbehind => (h.reads_replaceJob (by simp) job hjob hbehind).congr rfl rfl,
    fun kind hsettled frames hframes => ?_⟩
  · obtain ⟨earlier, hearlier, rfl⟩ := Option.map_eq_some_iff.mp hframes
    rcases List.mem_append.mp hf with hold | hnew
    · exact h.known.socket earlier hearlier f hold
    · obtain rfl := List.mem_singleton.mp hnew
      exact h.known.jobs f behind hmem
  · obtain ⟨earlier, hearlier, rfl⟩ := Option.map_eq_some_iff.mp hframes
    have hbefore : (s.replaceJob i []).Settled approved kind :=
      ⟨hsettled.1, by rw [Site.replaceJob, hearlier]; rfl, hsettled.2.2⟩
    rw [List.filter_append]
    by_cases hkind : frame.kind = kind
    · subst hkind
      rw [List.filter_cons_of_pos (by simp), List.filter_nil]
      have hbehind : behind = false := Bool.eq_false_iff.mpr fun hbehind => hok hbehind hbefore
      exact Replica.latest_concat (h.reads _ hmem hbehind)
    · rw [List.filter_cons_of_neg (by simpa using hkind), List.filter_nil, List.append_nil]
      refine h.inStep kind (settled_of_replaceJob hjob ?_ hbefore) earlier hearlier
      simpa [Job.Syncs] using Ne.symm hkind

theorem coherent_syncFailed (h : Coherent serverId approved s) (hjob : s.jobs[i]? = some job)
    (hok : ∀ kind, job.Syncs kind → ¬ (s.replaceJob i []).Settled approved kind) :
    Coherent serverId approved (s.replaceJob i []) := by
  refine ⟨h.known.replaceJob (by simp), h.reads_replaceJob (by simp), fun kind => ?_⟩
  cases hsyncs : job.Syncs kind with
  | true => exact inStep_of_not_settled (hok kind hsyncs)
  | false => exact (h.inStep kind).replaceJob hjob hsyncs

/-! ### the agent -/

theorem known_applyTo (h : Known serverId s) (hlists : s.Lists frame) {frames : List SyncFrame}
    (hsocket : ∀ f ∈ frames, s.Lists f) :
    Known serverId { s with socket := some frames, agent := frame.applyTo serverId s.agent } := by
  refine ⟨h.jobs, fun frames' hframes f hf => ?_, fun key hkey => ?_, fun key hkey => ?_⟩
  · exact hsocket f (Option.some.inj hframes ▸ hf)
  · cases frame with
    | capability entries => exact h.policies key hkey
    | policy entries etag =>
        by_cases hnamed : ∃ e ∈ entries, e.1.text = key
        · obtain ⟨e, he, rfl⟩ := hnamed
          show (s.policyOf? e.1.text).isSome
          rw [policyOf?, AgentPolicyKey.parse?_text, Option.bind_some, Option.isSome_map]
          exact hlists e he
        · have hnone : ((SyncFrame.policy entries etag).applyTo serverId s.agent).policies.get?
              ((serverId : Int), key) = none :=
            policies_applyTo_of_ne fun e he hkey => hnamed ⟨e, he, hkey⟩
          rw [hnone] at hkey
          cases hkey
  · cases frame with
    | policy entries etag => exact h.capabilities key hkey
    | capability entries =>
        rw [capabilities_applyTo] at hkey
        cases hlast : (entries.filter fun e => e.1 = key).getLast? with
        | none =>
            rw [hlast] at hkey
            exact h.capabilities key hkey
        | some e =>
            have hmem := List.mem_filter.mp (List.mem_of_getLast? hlast)
            have hname : e.1 = key := by simpa using hmem.2
            exact hname ▸ hlists e hmem.1

/-- A frame that shows the rows leaves them in the agent. -/
theorem holds_applyTo (h : Known serverId s) (hshows : s.Shows frame) :
    s.Holds serverId (frame.applyTo serverId s.agent) frame.kind := by
  cases frame with
  | policy entries etag =>
      obtain rfl : entries = s.policyEntries := hshows
      exact holds_policy_applyTo etag
  | capability entries =>
      obtain rfl : entries = s.capabilityEntries none := hshows
      exact holds_capability_applyTo h.capabilities

/-- A frame leaves the copy of the other kind as it is. -/
theorem holds_applyTo_of_ne {a : Agent} (hkind : frame.kind ≠ kind) (h : s.Holds serverId a kind) :
    s.Holds serverId (frame.applyTo serverId a) kind := by
  cases frame with
  | policy entries etag =>
      cases kind with
      | policy => exact absurd rfl hkind
      | capability => exact h
  | capability entries =>
      cases kind with
      | policy => exact h
      | capability => exact absurd rfl hkind

theorem coherent_deliver {host : Host} (h : Coherent serverId approved s)
    (hs : s.deliver host serverId = some s') : Coherent serverId approved s' := by
  obtain ⟨frame, frames, hsocket, rfl⟩ := deliver_eq_some hs
  have hlists := h.known.socket _ hsocket
  refine ⟨known_applyTo h.known (hlists frame List.mem_cons_self)
    (fun f hf => hlists f (List.mem_cons_of_mem _ hf)),
    fun job hjob hbehind => (h.reads job hjob hbehind).congr rfl rfl,
    fun kind hsettled frames' hframes => ?_⟩
  obtain rfl := Option.some.inj hframes
  have hlatest := h.inStep kind ⟨hsettled.1, by rw [hsocket]; rfl, hsettled.2.2⟩ _ hsocket
  by_cases hkind : frame.kind = kind
  · subst hkind
    rw [List.filter_cons_of_pos (by simp)] at hlatest
    exact hlatest.tail (holds_applyTo h.known)
  · rw [List.filter_cons_of_neg (by simpa using hkind)] at hlatest
    exact hlatest.mono (fun _ _ hshows => hshows) (holds_applyTo_of_ne hkind)

end

end Site

/-! ## one step -/

/-- Every server is in step with its agent. -/
def InStep (w : World) : Prop := ∀ serverId, (w.sites serverId).Coherent serverId (w.approved serverId)

section Step

variable {env : Env} {w w' : World} {serverId : Nat}

theorem inStep_setSite {s : Site} (h : InStep w) (hs : s.Coherent serverId (w.approved serverId)) :
    InStep (w.setSite serverId s) := by
  intro k
  show (Function.update w.sites serverId s k).Coherent k (w.approved k)
  by_cases hk : k = serverId
  · subst hk
    rw [Function.update_self]
    exact hs
  · rw [Function.update_of_ne hk]
    exact h k

theorem inStep_job {i : Nat} {next : Site → Job → Option Site} (h : InStep w)
    (hnext : ∀ job s, (w.sites serverId).jobs[i]? = some job →
      next (w.sites serverId) job = some s → s.Coherent serverId (w.approved serverId))
    (hstep : w.job serverId i next = some w') : InStep w' := by
  obtain ⟨s, hs, rfl⟩ := Option.map_eq_some_iff.mp hstep
  obtain ⟨job, hjob, hs⟩ := Option.bind_eq_some_iff.mp hs
  exact inStep_setSite h (hnext job s hjob hs)

/-- More to do. -/
theorem coherent_jobs {s : Site} {approved : Bool} {new : List Job}
    (h : s.Coherent serverId approved) (hnew : ∀ frame behind, .send frame behind ∉ new)
    (hreads : ∀ job ∈ new, job.behind = false → s.Reads job) :
    { s with jobs := s.jobs ++ new }.Coherent serverId approved := by
  refine ⟨⟨fun frame behind hframe => ?_, h.known.socket, h.known.policies, h.known.capabilities⟩,
    fun job hjob hbehind => ?_,
    fun kind => (h.inStep kind).mono ?_ rfl (fun _ _ hshows => hshows) fun hholds => hholds⟩
  · exact h.known.jobs frame behind ((List.mem_append.mp hframe).resolve_right (hnew frame behind))
  · rcases List.mem_append.mp hjob with hold | hjob
    · exact (h.reads job hold hbehind).congr rfl rfl
    · exact (hreads job hjob hbehind).congr rfl rfl
  · exact fun hs => ⟨hs.1, hs.2.1, hs.2.2.1, fun job hjob => hs.2.2.2 job (List.mem_append_left _ hjob)⟩

theorem inStep_enqueue {job : Job} (h : InStep w) (hjob : ∀ frame behind, job ≠ .send frame behind)
    (hreads : (w.sites serverId).Reads job) : InStep (w.enqueue serverId job) := by
  refine inStep_setSite h (coherent_jobs (h serverId) (fun frame behind hframe => ?_) fun j hj _ => ?_)
  · exact hjob frame behind (List.mem_singleton.mp hframe).symm
  · exact List.mem_singleton.mp hj ▸ hreads

/-- A flip writes its value, or has found it there. -/
theorem reads_updateCapability {s : Site} {capabilityKey : String} {enabled : Bool} {notes : Option String}
    {column : Option Bool}
    (h : CoreLab.updateCapability s.capabilities serverId capabilityKey enabled notes = .ok column) :
    s.Reads (.saveCapability capabilityKey enabled column false) := by
  unfold CoreLab.updateCapability at h
  split at h
  · cases h
  · next cap hcap =>
      split at h
      · cases h
      · obtain rfl := Except.ok.inj h
        intro row hrow
        obtain rfl := Option.some.inj (hcap.symm.trans hrow)
        unfold changed
        split
        · next hsame => exact hsame.symm
        · rfl

/-- The context of an approval counts for both kinds until it is pushed. -/
theorem inStep_approveServer {labId actorUserId : Nat} {hasAgentToken : Bool} {now : Time} {db : Db}
    (h : InStep w)
    (hdb : CoreLab.approveServer w.db serverId labId hasAgentToken actorUserId now = .ok db) :
    InStep ({ w with db := db }.enqueue serverId .pushContext) := by
  intro k
  by_cases hk : k = serverId
  · subst hk
    simp only [World.enqueue, World.setSite, Function.update_self]
    have hjobs : { w.sites k with jobs := (w.sites k).jobs ++ [Job.pushContext] }.Coherent k (w.approved k) :=
      coherent_jobs (h k) (by simp) (by simp [Site.Reads])
    exact ⟨hjobs.known, hjobs.reads,
      fun kind => Site.inStep_of_syncs (List.mem_append_right _ List.mem_cons_self) rfl⟩
  · have happroved : isServerApproved db k = isServerApproved w.db k := by
      rw [isServerApproved, isServerApproved, servers_approveServer hdb hk]
    simp only [World.enqueue, World.setSite, Function.update_of_ne hk]
    show (w.sites k).Coherent k (isServerApproved db k)
    rw [happroved]
    exact h k

/-- The jobs of a new context hold nothing yet. -/
theorem contextJobs_fresh {s : Site} {wanted : Bool} {job : Job}
    (h : job ∈ if wanted then Site.contextJobs else []) :
    (∀ frame behind, job ≠ .send frame behind) ∧ s.Reads job := by
  cases wanted with
  | false => cases h
  | true =>
      rcases List.mem_cons.mp h with rfl | h
      · exact ⟨nofun, trivial⟩
      · obtain rfl := List.mem_singleton.mp h
        exact ⟨nofun, trivial⟩

/-- A context syncs both kinds. -/
theorem syncs_contextJobs (kind : Kind) : ∃ job ∈ Site.contextJobs, job.Syncs kind = true := by
  cases kind with
  | policy => exact ⟨.composePolicy true, by decide, rfl⟩
  | capability => exact ⟨.composeCapability none false, by decide, rfl⟩

theorem coherent_pushContext {s s' : Site} {approved : Bool} {i : Nat} {job : Job}
    (h : s.Coherent serverId approved)
    (hs : (if job = .pushContext then
      some (s.replaceJob i (if s.socket.isSome then Site.contextJobs else [])) else none) = some s') :
    s'.Coherent serverId approved := by
  rw [Option.ite_none_right_eq_some, Option.some.injEq] at hs
  obtain ⟨-, rfl⟩ := hs
  refine ⟨h.known.replaceJob fun frame behind hframe => ?_, h.reads_replaceJob fun j hj _ => ?_,
    fun kind => ?_⟩
  · exact absurd rfl ((contextJobs_fresh (s := s) hframe).1 frame behind)
  · exact (contextJobs_fresh hj).2
  · cases hsocket : s.socket with
    | none => exact Site.inStep_of_offline hsocket
    | some frames =>
        rw [Option.isSome_some, if_pos rfl]
        obtain ⟨j, hj, hsyncs⟩ := syncs_contextJobs kind
        exact Site.inStep_of_syncs (List.mem_append_right _ hj) hsyncs

theorem coherent_handshake {s : Site} {approved : Bool} (h : s.Coherent serverId approved) :
    { s with
      opening := s.opening - 1
      jobs := s.jobs ++ if approved then Site.contextJobs else [] }.Coherent serverId approved := by
  have hjobs : { s with jobs := s.jobs ++ if approved then Site.contextJobs else [] }.Coherent serverId
      approved :=
    coherent_jobs h (fun frame behind hmem =>
      absurd rfl ((contextJobs_fresh (s := s) hmem).1 frame behind)) fun j hj _ => (contextJobs_fresh hj).2
  refine ⟨⟨hjobs.known.jobs, hjobs.known.socket, hjobs.known.policies, hjobs.known.capabilities⟩,
    fun job hjob hbehind => (hjobs.reads job hjob hbehind).congr rfl rfl, fun kind => ?_⟩
  cases approved with
  | false => exact Site.inStep_of_not_settled fun hs => nomatch hs.1
  | true =>
      obtain ⟨j, hj, hsyncs⟩ := syncs_contextJobs kind
      exact Site.inStep_of_syncs (List.mem_append_right _ hj) hsyncs

theorem coherent_connect {s : Site} {approved : Bool} (h : s.Coherent serverId approved) :
    { s with socket := some [], opening := s.opening + 1 }.Coherent serverId approved := by
  refine ⟨⟨h.known.jobs, fun frames hframes frame hframe => ?_, h.known.policies,
    h.known.capabilities⟩, fun job hjob hbehind => (h.reads job hjob hbehind).congr rfl rfl,
    fun kind => Site.inStep_of_not_settled fun hs => Nat.succ_ne_zero _ hs.2.2.1⟩
  obtain rfl := Option.some.inj hframes
  cases hframe

theorem coherent_disconnect {s : Site} {approved : Bool} (h : s.Coherent serverId approved) :
    { s with socket := none }.Coherent serverId approved :=
  ⟨⟨h.known.jobs, (fun _ hframes => nomatch hframes), h.known.policies, h.known.capabilities⟩,
    fun job hjob hbehind => (h.reads job hjob hbehind).congr rfl rfl,
    fun _ => Site.inStep_of_offline rfl⟩

theorem coherent_restart {s : Site} {approved : Bool} (h : s.Coherent serverId approved) :
    { s with
      socket := none
      agent := { s.agent with policies := .empty, capabilities := .empty } }.Coherent serverId
        approved :=
  ⟨⟨h.known.jobs, (fun _ hframes => nomatch hframes), (fun _ hkey => nomatch hkey),
    fun _ hkey => nomatch hkey⟩, fun job hjob hbehind => (h.reads job hjob hbehind).congr rfl rfl,
    fun _ => Site.inStep_of_offline rfl⟩

/-- **One step** that sends and loses syncs in an orderly way keeps the agents in step. -/
theorem inStep_step {a : Action} (h : InStep w) (hok : Orderly w a) (hstep : step env w a = some w') :
    InStep w' := by
  cases a with
  | updatePolicy serverId policyKey body =>
      obtain rfl := Option.some.inj hstep
      cases updateOne env.scalars (w.sites serverId).policies policyKey body with
      | error e => exact h
      | ok write => exact inStep_enqueue h (fun frame behind => Job.noConfusion) trivial
  | switchProfile serverId profile =>
      obtain rfl := Option.some.inj hstep
      exact inStep_enqueue h (fun frame behind => Job.noConfusion) trivial
  | updateCapability serverId capabilityKey enabled notes =>
      obtain rfl := Option.some.inj hstep
      cases hresult : CoreLab.updateCapability (w.sites serverId).capabilities serverId capabilityKey
        enabled notes with
      | error e => exact h
      | ok column =>
          exact inStep_enqueue h (fun frame behind => Job.noConfusion) (reads_updateCapability hresult)
  | commit serverId i =>
      simp only [step] at hstep
      exact inStep_job h (fun job s hjob hs => Site.coherent_commit (h serverId) hjob hs) hstep
  | rollBack serverId i =>
      simp only [step] at hstep
      exact inStep_job h (fun job s hjob hs => Site.coherent_rollBack (h serverId) hjob hs) hstep
  | approveServer serverId labId hasAgentToken actorUserId now =>
      simp only [step] at hstep
      split at hstep
      · obtain rfl := Option.some.inj hstep
        exact h
      · next db hdb =>
          obtain rfl := Option.some.inj hstep
          exact inStep_approveServer h hdb
  | pushContext serverId i =>
      simp only [step] at hstep
      exact inStep_job h (fun job s _ hs => coherent_pushContext (h serverId) hs) hstep
  | connect serverId =>
      simp only [step, Option.ite_none_right_eq_some, Option.some.injEq] at hstep
      obtain ⟨-, rfl⟩ := hstep
      exact inStep_setSite h (coherent_connect (h serverId))
  | handshake serverId =>
      simp only [step, Option.ite_none_left_eq_some, Option.some.injEq] at hstep
      obtain ⟨-, rfl⟩ := hstep
      exact inStep_setSite h (coherent_handshake (h serverId))
  | compose serverId i =>
      simp only [step] at hstep
      refine inStep_job h (fun job s hjob hs => ?_) hstep
      obtain ⟨composed, hcomposed, rfl⟩ := Option.map_eq_some_iff.mp hs
      exact Site.coherent_compose (h serverId) hjob hcomposed
  | syncFailed serverId i =>
      simp only [step] at hstep
      refine inStep_job h (fun job s hjob hs => ?_) hstep
      rw [Option.ite_none_right_eq_some, Option.some.injEq] at hs
      obtain ⟨-, rfl⟩ := hs
      exact Site.coherent_syncFailed (h serverId) hjob (hok job hjob)
  | send serverId i =>
      simp only [step] at hstep
      refine inStep_job h (fun job s hjob hs => ?_) hstep
      cases job with
      | send frame behind =>
          obtain rfl := Option.some.inj hs
          refine Site.coherent_send (h serverId) hjob fun hbehind => ?_
          exact hok _ hjob hbehind frame.kind (decide_eq_true rfl)
      | savePolicy writes | saveCapability key enabled column behind | pushContext
      | composePolicy onConnect | composeCapability held behind => cases hs
  | deliver serverId =>
      obtain ⟨s, hs, rfl⟩ := Option.map_eq_some_iff.mp hstep
      exact inStep_setSite h (Site.coherent_deliver (h serverId) hs)
  | disconnect serverId =>
      obtain rfl := Option.some.inj hstep
      exact inStep_setSite h (coherent_disconnect (h serverId))
  | restart serverId =>
      obtain rfl := Option.some.inj hstep
      exact inStep_setSite h (coherent_restart (h serverId))

end Step

/-! ## runs -/

/-- The backend has just started: no agent is connected, and what an agent still holds is
about rows that its server has. -/
structure Started (w : World) : Prop where
  socket : ∀ serverId, (w.sites serverId).socket = none
  jobs : ∀ serverId, (w.sites serverId).jobs = []
  policies : ∀ serverId key,
    ((w.sites serverId).agent.policies.get? ((serverId : Int), key)).isSome →
      ((w.sites serverId).policyOf? key).isSome
  capabilities : ∀ serverId key, ((w.sites serverId).agent.capabilities.get? key).isSome →
    ((w.sites serverId).capabilities.get? key).isSome

theorem inStep_started {w : World} (h : Started w) : InStep w := by
  refine fun serverId => ⟨⟨fun frame behind hframe => ?_, fun frames hframes => ?_, h.policies serverId,
    h.capabilities serverId⟩, fun job hjob => ?_, fun kind => Site.inStep_of_offline (h.socket serverId)⟩
  · rw [h.jobs serverId] at hframe
    cases hframe
  · rw [h.socket serverId] at hframes
    cases hframes
  · rw [h.jobs serverId] at hjob
    cases hjob

/-- **Convergence**: in a run from the start of the backend in which no sync that is the last
of its kind is overtaken by a commit or fails, every approved server with a connected agent
and nothing under way has its rows in the agent. -/
theorem converged_run (env : Env) {w : World} {as : List Action} (hstart : Started w)
    (hok : Meets (step env) Orderly w as) : Along (step env) (fun _ _ w' => AllSynced w') w as := by
  refine along_of_invariant (I := InStep) (fun w a w' h horderly hstep => ?_)
    (inStep_started hstart) hok
  have h' : InStep w' := inStep_step h horderly hstep
  refine ⟨h', fun serverId hquiet kind => ?_⟩
  obtain ⟨happroved, hsocket, hopening, hjobs⟩ := hquiet
  refine (h' serverId).inStep kind ⟨happroved, by rw [hsocket]; rfl, hopening, ?_⟩ [] hsocket
  rw [hjobs]
  exact fun job hjob => absurd hjob List.not_mem_nil

/-! ## two updaters -/

/-- One policy, and one capability that is off. -/
def labSite : Site where
  policies := Dict.empty.set .memoryOveruse (profilePreset .standard .memoryOveruse)
  capabilities := Dict.empty.set "gpu.kill_process" { isEnabled := false, isDangerous := true }
  socket := none
  opening := 0
  jobs := []
  agent := (AgentRpc.freshPump []).agent

/-- The small lab, its agent offline. -/
def lab : World := { db := CacheSync.lab.db, sites := fun _ => labSite }

def labEnv : Env :=
  { scalars := CacheFrames.zuluScalars, sha256 := id, host := AgentRpc.quietHost }

theorem started_lab : Started lab :=
  ⟨fun _ => rfl, fun _ => rfl, (fun _ _ hkey => nomatch hkey), fun _ _ hkey => nomatch hkey⟩

/-- The agent connects, and both syncs arrive. -/
def connectAndSync : List Action :=
  [.connect 1, .handshake 1, .compose 1 0, .compose 1 0, .send 1 0, .send 1 0, .deliver 1, .deliver 1]

/-- The first admin sets the policy to warn, the second one to log; the second commits when
the first has composed its sync. -/
def twoUpdaters : List Action :=
  [.updatePolicy 1 "memory_overuse" { severity := some .warn }, .commit 1 0, .compose 1 0,
   .updatePolicy 1 "memory_overuse" { severity := some .logOnly }, .commit 1 1]

/-- The first sync is sent before the second one is composed; a capability is switched on. -/
theorem converged_run_inTurn :
    Along (step labEnv) (fun _ _ w' => AllSynced w') lab
      (connectAndSync ++ twoUpdaters ++ [.send 1 0, .compose 1 0, .send 1 0, .deliver 1, .deliver 1,
        .updateCapability 1 "gpu.kill_process" true (some "shared by two groups"), .commit 1 0,
        .compose 1 0, .send 1 0, .deliver 1]) :=
  converged_run labEnv started_lab (by decide +kernel)

/-- The second sync overtakes the first one. -/
def overtaken : List Action :=
  connectAndSync ++ twoUpdaters ++ [.compose 1 1, .send 1 1, .send 1 0, .deliver 1]

/-- The lab before the first sync arrives, behind the second. -/
def beforeLast : World := (exec (step labEnv) lab overtaken).get (by decide +kernel)

/-- The lab after it arrived. -/
def afterLast : World := (step labEnv beforeLast (.deliver 1)).get (by decide +kernel)

/-- The agent is left with the older policy. -/
theorem not_converged :
    ¬ ∀ (env : Env) (w : World) (as : List Action), Started w →
      Along (step env) (fun _ _ w' => AllSynced w') w as := by
  intro hall
  have halong := hall labEnv lab (overtaken ++ [.deliver 1]) started_lab
  have hsynced : AllSynced afterLast :=
    halong.step_of_exec (Option.some_get _).symm (Option.some_get _).symm
  have hpolicy := hsynced 1 ⟨by decide +kernel, by decide +kernel, by decide +kernel, by decide +kernel⟩
    .policy "memory_overuse"
  have hseverity := congrArg (Option.map PolicyEntry.severity) hpolicy
  exact absurd hseverity (by decide +kernel)

end PolicySync

end CoreLab
