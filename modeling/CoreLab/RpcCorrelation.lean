import CoreLab.Frames
import CoreLab.Lib.Dict
import CoreLab.Lib.Transition

/-!
# CoreLab.RpcCorrelation

The backend's half of the RPC protocol: any number of `request_response` calls
share the table `_PENDING`, whose entries are the ids of the request frames, and
the receive loops of all connections hand their response frames to
`deliver_response`.

* `valid_step` — an entry is of a call that still runs and of its response type;
  a call is answered by a frame with its id, of that type;
* `correlated_run` — a call returns at most once, with such a frame, and leaves
  no entry; the frame is from the server that was asked as long as no agent
  answers a call to another one.
-/

namespace CoreLab

open Frames Transition

namespace RpcCorrelation

/-! ## calls -/

/-- `RPC_RESPONSE_TYPES`. -/
def rpcResponseTypes : List String :=
  ["agent.ssh.verify_sig.response", "agent.pam.verify.response",
   "agent.authorized_key.push.response", "agent.authorized_key.revoke.response",
   "agent.authorized_key.read.response", "agent.script.execute.response",
   "agent.script.cancel.response", "agent.policy.sync.response",
   "agent.account_link_cache.sync.response", "agent.linux.useradd.response",
   "agent.linux.userdel.response", "agent.gpu.kill_process.response",
   "agent.config.update_urls.ack", "agent.capability.sync.ack"]

/-- A response that was received on a connection of a server. -/
structure Receipt where
  serverId : Nat
  frame : Envelope

/-- The future of a call; of a result the call returns the payload of the frame. -/
inductive Future where
  | pending
  | result (r : Receipt)
  /-- `UnexpectedResponseTypeError`. -/
  | unexpectedType
  | cancelled

/-- `fut.done()`. -/
def Future.done : Future → Bool
  | pending => false
  | _ => true

/-- `fut.cancel()` of a future that is not done. -/
def Future.cancel : Future → Future
  | pending => cancelled
  | future => future

/-- Where a call is. -/
inductive Phase where
  /-- The request is being sent. -/
  | sending
  /-- The call waits for its future. -/
  | awaiting
  /-- The wait timed out, and the call has not run on since. -/
  | timingOut
  | returned (r : Receipt)
  | raised

/-- The call returned or raised. -/
def Phase.ended : Phase → Bool
  | returned _ | raised => true
  | _ => false

/-- A call of `request_response` that got as far as its envelope. -/
structure Call where
  serverId : Nat
  frameType : String
  phase : Phase
  future : Future

/-- `pool` has the connection of each server, `conns` the server of each
connection whose receive loop runs; `calls` are the calls by the id of their
envelope, under which `pending` has the expected type. -/
structure World where
  pool : Dict Nat Nat
  conns : Dict Nat Nat
  pending : Dict String String
  optionalResponses : Dict String String
  calls : Dict String Call

/-- One atomic step. -/
inductive Action where
  | connect (conn serverId : Nat)
  | loopEnds (conn : Nat)
  /-- A call; `id` is the uuid of its envelope. -/
  | call (id : String) (serverId : Nat) (frameType : String)
  | sent (id : String)
  | receive (conn : Nat) (frame : Envelope) (approved : Bool)
  | returns (id : String)
  | timesOut (id : String)
  /-- Sending failed, the time-out is raised, or the task was cancelled. -/
  | raises (id : String)
  | expectOptional (id frameType : String)

namespace World

/-! ## the tables -/

/-- `_MAX_OPTIONAL_RESPONSES`. -/
def maxOptionalResponses : Nat := 1024

/-- Drop the oldest entries above the limit. -/
def trim (d : Dict String String) : Dict String String :=
  ⟨d.entries.drop (d.entries.length - maxOptionalResponses),
    d.nodup.sublist ((List.drop_sublist _ _).map _)⟩

/-- `expect_optional_response`. -/
def expectOptionalResponse (w : World) (id frameType : String) : World × Bool :=
  match rpcRequestToResponse.lookup frameType with
  | none => (w, false)
  | some expected => ({ w with optionalResponses := trim (w.optionalResponses.set id expected) }, true)

/-- The future of a call takes a value. -/
def settle (w : World) (id : String) (c : Call) (future : Future) : World :=
  { w with calls := w.calls.set id { c with future := future } }

/-- `deliver_response`; the future of an entry is the one of the call with its id. -/
def deliverResponse (w : World) (serverId : Nat) (frame : Envelope) : World × Bool :=
  match frame.correlationId with
  | none => (w, false)
  | some id => match w.pending.get? id with
    | none => ({ w with optionalResponses := w.optionalResponses.erase id },
        w.optionalResponses.get? id = some frame.type)
    | some expected =>
      let w := { w with pending := w.pending.erase id }
      match w.calls.get? id with
      | none => (w, false)
      | some c =>
        if c.future.done then (w, false)
        else if frame.type ≠ expected then (w.settle id c .unexpectedType, true)
        else (w.settle id c (.result ⟨serverId, frame⟩), true)

/-- The `finally` block of a call, which ends it. -/
def finish (w : World) (id : String) (c : Call) (phase : Phase) : World :=
  { w with
    pending := w.pending.erase id
    calls := w.calls.set id { c with phase := phase, future := c.future.cancel } }

/-! ## steps -/

/-- `request_response` up to its first `await`; an unknown type, or a server
without a connection, is refused. -/
def call (w : World) (id : String) (serverId : Nat) (frameType : String) : World :=
  match rpcRequestToResponse.lookup frameType, w.pool.get? serverId with
  | some expected, some _ =>
    { w with
      pending := w.pending.set id expected
      calls := w.calls.set id
        { serverId := serverId, frameType := frameType, phase := .sending, future := .pending } }
  | _, _ => w

/-- A frame of a running receive loop; only the responses of an approved server
are handed on. -/
def receive (w : World) (conn : Nat) (frame : Envelope) (approved : Bool) : Option World :=
  (w.conns.get? conn).map fun serverId =>
    if approved = true ∧ frame.type ∈ rpcResponseTypes then (w.deliverResponse serverId frame).1 else w

/-- A call goes on from `await`. -/
def resume (w : World) (id : String) (c : Call) : Option World :=
  match c.phase, c.future with
  | .awaiting, .result r => some (w.finish id c (.returned r))
  | .awaiting, .unexpectedType => some (w.finish id c .raised)
  | _, _ => none

/-- One step. -/
def step (w : World) : Action → Option World
  | .connect conn serverId =>
    if (w.conns.get? conn).isSome then none
    else some { w with pool := w.pool.set serverId conn, conns := w.conns.set conn serverId }
  | .loopEnds conn => (w.conns.get? conn).map fun serverId =>
    { w with
      conns := w.conns.erase conn
      pool := if w.pool.get? serverId = some conn then w.pool.erase serverId else w.pool }
  | .call id serverId frameType =>
    if (w.calls.get? id).isSome then none else some (w.call id serverId frameType)
  | .sent id => (w.calls.get? id).bind fun c => match c.phase with
    | .sending => some { w with calls := w.calls.set id { c with phase := .awaiting } }
    | _ => none
  | .receive conn frame approved => w.receive conn frame approved
  | .returns id => (w.calls.get? id).bind (w.resume id)
  | .timesOut id => (w.calls.get? id).bind fun c => match c.phase with
    | .awaiting => some { w with
        calls := w.calls.set id { c with phase := .timingOut, future := c.future.cancel } }
    | _ => none
  | .raises id => (w.calls.get? id).bind fun c =>
    if c.phase.ended then none else some (w.finish id c .raised)
  | .expectOptional id frameType => some (w.expectOptionalResponse id frameType).1

end World

open World

/-! ## the property and its condition -/

/-- A response that answers a call. -/
structure Answers (id : String) (c : Call) (r : Receipt) : Prop where
  correlationId : r.frame.correlationId = some id
  type : rpcRequestToResponse.lookup c.frameType = some r.frame.type
  serverId : r.serverId = c.serverId

/-- What a step must not break: a call that ended stays as it is, without an
entry, and it returned nothing but an answer. -/
structure Correlated (w : World) (w' : World) : Prop where
  once : ∀ id c, w.calls.get? id = some c → c.phase.ended = true → w'.calls.get? id = some c
  answered : ∀ id c r, w'.calls.get? id = some c → c.phase = .returned r → Answers id c r
  gone : ∀ id c, w'.calls.get? id = some c → c.phase.ended = true → w'.pending.get? id = none

/-- An agent does not answer a call to another server: a response with the id
and the type that a call waits for comes from the server that the call asked. -/
def OwnServer (w : World) : Action → Prop
  | .receive conn frame approved => approved = true → ∀ serverId ∈ w.conns.get? conn,
      ∀ id ∈ frame.correlationId, w.pending.get? id = some frame.type →
        ∀ c ∈ w.calls.get? id, c.future.done = false → c.serverId = serverId
  | _ => True

instance (w : World) : ∀ a, Decidable (OwnServer w a)
  | .receive conn frame approved => inferInstanceAs (Decidable (approved = true →
      ∀ serverId ∈ w.conns.get? conn, ∀ id ∈ frame.correlationId,
        w.pending.get? id = some frame.type → ∀ c ∈ w.calls.get? id, c.future.done = false →
          c.serverId = serverId))
  | .connect _ _ | .loopEnds _ | .call _ _ _ | .sent _ | .returns _ | .timesOut _ | .raises _
  | .expectOptional _ _ => .isTrue True.intro

/-- No call was made yet. -/
def Started (w : World) : Prop := w.pending.entries = [] ∧ w.calls.entries = []

/-! ## what a step does -/

/-- Every entry was there before. -/
def Shrunk (w w' : World) : Prop :=
  ∀ id expected, w'.pending.get? id = some expected → w.pending.get? id = some expected

theorem Shrunk.erase {w : World} (id : String) {calls : Dict String Call} :
    Shrunk w { w with pending := w.pending.erase id, calls := calls } := by
  intro j expected h
  rw [Dict.get?_erase] at h
  split at h
  · cases h
  · exact h

/-- A response that a running receive loop hands to a call that waits for it. -/
structure Received (w : World) (a : Action) (id : String) (c : Call) (r : Receipt) : Prop where
  action : ∃ conn, a = .receive conn r.frame true ∧ w.conns.get? conn = some r.serverId
  correlationId : r.frame.correlationId = some id
  type : w.pending.get? id = some r.frame.type
  waiting : c.future.done = false

/-- What a step does to the calls and their entries: nothing but drop entries; open
a call with its entry; or move one running call on. -/
inductive StepCase (w : World) (a : Action) (w' : World) : Prop where
  | idle (calls : w'.calls = w.calls) (pending : Shrunk w w')
  | opened (id : String) (c : Call) (expected : String) (fresh : w.calls.get? id = none)
      (calls : w'.calls = w.calls.set id c) (pending : w'.pending = w.pending.set id expected)
      (type : rpcRequestToResponse.lookup c.frameType = some expected)
      (phase : c.phase = .sending) (future : c.future = .pending)
  | moved (id : String) (c c' : Call) (get : w.calls.get? id = some c)
      (running : c.phase.ended = false) (calls : w'.calls = w.calls.set id c')
      (pending : Shrunk w w') (gone : c'.phase.ended = true → w'.pending.get? id = none)
      (serverId : c'.serverId = c.serverId) (frameType : c'.frameType = c.frameType)
      (returned : ∀ r, c'.phase = .returned r → c.future = .result r)
      (result : ∀ r, c'.future = .result r → c.future = .result r ∨ Received w a id c r)

/-- An entry is of a call that still runs, under its response type; whatever a
call was answered with is an answer. -/
structure Valid (w : World) : Prop where
  entry : ∀ id expected, w.pending.get? id = some expected → ∃ c, w.calls.get? id = some c ∧
    rpcRequestToResponse.lookup c.frameType = some expected ∧ c.phase.ended = false
  result : ∀ id c r, w.calls.get? id = some c → c.future = .result r → Answers id c r
  returned : ∀ id c r, w.calls.get? id = some c → c.phase = .returned r → Answers id c r

section Steps

variable {w w' : World} {a : Action}

theorem cancel_eq_result {future : Future} {r : Receipt} (h : future.cancel = .result r) :
    future = .result r := by
  cases future with
  | pending => cases h
  | _ => exact h

/-- A call that ends, by returning the payload of its result or by raising. -/
theorem stepCase_finish {id : String} {c : Call} {phase : Phase} (hc : w.calls.get? id = some c)
    (hrunning : c.phase.ended = false) (hreturned : ∀ r, phase = .returned r → c.future = .result r) :
    StepCase w a (w.finish id c phase) :=
  .moved id c _ hc hrunning rfl (Shrunk.erase id) (fun _ => by simp [World.finish, Dict.get?_erase])
    rfl rfl hreturned fun _ hr => Or.inl (cancel_eq_result hr)

theorem stepCase_deliver {conn serverId : Nat} {frame : Envelope} (h : Valid w)
    (hconn : w.conns.get? conn = some serverId) :
    StepCase w (.receive conn frame true) (w.deliverResponse serverId frame).1 := by
  unfold deliverResponse
  split
  · exact .idle rfl fun _ _ hp => hp
  · next id hid =>
      split
      · exact .idle rfl fun _ _ hp => hp
      · next expected hexpected =>
          obtain ⟨c, hc, htype, hrunning⟩ := h.entry id expected hexpected
          simp only [hc]
          have hgone : c.phase.ended = true → (w.pending.erase id).get? id = none :=
            fun hended => absurd hended (by rw [hrunning]; decide)
          split
          · exact .idle rfl (Shrunk.erase id)
          · next hopen =>
              split
              · exact .moved id c _ hc hrunning rfl (Shrunk.erase id) hgone rfl rfl
                  (fun r hr => by rw [show c.phase = _ from hr] at hrunning; cases hrunning)
                  (fun _ hr => by cases hr)
              · next hsame =>
                  have hsame : frame.type = expected := not_not.mp hsame
                  refine .moved id c _ hc hrunning rfl (Shrunk.erase id) hgone rfl rfl
                    (fun r hr => by rw [show c.phase = _ from hr] at hrunning; cases hrunning) ?_
                  intro r hr
                  obtain rfl := Future.result.inj hr
                  exact Or.inr ⟨⟨conn, rfl, hconn⟩, hid, hsame ▸ hexpected, by simpa using hopen⟩

theorem stepCase_of_step (h : Valid w) (hstep : w.step a = some w') : StepCase w a w' := by
  cases a with
  | connect conn serverId =>
      simp only [step, Option.ite_none_left_eq_some, Option.some.injEq] at hstep
      exact hstep.2 ▸ .idle rfl fun _ _ hp => hp
  | loopEnds conn =>
      obtain ⟨serverId, -, rfl⟩ := Option.map_eq_some_iff.mp hstep
      exact .idle rfl fun _ _ hp => hp
  | call id serverId frameType =>
      simp only [step, Option.ite_none_left_eq_some, Option.some.injEq] at hstep
      obtain ⟨hfresh, rfl⟩ := hstep
      unfold World.call
      split
      · next expected _ hexpected _ =>
          exact .opened id _ expected (by simpa using hfresh) rfl rfl hexpected rfl rfl
      · exact .idle rfl fun _ _ hp => hp
  | sent id =>
      obtain ⟨c, hc, hsent⟩ := Option.bind_eq_some_iff.mp hstep
      split at hsent
      · next hphase =>
          obtain rfl := Option.some.inj hsent
          exact .moved id c _ hc (by rw [hphase]; rfl) rfl (fun _ _ hp => hp) (fun he => by cases he)
            rfl rfl (fun _ hr => by cases hr) fun _ hr => Or.inl hr
      · cases hsent
  | receive conn frame approved =>
      obtain ⟨serverId, hconn, rfl⟩ := Option.map_eq_some_iff.mp hstep
      split
      · next hok => exact hok.1 ▸ stepCase_deliver h hconn
      · exact .idle rfl fun _ _ hp => hp
  | returns id =>
      obtain ⟨c, hc, hresume⟩ := Option.bind_eq_some_iff.mp hstep
      unfold resume at hresume
      split at hresume
      · next r hphase hfuture =>
          obtain rfl := Option.some.inj hresume
          exact stepCase_finish hc (by rw [hphase]; rfl) fun q hq => by
            rw [hfuture, Phase.returned.inj hq]
      · next hphase hfuture =>
          obtain rfl := Option.some.inj hresume
          exact stepCase_finish hc (by rw [hphase]; rfl) fun _ hq => by cases hq
      · cases hresume
  | timesOut id =>
      obtain ⟨c, hc, htimeout⟩ := Option.bind_eq_some_iff.mp hstep
      split at htimeout
      · next hphase =>
          obtain rfl := Option.some.inj htimeout
          exact .moved id c _ hc (by rw [hphase]; rfl) rfl (fun _ _ hp => hp) (fun he => by cases he)
            rfl rfl (fun _ hr => by cases hr) fun _ hr => Or.inl (cancel_eq_result hr)
      · cases htimeout
  | raises id =>
      obtain ⟨c, hc, hraise⟩ := Option.bind_eq_some_iff.mp hstep
      split at hraise
      · cases hraise
      · next hrunning =>
          obtain rfl := Option.some.inj hraise
          exact stepCase_finish hc (by simpa using hrunning) fun _ hq => by cases hq
  | expectOptional id frameType =>
      obtain rfl := Option.some.inj hstep
      unfold expectOptionalResponse
      split <;> exact .idle rfl fun _ _ hp => hp

/-! ## the invariant -/

/-- A response of the server that was asked answers the call. -/
theorem Received.answers {id : String} {c : Call} {r : Receipt} (hr : Received w a id c r)
    (h : Valid w) (hok : OwnServer w a) (hc : w.calls.get? id = some c) : Answers id c r := by
  obtain ⟨conn, rfl, hconn⟩ := hr.action
  obtain ⟨d, hd, htype, -⟩ := h.entry id _ hr.type
  obtain rfl : c = d := Option.some.inj (hc.symm.trans hd)
  have hserver := hok rfl r.serverId hconn id hr.correlationId hr.type c hc hr.waiting
  exact ⟨hr.correlationId, htype, hserver.symm⟩

theorem Answers.congr {id : String} {c c' : Call} {r : Receipt} (h : Answers id c r)
    (hserver : c'.serverId = c.serverId) (htype : c'.frameType = c.frameType) : Answers id c' r :=
  ⟨h.correlationId, htype ▸ h.type, h.serverId.trans hserver.symm⟩

theorem valid_step (h : Valid w) (hok : OwnServer w a) (hstep : w.step a = some w') : Valid w' := by
  cases stepCase_of_step h hstep with
  | idle calls pending =>
      refine ⟨fun id expected he => ?_, fun id c r hc => ?_, fun id c r hc => ?_⟩
      · rw [calls]
        exact h.entry id expected (pending id expected he)
      · exact h.result id c r (calls ▸ hc)
      · exact h.returned id c r (calls ▸ hc)
  | opened id c expected fresh calls pending type phase future =>
      refine ⟨fun j e he => ?_, fun j d r hd hr => ?_, fun j d r hd hr => ?_⟩
      · rw [pending, Dict.get?_set] at he
        rw [calls, Dict.get?_set]
        split
        · next hj =>
            rw [if_pos hj, Option.some.injEq] at he
            exact ⟨c, rfl, he ▸ type, by rw [phase]; rfl⟩
        · next hj => exact h.entry j e (by rwa [if_neg hj] at he)
      all_goals rw [calls, Dict.get?_set] at hd; split at hd
      · rw [← Option.some.inj hd, future] at hr
        cases hr
      · exact h.result j d r hd hr
      · rw [← Option.some.inj hd, phase] at hr
        cases hr
      · exact h.returned j d r hd hr
  | moved id c c' get running calls pending gone serverId frameType returned result =>
      refine ⟨fun j e he => ?_, fun j d r hd hr => ?_, fun j d r hd hr => ?_⟩
      · obtain ⟨d, hd, htype, hrunning⟩ := h.entry j e (pending j e he)
        rw [calls, Dict.get?_set]
        split
        · next hj =>
            subst hj
            obtain rfl : c = d := Option.some.inj (get.symm.trans hd)
            refine ⟨c', rfl, frameType ▸ htype, ?_⟩
            by_contra hended
            rw [gone (by simpa using hended)] at he
            cases he
        · exact ⟨d, hd, htype, hrunning⟩
      all_goals rw [calls, Dict.get?_set] at hd; split at hd
      · next hj =>
          subst hj
          obtain rfl := Option.some.inj hd
          refine Answers.congr (c := c) ?_ serverId frameType
          rcases result r hr with hold | hnew
          · exact h.result _ c r get hold
          · exact hnew.answers h hok get
      · exact h.result j d r hd hr
      · next hj =>
          subst hj
          obtain rfl := Option.some.inj hd
          exact (h.result _ c r get (returned r hr)).congr serverId frameType
      · exact h.returned j d r hd hr

/-- A call that ended is not touched again. -/
theorem ended_step (h : Valid w) (hstep : w.step a = some w') {id : String} {c : Call}
    (hc : w.calls.get? id = some c) (hended : c.phase.ended = true) :
    w'.calls.get? id = some c := by
  cases stepCase_of_step h hstep with
  | idle calls _ => rw [calls, hc]
  | opened j d expected fresh calls _ _ _ _ =>
      have hne : id ≠ j := by
        rintro rfl
        rw [fresh] at hc
        cases hc
      rw [calls, Dict.get?_set, if_neg hne, hc]
  | moved j d d' get running calls _ _ _ _ _ _ =>
      have hne : id ≠ j := by
        rintro rfl
        obtain rfl : c = d := Option.some.inj (hc.symm.trans get)
        rw [running] at hended
        cases hended
      rw [calls, Dict.get?_set, if_neg hne, hc]

theorem correlated_step (h : Valid w) (hok : OwnServer w a) (hstep : w.step a = some w') :
    Correlated w w' := by
  have hvalid := valid_step h hok hstep
  refine ⟨fun id c hc hended => ended_step h hstep hc hended, hvalid.returned, ?_⟩
  intro id c hc hended
  by_contra hentry
  obtain ⟨expected, hexpected⟩ := Option.ne_none_iff_exists'.mp hentry
  obtain ⟨d, hd, -, hrunning⟩ := hvalid.entry id expected hexpected
  obtain rfl : c = d := Option.some.inj (hc.symm.trans hd)
  rw [hrunning] at hended
  cases hended

end Steps

/-- **Responses go to the calls they answer**, in any run in which no agent
answers a call to another one: each call ends at most once, returns the payload
of a frame with its id, of its response type and from the server it asked, and
leaves no entry. -/
theorem correlated_run {w : World} {as : List Action} (hw : Started w)
    (hok : Meets step OwnServer w as) : Along step (fun s _ t => Correlated s t) w as := by
  have hnone : ∀ id c, w.calls.get? id = some c → False := by
    intro id c hc
    rw [Dict.get?_eq_some_iff, hw.2] at hc
    cases hc
  have hinit : Valid w := by
    refine ⟨fun id expected he => ?_, fun id c r hc => (hnone id c hc).elim,
      fun id c r hc => (hnone id c hc).elim⟩
    rw [Dict.get?_eq_some_iff, hw.1] at he
    cases he
  exact along_of_invariant
    (fun _ _ _ hs hok ht => ⟨valid_step hs hok ht, correlated_step hs hok ht⟩) hinit hok

/-- Two agents are connected. -/
def twoAgents : World :=
  { pool := (Dict.empty.set 1 10).set 2 20, conns := (Dict.empty.set 10 1).set 20 2
    pending := .empty, optionalResponses := .empty, calls := .empty }

/-- The answer to a key push. -/
def pushResponse (correlationId : String) : Envelope :=
  { type := "agent.authorized_key.push.response", id := "r"
    payload := .obj [("written", .bool true)], correlationId := some correlationId }

/-- Two pushes; one times out and is answered late, the other one is answered twice. -/
def twoPushes : List Action :=
  [.call "a" 1 "backend.authorized_key.push", .call "b" 2 "backend.authorized_key.push", .sent "a",
   .sent "b", .timesOut "a", .raises "a", .receive 10 (pushResponse "a") true,
   .receive 20 (pushResponse "b") true, .receive 20 (pushResponse "b") true, .returns "b"]

theorem correlated_run_twoPushes :
    ((exec step twoAgents twoPushes).map fun w => w.pending.entries) = some [] ∧
    Along step (fun s _ t => Correlated s t) twoAgents twoPushes :=
  ⟨by decide +kernel, correlated_run ⟨rfl, rfl⟩ (by decide +kernel)⟩

/-- A push to server 1, answered by the agent of server 2. -/
def answeredByOther : World :=
  (exec step twoAgents [.call "a" 1 "backend.authorized_key.push", .sent "a",
    .receive 20 (pushResponse "a") true]).get (by decide +kernel)

/-- The server a call asked, and the one whose payload it returned. -/
def askedAndAnswered (w : World) (id : String) : Option (Nat × Nat) :=
  (w.calls.get? id).bind fun c => match c.phase with
    | .returned r => some (c.serverId, r.serverId)
    | _ => none

theorem askedAndAnswered_eq_some {w : World} {id : String} {s t : Nat}
    (h : askedAndAnswered w id = some (s, t)) :
    ∃ c r, w.calls.get? id = some c ∧ c.phase = .returned r ∧ c.serverId = s ∧ r.serverId = t := by
  obtain ⟨c, hc, h⟩ := Option.bind_eq_some_iff.mp h
  split at h
  · next r hr =>
      obtain ⟨hs, ht⟩ := Prod.mk.inj (Option.some.inj h)
      exact ⟨c, r, hc, hr, hs, ht⟩
  · cases h

theorem not_correlated : ¬ ∀ (w : World) (as : List Action), Started w →
    Along step (fun s _ t => Correlated s t) w as := by
  intro h
  have halong := h twoAgents ([.call "a" 1 "backend.authorized_key.push", .sent "a",
    .receive 20 (pushResponse "a") true] ++ [.returns "a"]) ⟨rfl, rfl⟩
  have hreturned : (answeredByOther.step (.returns "a")).bind (askedAndAnswered · "a") =
      some (1, 2) := by decide +kernel
  obtain ⟨w', hw', hserver⟩ := Option.bind_eq_some_iff.mp hreturned
  obtain ⟨c, r, hc, hr, hasked, hanswered⟩ := askedAndAnswered_eq_some hserver
  have hcorrelated := halong.step_of_exec (Option.some_get _).symm hw'
  have hsame := (hcorrelated.answered "a" c r hc hr).serverId
  rw [hasked, hanswered] at hsame
  cases hsame

end RpcCorrelation

end CoreLab
