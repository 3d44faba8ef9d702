import CoreLab.AccountLinkRequests
import CoreLab.Lib.Transition
import CoreLab.Operations

/-!
# CoreLab.KeyBookkeeping

The rows and the hosts together, over requests, approvals, retries, revoked links
and whatever else moves the database, with every outcome of every call to an
agent.

* `booked_step` — a step keeps every pushed line on record, as long as what is
  pushed can be read back, no push is carried out unseen and no entry is removed
  without its line;
* `bookkeeping_run` — so does a run, and in it no approval collides with the unique
  index;
* `not_booked` — a key that was revoked and is approved again does.
-/

namespace CoreLab

open Relational Transition Loops Lines

namespace KeyBookkeeping

open AccountLinkRequests
open AuthorizedKeys (Digest hasFingerprint sampleDigest)
open KeyReadback (keptFingerprint)
open Operations (Operation)
open AgentWs (Backend)

/-! ## the system -/

/-- The database, the registry of pending kills that some frames read, and the hosts. -/
structure World where
  rows : Rows
  kills : PendingKills
  hosts : Hosts

/-- One request to the backend, or one event on a host. -/
inductive Action where
  | createRequest (requesterUserId physicalAccountId : Nat) (requestNote : Option String) (labId : Nat)
  | approve (requestId : Nat) (decisionNote : Option String) (adminUserId labId : Nat) (now : Time)
      (outcome : RpcOutcome)
  | retryPush (requestId adminUserId labId : Nat) (now : Time) (outcome : RpcOutcome)
  | deny (requestId : Nat) (decisionNote : Option String) (adminUserId labId : Nat) (now : Time)
  | withdraw (requestId requesterUserId labId : Nat) (now : Time)
  | revokeLink (linkId labId actorUserId : Nat) (reason : RevokeReason) (revokeKey : Bool) (now : Time)
      (outcome : Nat → RpcOutcome)
  | addKey (ownerUserId : Nat) (publicKey : Line)
  | removeKey (keyId ownerUserId : Nat)
  | operation (op : Operation)
  | handled (n : Nat)
  | edited (u : HostUser) (file : HostFile)

/-- The rows after a session: committed, or rolled back. -/
def World.settle (w : World) (result : Except ServiceError Rows) : World :=
  match result with
  | .ok rows => { w with rows := rows }
  | .error _ => w

/-- The rows after a session, and what it left on the hosts, which no rollback undoes. -/
def World.after (w : World) (result : Hosts × Except ServiceError Rows) : World :=
  { w with hosts := result.1 }.settle result.2

/-- One step.  A request that nobody waits for is handled at any time, once, or never; a user
edits the file as they like, but writes no line of CoreLab's. -/
def step (digest : Digest) (w : World) : Action → Option World
  | .createRequest requesterUserId paId requestNote labId =>
    some (w.settle (createRequest w.rows requesterUserId paId requestNote labId))
  | .approve requestId decisionNote adminUserId labId now outcome =>
    some (w.after (approveRequest digest w.rows w.hosts requestId decisionNote adminUserId labId
      now outcome))
  | .retryPush requestId adminUserId labId now outcome =>
    some (w.after (retryPushForRequest digest w.rows w.hosts requestId adminUserId labId now outcome))
  | .deny requestId decisionNote adminUserId labId now =>
    some (w.settle (denyRequest w.rows requestId decisionNote adminUserId labId now))
  | .withdraw requestId requesterUserId labId now =>
    some (w.settle (withdrawRequest w.rows requestId requesterUserId labId now))
  | .revokeLink linkId labId actorUserId reason revokeKey now outcome =>
    some (w.after
      (AccountLinkRequests.revokeLink digest w.rows w.hosts linkId labId actorUserId reason revokeKey
        now outcome))
  | .addKey ownerUserId publicKey => some (w.settle (addKey digest w.rows ownerUserId publicKey))
  | .removeKey keyId ownerUserId => some (w.settle (removeKey w.rows keyId ownerUserId))
  | .operation op => (Operations.step ⟨w.rows.db, w.kills⟩ op).map fun b =>
    { w with rows := { w.rows with db := b.db }, kills := b.kills }
  | .handled n => w.hosts.inFlight[n]?.map fun f =>
    { w with hosts :=
      { w.hosts.carryOut digest f.1 f.2 with inFlight := w.hosts.inFlight.eraseIdx n } }
  | .edited u file =>
    if ∀ l ∈ file.lines, l.pushed.isSome → l ∈ w.hosts.lines u then
      some { w with hosts := { w.hosts with files := Function.update w.hosts.files u file } }
    else none

/-! ## what is promised -/

/-- Every line that CoreLab pushed and that is still on a host has an active entry. -/
def Booked (w : World) : Prop :=
  ∀ u, ∀ l ∈ w.hosts.lines u, ∀ paId keyId, l.pushed = some (paId, keyId) →
    w.rows.entries.Active paId keyId

/-- An approval does not collide with the unique index. -/
def Inserts (digest : Digest) (w : World) : Action → Prop
  | .approve requestId decisionNote adminUserId labId now outcome =>
    (approveRequest digest w.rows w.hosts requestId decisionNote adminUserId labId now outcome).2 ≠
      .error .integrityError
  | _ => True

/-- The key is one that the parser has accepted. -/
def Accepted (digest : Digest) (k : SshPublicKey) : Prop :=
  keptFingerprint digest k.publicKey = some k.fingerprintSha256

/-- No key was pushed yet. -/
structure Fresh (digest : Digest) (w : World) : Prop where
  entries : w.rows.entries.table.rows = []
  keys : ∀ k ∈ w.rows.sshKeys.rows, Accepted digest k
  lines : ∀ u, ∀ l ∈ w.hosts.lines u, l.pushed = none
  inFlight : w.hosts.inFlight = []

/-! ## the condition -/

/-- A push that is carried out, and that writes a line into the file, writes one that is read back;
and the service hears of it, or the entry is there already. -/
def Heard (digest : Digest) (w : World) (u : HostUser) (c : KeyCommand) (outcome : RpcOutcome) :
    Prop :=
  outcome.carriedOut = true → c.adds digest (w.hosts.files u) = true →
    c.Legible digest ∧ (outcome = .answered ∨ match c with
      | .push _ _ paId keyId => w.rows.entries.Active paId keyId
      | .revoke _ => True)

instance (digest : Digest) (w : World) (u : HostUser) (c : KeyCommand) (outcome : RpcOutcome) :
    Decidable (Heard digest w u c outcome) := by
  unfold Heard
  cases c <;> infer_instance

/-- An entry is removed with its lines. -/
def RemovedWithLines (w : World) (pa : PhysicalAccount) (outcome : Nat → RpcOutcome)
    (e : AuthorizedKeyEntry) : Prop :=
  (outcome e.id).carriedOut = true ∨
    ∀ l ∈ w.hosts.lines (hostUser pa), l.pushed ≠ some (pa.id, e.sshPublicKeyId)

instance (w : World) (pa : PhysicalAccount) (outcome : Nat → RpcOutcome) (e : AuthorizedKeyEntry) :
    Decidable (RemovedWithLines w pa outcome e) := inferInstanceAs (Decidable (_ ∨ _))

/-- The session is rolled back after an unexpected error of a call. -/
def BreaksOff (w : World) (outcome : Nat → RpcOutcome) (e : AuthorizedKeyEntry) : Prop :=
  (w.rows.sshKeys.get? e.sshPublicKeyId).isSome = true ∧ (outcome e.id).reply true = .error .other

instance (w : World) (outcome : Nat → RpcOutcome) (e : AuthorizedKeyEntry) :
    Decidable (BreaksOff w outcome e) := inferInstanceAs (Decidable (_ ∧ _))

/-- Files and rows change together: an approval that is answered has no earlier entry of
the account and the key, no push is carried out unheard of or writes what is not read back, and no
entry is removed while its line stays. -/
def Together (digest : Digest) (w : World) : Action → Prop
  | .approve requestId _ _ labId _ outcome =>
    ∀ p ∈ (loadPush w.rows requestId labId .pending "pending can be approved").toOption,
      (Answers digest (pushCommand p.1 p.2.1 p.2.2 "") outcome →
        w.rows.entries.find? p.2.1.id p.2.2.id = none) ∧
        Heard digest w (hostUser p.2.1) (pushCommand p.1 p.2.1 p.2.2 "") outcome
  | .retryPush requestId _ labId _ outcome =>
    ∀ p ∈ (loadPush w.rows requestId labId .approved "approved can retry key push").toOption,
      Heard digest w (hostUser p.2.1) (pushCommand p.1 p.2.1 p.2.2 ";retry=1") outcome
  | .revokeLink linkId labId _ _ revokeKey _ outcome =>
    ∀ p ∈ (loadLinkInLab w.rows.db linkId labId).toOption, p.1.isActive = true → revokeKey = true →
      (∃ e ∈ revokedEntries w.rows p.1 p.2, BreaksOff w outcome e) ∨
        ∀ e ∈ revokedEntries w.rows p.1 p.2, RemovedWithLines w p.2 outcome e
  -- nobody hears of it
  | .handled n => ∀ f ∈ w.hosts.inFlight[n]?, Heard digest w f.1 f.2 (.timedOut true)
  | _ => True

instance (digest : Digest) (w : World) : ∀ a, Decidable (Together digest w a)
  | .approve .. | .retryPush .. | .revokeLink .. =>
    inferInstanceAs (Decidable (∀ p ∈ Except.toOption _, _))
  | .handled n => inferInstanceAs (Decidable (∀ f ∈ w.hosts.inFlight[n]?, _))
  | .createRequest .. | .deny .. | .withdraw .. | .addKey .. | .removeKey .. | .operation _
  | .edited .. => inferInstanceAs (Decidable True)

/-! ## the invariant -/

/-- Accounts and keys stay what they are, and keys are accepted; entries may change. -/
structure Later (digest : Digest) (rows rows' : Rows) : Prop where
  accounts : rows.db.physicalAccounts.Extends (fun p p' => hostUser p' = hostUser p)
    rows'.db.physicalAccounts
  keys : rows.sshKeys.Extends (fun k k' => k'.fingerprintSha256 = k.fingerprintSha256) rows'.sshKeys
  accepted : (∀ k ∈ rows.sshKeys.rows, Accepted digest k) → ∀ k ∈ rows'.sshKeys.rows, Accepted digest k

theorem later_refl (digest : Digest) (rows : Rows) : Later digest rows rows :=
  ⟨Table.extends_refl (fun pa => Eq.refl (hostUser pa)) _,
    Table.extends_refl (fun k => Eq.refl k.fingerprintSha256) _, id⟩

theorem later_of_eq {digest : Digest} {rows rows' : Rows} (hdb : rows'.db = rows.db)
    (hkeys : rows'.sshKeys = rows.sshKeys) : Later digest rows rows' := by
  have hsame := later_refl digest rows
  exact ⟨hdb ▸ hsame.accounts, hkeys ▸ hsame.keys, hkeys ▸ hsame.accepted⟩

/-- The account and the key of a push, which is of the fingerprint and goes to the user. -/
structure Named (rows : Rows) (u : HostUser) (fingerprint : String) (paId keyId : Nat) : Prop where
  account : ∃ pa, rows.db.physicalAccounts.get? paId = some pa ∧ hostUser pa = u
  key : ∃ k, rows.sshKeys.get? keyId = some k ∧ k.fingerprintSha256 = fingerprint

theorem Named.later {digest : Digest} {rows rows' : Rows} {u : HostUser} {fingerprint : String} {paId keyId : Nat}
    (h : Named rows u fingerprint paId keyId) (hlater : Later digest rows rows') :
    Named rows' u fingerprint paId keyId := by
  obtain ⟨⟨pa, hpa, hu⟩, k, hk, hf⟩ := h
  obtain ⟨pa', hpa', hsame⟩ := hlater.accounts _ pa hpa
  obtain ⟨k', hk', hsame'⟩ := hlater.keys _ k hk
  exact ⟨⟨pa', hpa', hsame.trans hu⟩, k', hk', hsame'.trans hf⟩

theorem named_of_loadPush {rows : Rows} {requestId labId : Nat} {status : RequestStatus} {rule : String}
    {row : AccountLinkRequest} {pa : PhysicalAccount} {key : SshPublicKey}
    (h : loadPush rows requestId labId status rule = .ok (row, pa, key)) :
    Named rows (hostUser pa) key.fingerprintSha256 pa.id key.id := by
  obtain ⟨hpa, hkey⟩ := loadPush_stored h
  exact ⟨⟨pa, hpa, rfl⟩, key, hkey, rfl⟩

/-- Every key is accepted; every pushed line, and every push that is under way, names its account and
its key; and every pushed line has an active entry. -/
structure Inv (digest : Digest) (w : World) : Prop where
  keys : ∀ k ∈ w.rows.sshKeys.rows, Accepted digest k
  lines : ∀ u, ∀ l ∈ w.hosts.lines u, ∀ paId keyId, l.pushed = some (paId, keyId) →
    ∃ fingerprint, hasFingerprint digest fingerprint l.text = true ∧
      Named w.rows u fingerprint paId keyId
  inFlight : ∀ u publicKey label paId keyId,
    (u, KeyCommand.push publicKey label paId keyId) ∈ w.hosts.inFlight →
      ∃ fingerprint, keptFingerprint digest publicKey = some fingerprint ∧
        Named w.rows u fingerprint paId keyId
  booked : Booked w

variable {digest : Digest} {w : World}

/-- The hosts stay, and no entry is removed. -/
theorem Inv.ofRows {rows' : Rows} {kills : PendingKills} (h : Inv digest w)
    (hlater : Later digest w.rows rows')
    (hactive : ∀ paId keyId, w.rows.entries.Active paId keyId → rows'.entries.Active paId keyId) :
    Inv digest { w with rows := rows', kills := kills } where
  keys := hlater.accepted h.keys
  lines u l hl paId keyId hp := (h.lines u l hl paId keyId hp).imp fun _ hn => ⟨hn.1, hn.2.later hlater⟩
  inFlight u publicKey label paId keyId hf := (h.inFlight u publicKey label paId keyId hf).imp
    fun _ hn => ⟨hn.1, hn.2.later hlater⟩
  booked u l hl paId keyId hp := hactive paId keyId (h.booked u l hl paId keyId hp)

theorem Inv.settle {result : Except ServiceError Rows} (h : Inv digest w)
    (hrows : ∀ rows', result = .ok rows' →
      Later digest w.rows rows' ∧ rows'.entries = w.rows.entries) :
    Inv digest (w.settle result) := by
  cases result with
  | error e => exact h
  | ok rows' =>
      obtain ⟨hlater, hentries⟩ := hrows rows' rfl
      exact h.ofRows hlater fun _ _ hactive => hentries ▸ hactive

/-- A push that is carried out finds an active entry, afterwards, for a line that it adds. -/
theorem Inv.push {rows' : Rows} {u : HostUser} {publicKey label : Line} {fingerprint : String}
    {paId keyId : Nat} {outcome : RpcOutcome} (h : Inv digest w)
    (hkept : keptFingerprint digest publicKey = some fingerprint)
    (hnamed : Named w.rows u fingerprint paId keyId) (hlater : Later digest w.rows rows')
    (hactive : ∀ paId keyId, w.rows.entries.Active paId keyId → rows'.entries.Active paId keyId)
    (hnew : outcome.carriedOut = true →
      (KeyCommand.push publicKey label paId keyId).adds digest (w.hosts.files u) = true →
        (KeyCommand.push publicKey label paId keyId).Legible digest ∧
          rows'.entries.Active paId keyId) :
    Inv digest { w with
      rows := rows'
      hosts := (requestResponse digest w.hosts u (.push publicKey label paId keyId) outcome).1 } := by
  refine ⟨hlater.accepted h.keys, fun v l hl p k hp => ?_, fun v pk lb p k hf => ?_,
    fun v l hl p k hp => ?_⟩
  · rcases mem_lines_of_push hl with hl | ⟨rfl, hout, hadds, hpushed, line, hline, htext⟩
    · exact (h.lines v l hl p k hp).imp fun _ hn => ⟨hn.1, hn.2.later hlater⟩
    · obtain ⟨rfl, rfl⟩ := Prod.mk.inj (Option.some.inj (hpushed.symm.trans hp))
      -- the line is read back as it was written
      have hbreaks := (hnew hout hadds).1 line (by rw [hline]; rfl)
      rw [splitlines_line hbreaks, List.mem_singleton] at htext
      refine ⟨fingerprint, ?_, hnamed.later hlater⟩
      rw [htext]
      exact KeyReadback.hasFingerprint_of_keptFingerprint hkept hline
  · rcases inFlight_requestResponse hf with hf | hsent
    · exact (h.inFlight v pk lb p k hf).imp fun _ hn => ⟨hn.1, hn.2.later hlater⟩
    · simp only [Prod.mk.injEq, KeyCommand.push.injEq] at hsent
      obtain ⟨rfl, rfl, rfl, rfl, rfl⟩ := hsent
      exact ⟨fingerprint, hkept, hnamed.later hlater⟩
  · rcases mem_lines_of_push hl with hl | ⟨rfl, hout, hadds, hpushed, -⟩
    · exact hactive p k (h.booked v l hl p k hp)
    · obtain ⟨rfl, rfl⟩ := Prod.mk.inj (Option.some.inj (hpushed.symm.trans hp))
      exact (hnew hout hadds).2

/-- A push that writes a line is accepted. -/
theorem accepted_of_adds {f : HostFile} {c : KeyCommand} (h : c.adds digest f = true) :
    c.accepted digest = true := by
  cases c with
  | revoke fingerprint => rfl
  | push publicKey label paId keyId =>
      simp only [KeyCommand.adds] at h
      split at h
      · cases h
      · next desired fingerprint hpush =>
          obtain ⟨line, hline, -⟩ := AuthorizedKeys.push_ok hpush
          simp only [KeyCommand.accepted, hline]
          rfl

/-- A push that nobody hears of, and that writes a line, has an active entry. -/
theorem active_of_heard {u : HostUser} {publicKey label : Line} {paId keyId : Nat}
    {outcome : RpcOutcome} (h : Heard digest w u (.push publicKey label paId keyId) outcome)
    (hunheard : ¬ Answers digest (.push publicKey label paId keyId) outcome)
    (hout : outcome.carriedOut = true)
    (hadds : (KeyCommand.push publicKey label paId keyId).adds digest (w.hosts.files u) = true) :
    (KeyCommand.push publicKey label paId keyId).Legible digest ∧
      w.rows.entries.Active paId keyId := by
  obtain ⟨hlegible, hactive⟩ := h hout hadds
  exact ⟨hlegible, hactive.resolve_left fun hanswered =>
    hunheard ⟨hanswered, accepted_of_adds hadds⟩⟩

/-! ## steps -/

section Steps

variable {requestId labId adminUserId : Nat} {decisionNote : Option String} {now : Time}
  {outcome : RpcOutcome}

theorem Inv.kept {status : RequestStatus} {rule : String} {row : AccountLinkRequest}
    {pa : PhysicalAccount} {key : SshPublicKey} (h : Inv digest w)
    (hload : loadPush w.rows requestId labId status rule = .ok (row, pa, key)) :
    keptFingerprint digest key.publicKey = some key.fingerprintSha256 :=
  h.keys key (Table.mem_of_get? (loadPush_stored hload).2)

theorem inv_approve (h : Inv digest w)
    (hok : Together digest w (.approve requestId decisionNote adminUserId labId now outcome)) :
    Inv digest (w.after
        (approveRequest digest w.rows w.hosts requestId decisionNote adminUserId labId now outcome)) ∧
      Inserts digest w (.approve requestId decisionNote adminUserId labId now outcome) := by
  unfold Inserts
  dsimp only
  cases hload : loadPush w.rows requestId labId .pending "pending can be approved" with
  | error e =>
      have herror : approveRequest digest w.rows w.hosts requestId decisionNote adminUserId labId now outcome =
          (w.hosts, .error e) := by rw [approveRequest, hload]
      rw [herror]
      exact ⟨h, fun hinsert => loadPush_error hload (Except.error.inj hinsert)⟩
  | ok p =>
      obtain ⟨row, pa, key⟩ := p
      obtain ⟨hfree, hheard⟩ := hok (row, pa, key) (by rw [hload]; rfl)
      have hnamed := named_of_loadPush hload
      obtain ⟨result, heq, hcases⟩ :=
        approveRequest_cases digest w.hosts decisionNote adminUserId now outcome hload
      rw [heq]
      have hkept := h.kept hload
      rcases hcases with
        ⟨hanswers, ⟨hinsert, -⟩ | ⟨entries, hinsert, rfl⟩⟩ | ⟨hunheard, hresult⟩
      · exact absurd (hfree hanswers) (EntryTable.insert?_eq_none_iff.mp hinsert)
      · obtain ⟨hnew, hactive⟩ := EntryTable.active_of_insert? hinsert
        have hlater : Later digest w.rows (decide { w.rows with entries := entries } row .approved
            (some adminUserId) now decisionNote) := later_of_eq rfl rfl
        refine ⟨?_, fun hinsert => by cases hinsert⟩
        exact h.push hkept hnamed hlater hactive fun hout hadds => ⟨(hheard hout hadds).1, hnew⟩
      · have hactive := fun hout hadds => active_of_heard hheard hunheard hout hadds
        rcases hresult with rfl | rfl
        · exact ⟨h.push hkept hnamed (later_refl digest w.rows) (fun _ _ => id) hactive,
            fun hinsert => by cases hinsert⟩
        · exact ⟨h.push hkept hnamed (later_of_eq rfl rfl) (fun _ _ => id) hactive,
            fun hinsert => by cases hinsert⟩

theorem inv_retryPush (h : Inv digest w) (hok : Together digest w (.retryPush requestId adminUserId labId now outcome)) :
    Inv digest (w.after (retryPushForRequest digest w.rows w.hosts requestId adminUserId labId now outcome)) := by
  cases hload : loadPush w.rows requestId labId .approved "approved can retry key push" with
  | error e =>
      have herror : retryPushForRequest digest w.rows w.hosts requestId adminUserId labId now outcome =
          (w.hosts, .error e) := by rw [retryPushForRequest, hload]
      rw [herror]
      exact h
  | ok p =>
      obtain ⟨row, pa, key⟩ := p
      have hheard := hok (row, pa, key) (by rw [hload]; rfl)
      have hnamed := named_of_loadPush hload
      have hkept := h.kept hload
      rcases retryPushForRequest_cases digest w.hosts adminUserId now outcome hload with
        heq | ⟨result, heq, ⟨-, entries, rfl, hnew, hactive⟩ | ⟨hunheard, hresult⟩⟩
      · rw [heq]
        exact h
      · rw [heq]
        have hlater : Later digest w.rows { w.rows with entries := entries } := later_of_eq rfl rfl
        exact h.push hkept hnamed hlater hactive fun hout hadds => ⟨(hheard hout hadds).1, hnew⟩
      · rw [heq]
        have hactive := fun hout hadds => active_of_heard hheard hunheard hout hadds
        rcases hresult with rfl | rfl
        · exact h.push hkept hnamed (later_refl digest w.rows) (fun _ _ => id) hactive
        · exact h.push hkept hnamed (later_refl digest w.rows) (fun _ _ => id) hactive

end Steps

section Revoke

variable {linkId labId actorUserId : Nat} {reason : RevokeReason} {revokeKey : Bool} {now : Time}
  {outcome : Nat → RpcOutcome}

/-- Lines are removed, and nothing but revokes is sent. -/
theorem Inv.revoke {rows' : Rows} {hosts : Hosts} (h : Inv digest w) (hlater : Later digest w.rows rows')
    (hlines : ∀ u, ∀ l ∈ hosts.lines u, l ∈ w.hosts.lines u)
    (hsent : ∀ f ∈ hosts.inFlight, f ∈ w.hosts.inFlight ∨ ∃ fingerprint, f.2 = .revoke fingerprint)
    (hbooked : ∀ u, ∀ l ∈ hosts.lines u, ∀ paId keyId, l.pushed = some (paId, keyId) →
      rows'.entries.Active paId keyId) : Inv digest { w with rows := rows', hosts := hosts } := by
  refine ⟨hlater.accepted h.keys, fun u l hl paId keyId hp => ?_,
    fun u publicKey label paId keyId hf => ?_, hbooked⟩
  · exact (h.lines u l (hlines u l hl) paId keyId hp).imp fun _ hn => ⟨hn.1, hn.2.later hlater⟩
  · rcases hsent _ hf with hf | ⟨f, hrevoke⟩
    · exact (h.inFlight u publicKey label paId keyId hf).imp fun _ hn => ⟨hn.1, hn.2.later hlater⟩
    · cases hrevoke

/-- An unexpected error ends the loop with an error. -/
theorem revokeEntries_breaksOff (actorUserId : Nat) (now : Time) (hosts : Hosts) (t : EntryTable)
    {keys : Table SshPublicKey} {u : HostUser} {es : List AuthorizedKeyEntry} {e : AuthorizedKeyEntry}
    (he : e ∈ es) (hkey : (keys.get? e.sshPublicKeyId).isSome = true)
    (hother : (outcome e.id).reply true = .error .other) :
    ∃ error, (revokeEntries digest keys u actorUserId now outcome es hosts t).2 = .error error := by
  induction es generalizing hosts t with
  | nil => cases he
  | cons first es ih =>
      rcases List.mem_cons.mp he with rfl | he
      · obtain ⟨key, hkey⟩ := Option.isSome_iff_exists.mp hkey
        refine ⟨.agentRpc .other, ?_⟩
        rw [revokeEntries, hkey]
        dsimp only [requestResponse, KeyCommand.accepted]
        rw [hother]
      · rcases revokeEntries_cons first es hosts t with ⟨-, heq⟩ | ⟨key, h', -, -, ⟨error, heq⟩ | heq⟩
        · rw [heq]
          exact ih _ _ he
        · exact ⟨error, by rw [heq]⟩
        · rw [heq]
          exact ih _ _ he

/-- The loop leaves an active entry for every line that stays. -/
theorem booked_revokeEntries {link : AccountLink} {pa : PhysicalAccount} {entries : EntryTable}
    (h : Inv digest w) (hpa : w.rows.db.physicalAccounts.get? pa.id = some pa)
    (hremoved : ∀ e ∈ revokedEntries w.rows link pa, RemovedWithLines w pa outcome e)
    (hok : (revokeEntries digest w.rows.sshKeys (hostUser pa) actorUserId now outcome
      (revokedEntries w.rows link pa) w.hosts w.rows.entries).2 = .ok entries) :
    ∀ u, ∀ l ∈ (revokeEntries digest w.rows.sshKeys (hostUser pa) actorUserId now outcome
      (revokedEntries w.rows link pa) w.hosts w.rows.entries).1.lines u, ∀ paId keyId,
        l.pushed = some (paId, keyId) → entries.Active paId keyId := by
  intro u l hl paId keyId hp
  have hbefore := revokeEntries_lines hl
  obtain ⟨a, ha, hsame, hactive⟩ := h.booked u l hbefore paId keyId hp
  refine ⟨a, ?_, hsame, hactive⟩
  by_cases hmem : a ∈ revokedEntries w.rows link pa
  · -- the line went with its entry
    exfalso
    obtain ⟨fingerprint, hmine, ⟨account, haccount, hu⟩, key, hkey, rfl⟩ :=
      h.lines u l hbefore paId keyId hp
    have hfilter := (List.mem_filter.mp hmem).2
    simp only [Bool.and_eq_true, decide_eq_true_eq] at hfilter
    obtain rfl : paId = pa.id := hsame.1.symm.trans hfilter.1.1
    obtain rfl : keyId = a.sshPublicKeyId := hsame.2.symm
    obtain rfl : account = pa := Option.some.inj (haccount.symm.trans hpa)
    subst hu
    rcases hremoved a hmem with hout | hnone
    · rw [revokeEntries_gone hmem hkey hout hok l hl] at hmine
      cases hmine
    · exact hnone l hbefore hp
  · refine revokeEntries_kept ha (fun e he hid => hmem ?_) hok
    obtain rfl := w.rows.entries.table.eq_of_key_eq (List.mem_of_mem_filter he) ha hid
    exact he

/-- The link and its account are in the database. -/
theorem stored_of_loadLinkInLab {db : Db} {link : AccountLink} {pa : PhysicalAccount}
    (h : loadLinkInLab db linkId labId = .ok (link, pa)) : db.physicalAccounts.get? pa.id = some pa := by
  unfold loadLinkInLab at h
  split at h
  · cases h
  · split at h
    · cases h
    · next account haccount =>
        split at h
        · cases h
        · obtain ⟨-, rfl⟩ := Prod.mk.inj (Except.ok.inj h)
          exact Table.get?_key (Table.mem_of_get? haccount)

/-- Only an active link is revoked, and its account stays. -/
theorem revokeLink_ok {db db' : Db} {link : AccountLink} {pa : PhysicalAccount}
    (hload : loadLinkInLab db linkId labId = .ok (link, pa))
    (h : CoreLab.revokeLink db linkId labId actorUserId reason now = .ok db') :
    link.isActive = true ∧ db'.physicalAccounts = db.physicalAccounts := by
  rw [CoreLab.revokeLink, hload] at h
  dsimp only [bind, Except.bind] at h
  split at h
  · next hactive =>
      rw [← Except.ok.inj h]
      exact ⟨hactive, rfl⟩
  · cases h

theorem inv_revokeLink (h : Inv digest w)
    (hok : Together digest w (.revokeLink linkId labId actorUserId reason revokeKey now outcome)) :
    Inv digest (w.after (AccountLinkRequests.revokeLink digest w.rows w.hosts linkId labId actorUserId reason revokeKey
      now outcome)) := by
  unfold AccountLinkRequests.revokeLink
  cases hload : loadLinkInLab w.rows.db linkId labId with
  | error e => exact h
  | ok p =>
      obtain ⟨link, pa⟩ := p
      cases hlink : CoreLab.revokeLink w.rows.db linkId labId actorUserId reason now with
      | error e => exact h
      | ok db =>
          obtain ⟨hactive, haccounts⟩ := revokeLink_ok hload hlink
          have hsame := later_refl digest w.rows
          cases hrevokeKey : revokeKey with
          | false => exact h.ofRows ⟨haccounts ▸ hsame.accounts, hsame.keys, id⟩ fun _ _ => id
          | true =>
              have hcondition := hok (link, pa) (by rw [hload]; rfl) hactive hrevokeKey
              dsimp only
              rw [if_pos rfl]
              cases hresult : revokeEntries digest w.rows.sshKeys (hostUser pa) actorUserId now outcome
                (revokedEntries w.rows link pa) w.hosts w.rows.entries with
              | mk hosts ended =>
                  have hlines : ∀ u, ∀ l ∈ (hosts, ended).1.lines u, l ∈ w.hosts.lines u := by
                    rw [← hresult]
                    exact fun u l hl => revokeEntries_lines hl
                  have hsent : ∀ f ∈ (hosts, ended).1.inFlight,
                      f ∈ w.hosts.inFlight ∨ ∃ fingerprint, f.2 = .revoke fingerprint := by
                    rw [← hresult]
                    exact fun f hf => revokeEntries_inFlight hf
                  cases hended : ended with
                  | error e =>
                      -- the rows are rolled back, and lines may be gone
                      exact h.revoke hsame hlines hsent fun u l hl => h.booked u l (hlines u l hl)
                  | ok entries =>
                      rw [hended] at hresult
                      rcases hcondition with ⟨e, he, hkey, hother⟩ | hremoved
                      · obtain ⟨error, herror⟩ :=
                          revokeEntries_breaksOff actorUserId now w.hosts w.rows.entries he hkey hother
                        rw [hresult] at herror
                        cases herror
                      · refine h.revoke ⟨haccounts ▸ hsame.accounts, hsame.keys, id⟩ hlines hsent ?_
                        have hbooked := booked_revokeEntries h (stored_of_loadLinkInLab hload) hremoved
                          (congrArg Prod.snd hresult)
                        rw [hresult] at hbooked
                        exact hbooked

end Revoke

/-! ## runs -/

/-- A request without a call changes no entry. -/
theorem inv_createRequest {requesterUserId paId labId : Nat} {requestNote : Option String} (h : Inv digest w) :
    Inv digest (w.settle (createRequest w.rows requesterUserId paId requestNote labId)) := by
  refine h.settle fun rows' hrows => ?_
  unfold createRequest at hrows
  split at hrows
  · cases hrows
  · repeat' split at hrows
    case isFalse.isFalse.isFalse.isFalse => exact Except.ok.inj hrows ▸ ⟨later_of_eq rfl rfl, rfl⟩
    all_goals cases hrows

theorem inv_denyRequest {requestId labId adminUserId : Nat} {decisionNote : Option String} {now : Time}
    (h : Inv digest w) :
    Inv digest (w.settle (denyRequest w.rows requestId decisionNote adminUserId labId now)) := by
  refine h.settle fun rows' hrows => ?_
  rw [denyRequest, bind_eq_ok_iff] at hrows
  obtain ⟨p, -, hrows⟩ := hrows
  obtain ⟨-, -, hrows⟩ := bind_eq_ok_iff.mp hrows
  exact Except.ok.inj hrows ▸ ⟨later_of_eq rfl rfl, rfl⟩

theorem inv_withdrawRequest {requestId requesterUserId labId : Nat} {now : Time} (h : Inv digest w) :
    Inv digest (w.settle (withdrawRequest w.rows requestId requesterUserId labId now)) := by
  refine h.settle fun rows' hrows => ?_
  rw [withdrawRequest, bind_eq_ok_iff] at hrows
  obtain ⟨p, -, hrows⟩ := hrows
  obtain ⟨-, -, hrows⟩ := bind_eq_ok_iff.mp hrows
  obtain ⟨-, -, hrows⟩ := bind_eq_ok_iff.mp hrows
  exact Except.ok.inj hrows ▸ ⟨later_of_eq rfl rfl, rfl⟩

theorem inv_addKey {ownerUserId : Nat} {publicKey : Line} (h : Inv digest w) :
    Inv digest (w.settle (addKey digest w.rows ownerUserId publicKey)) := by
  refine h.settle fun rows' hrows => ?_
  unfold addKey at hrows
  split at hrows
  · next fingerprint _ hkept =>
      split at hrows
      · cases hrows
      · rw [← Except.ok.inj hrows]
        refine ⟨⟨(later_refl digest w.rows).accounts,
          Table.extends_append (fun k => Eq.refl k.fingerprintSha256) _ _, fun hkeys k hk => ?_⟩, rfl⟩
        rcases List.mem_append.mp hk with hk | hk
        · exact hkeys k hk
        · rw [List.mem_singleton.mp hk, Accepted, KeyReadback.keptFingerprint_strip]
          exact hkept
  · cases hrows
  · cases hrows

theorem inv_removeKey {keyId ownerUserId : Nat} (h : Inv digest w) :
    Inv digest (w.settle (removeKey w.rows keyId ownerUserId)) := by
  refine h.settle fun rows' hrows => ?_
  unfold removeKey at hrows
  split at hrows
  · cases hrows
  · next key hkey =>
      split at hrows
      · rw [← Except.ok.inj hrows]
        have hmem := Table.mem_of_get? (Option.filter_eq_some_iff.mp hkey).1
        have hstored := Table.get?_key hmem
        refine ⟨⟨(later_refl digest w.rows).accounts,
          Table.extends_put (fun k => Eq.refl k.fingerprintSha256) hstored rfl,
          fun hkeys k hk => ?_⟩, rfl⟩
        rcases Table.mem_put hk with rfl | hk
        · exact hkeys key hmem
        · exact hkeys k hk
      · exact Except.ok.inj hrows ▸ ⟨later_refl digest w.rows, rfl⟩

/-- No operation moves or renames an account. -/
theorem accounts_step {b b' : Backend} {op : Operation} (h : Operations.step b op = some b') :
    b.db.physicalAccounts.Extends (fun p p' => hostUser p' = hostUser p) b'.db.physicalAccounts := by
  have hsame : b.db.physicalAccounts.Extends (fun p p' => hostUser p' = hostUser p)
      b.db.physicalAccounts := Table.extends_refl (fun pa => Eq.refl (hostUser pa)) _
  cases Operations.stepCase h with
  | access h =>
      generalize b'.db = db' at h
      cases h with
      | refused | linkInserted | linkUpgraded | linkRevoked => exact hsame
      | accountCreated _ new => exact Table.extends_append (fun pa => Eq.refl (hostUser pa)) _ new
      | accountDeleted pa _ stored =>
          obtain rfl : pa.id = _ := Table.key_of_get? stored
          exact Table.extends_put (fun pa => Eq.refl (hostUser pa)) stored rfl
  | frame f h =>
      exact (Operations.frameTables_of_frame h).physicalAccounts.mono fun p p' (heq : p = p') => heq ▸ rfl
  | rows h => exact h.physicalAccounts ▸ hsame

/-- A request that was left behind is carried out. -/
theorem inv_handled {u : HostUser} {c : KeyCommand} {n : Nat} (h : Inv digest w)
    (hsent : w.hosts.inFlight[n]? = some (u, c)) (hheard : Heard digest w u c (.timedOut true)) :
    Inv digest { w with hosts :=
      { w.hosts.carryOut digest u c with inFlight := w.hosts.inFlight.eraseIdx n } } := by
  have hmem : (u, c) ∈ w.hosts.inFlight := List.mem_of_getElem? hsent
  cases c with
  | push publicKey label paId keyId =>
      obtain ⟨fingerprint, hkept, hnamed⟩ := h.inFlight u publicKey label paId keyId hmem
      have hactive := fun hout hadds => active_of_heard hheard
        (fun hanswers => RpcOutcome.noConfusion hanswers.1) hout hadds
      have hpushed := h.push hkept hnamed (later_refl digest w.rows) (fun _ _ => id) hactive
      exact ⟨hpushed.keys, hpushed.lines,
        fun v pk lb p k hf => h.inFlight v pk lb p k (List.mem_of_mem_eraseIdx hf), hpushed.booked⟩
  | revoke fingerprint =>
      have hlines : ∀ v, ∀ l ∈
          (requestResponse digest w.hosts u (.revoke fingerprint) (.timedOut true)).1.lines v,
            l ∈ w.hosts.lines v := fun v l hl => mem_lines_of_revoke hl
      exact h.revoke (later_refl digest w.rows) hlines
        (fun f hf => Or.inl (List.mem_of_mem_eraseIdx hf)) fun v l hl => h.booked v l (hlines v l hl)

/-- A user removes lines, or writes lines of their own. -/
theorem inv_edited {u : HostUser} {file : HostFile} (h : Inv digest w)
    (hown : ∀ l ∈ file.lines, l.pushed.isSome → l ∈ w.hosts.lines u) :
    Inv digest { w with hosts :=
      { w.hosts with files := Function.update w.hosts.files u file } } := by
  have hlines : ∀ v, ∀ l ∈ (Function.update w.hosts.files u file v).lines, ∀ paId keyId,
      l.pushed = some (paId, keyId) → l ∈ w.hosts.lines v := by
    intro v l hl paId keyId hp
    rw [Function.update_apply] at hl
    split at hl
    · next hv => exact hv ▸ hown l hl (by rw [hp]; rfl)
    · exact hl
  exact ⟨h.keys, fun v l hl p k hp => h.lines v l (hlines v l hl p k hp) p k hp, h.inFlight,
    fun v l hl p k hp => h.booked v l (hlines v l hl p k hp) p k hp⟩

/-- **One step** keeps every pushed line on record, and no approval fails. -/
theorem booked_step {w' : World} {a : Action} (h : Inv digest w) (hok : Together digest w a)
    (hstep : step digest w a = some w') : Inv digest w' ∧ Inserts digest w a := by
  cases a with
  | createRequest requesterUserId paId requestNote labId =>
      exact Option.some.inj hstep ▸ ⟨inv_createRequest h, True.intro⟩
  | approve requestId decisionNote adminUserId labId now outcome =>
      exact Option.some.inj hstep ▸ inv_approve h hok
  | retryPush requestId adminUserId labId now outcome =>
      exact Option.some.inj hstep ▸ ⟨inv_retryPush h hok, True.intro⟩
  | deny requestId decisionNote adminUserId labId now =>
      exact Option.some.inj hstep ▸ ⟨inv_denyRequest h, True.intro⟩
  | withdraw requestId requesterUserId labId now =>
      exact Option.some.inj hstep ▸ ⟨inv_withdrawRequest h, True.intro⟩
  | revokeLink linkId labId actorUserId reason revokeKey now outcome =>
      exact Option.some.inj hstep ▸ ⟨inv_revokeLink h hok, True.intro⟩
  | addKey ownerUserId publicKey => exact Option.some.inj hstep ▸ ⟨inv_addKey h, True.intro⟩
  | removeKey keyId ownerUserId => exact Option.some.inj hstep ▸ ⟨inv_removeKey h, True.intro⟩
  | operation op =>
      obtain ⟨b, hb, rfl⟩ := Option.map_eq_some_iff.mp hstep
      exact ⟨h.ofRows ⟨accounts_step hb, (later_refl digest w.rows).keys, id⟩ fun _ _ => id,
        True.intro⟩
  | handled n =>
      obtain ⟨⟨u, c⟩, hsent, rfl⟩ := Option.map_eq_some_iff.mp hstep
      exact ⟨inv_handled h hsent (hok (u, c) hsent), True.intro⟩
  | edited u file =>
      rw [step] at hstep
      split at hstep
      · next hown => exact Option.some.inj hstep ▸ ⟨inv_edited h hown, True.intro⟩
      · cases hstep

theorem inv_of_fresh (h : Fresh digest w) : Inv digest w := by
  refine ⟨h.keys, fun u l hl p k hp => ?_, fun u pk lb p k hf => ?_, fun u l hl p k hp => ?_⟩
  · rw [h.lines u l hl] at hp
    cases hp
  · rw [h.inFlight] at hf
    cases hf
  · rw [h.lines u l hl] at hp
    cases hp

/-- Alice's own file. -/
def ownFile : HostFile where
  text := "ssh-ed25519 AAAA alice\n".toList
  lines := [⟨"ssh-ed25519 AAAA alice".toList, none⟩]
  read := by decide +kernel

/-- One server of lab 1 with one account, and no key yet. -/
def beforeKeys : World :=
  { rows := { db := { Db.empty with
      servers := .single { id := 1, labId := 1, maxReservationHours := none, approvedAt := some 0, isActive := true }
      physicalAccounts := .single { id := 1, serverId := 1, linuxUsername := "alice", isActive := true } }
              sshKeys := .empty, requests := .empty, entries := .empty }
    kills := [], hosts := ⟨fun _ => ownFile, []⟩ }

theorem fresh_beforeKeys : Fresh sampleDigest beforeKeys where
  entries := rfl
  keys _ hk := absurd hk List.not_mem_nil
  lines _ _ hl := (List.mem_singleton.mp hl).symm ▸ rfl
  inFlight := rfl

/-- User 2 asks for the account, gets a link and their key on the host, and the link is
revoked with the key. -/
def comeAndGone : List Action :=
  [.addKey 2 "ssh-ed25519 AAAB bob@lab".toList, .createRequest 2 1 none 1,
   .approve 1 none 1 1 1 .answered, .operation (.establishViaSshChallenge 2 1 1),
   .revokeLink 1 1 1 .adminForce true 2 fun _ => .answered]

/-- The agent is away for the second push, which is tried again. -/
def backAgain : List Action :=
  comeAndGone ++
    [.createRequest 2 1 none 1, .approve 2 none 1 1 3 .offline, .retryPush 2 1 1 4 .answered]

/-- The second request, to be approved with the agent there. -/
def askedAgain : World :=
  (exec (step sampleDigest) beforeKeys (comeAndGone ++ [.createRequest 2 1 none 1])).get
    (by decide +kernel)

end KeyBookkeeping

end CoreLab
