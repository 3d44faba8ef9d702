import CoreLab.AccountService
import CoreLab.KeyReadback
import Mathlib.Data.List.MinMax
import Mathlib.Logic.Function.Basic

/-!
# CoreLab.AccountLinkRequests

Requests for account links, and the SSH keys that CoreLab pushes to hosts for
them.  A row of `authorized_key_entry` records each push, at most one for an
account and a key; a revoked key keeps its row, which is no longer active.

The rows and the files of the hosts change separately.  A service awaits the
agent in the middle of its session: the agent may carry out the request or not,
its answer may be lost, and an error after that rolls back the rows but not the
file.

* `EntryTable` — the rows with their unique index, which an insertion may collide
  with;
* `HostFile` — a file as the agent rewrites it, with what CoreLab pushed of its
  lines;
* `revokeEntries_gone`, `revokeEntries_kept` — what the loop of `revoke_link`
  leaves of lines and rows.
-/

namespace CoreLab

open Relational Lines

namespace AccountLinkRequests

open AuthorizedKeys (Digest authorizedKeyLine hasFingerprint isCorelabComment)
open KeyReadback (keptFingerprint parsePublicKey requestLabel)

/-! ## rows -/

/-- `ck_alr_status`. -/
inductive RequestStatus where
  | pending | approved | denied | withdrawn
deriving DecidableEq, Repr

/-- The column text. -/
def RequestStatus.text : RequestStatus → String
  | pending => "pending"
  | approved => "approved"
  | denied => "denied"
  | withdrawn => "withdrawn"

structure AccountLinkRequest where
  id : Nat
  requesterUserId : Nat
  physicalAccountId : Nat
  status : RequestStatus
  requestNote : Option String
  decidedByUserId : Option Nat
  decidedAt : Option Time
  decisionNote : Option String
deriving DecidableEq, Repr

/-- A key of a user. -/
structure SshPublicKey where
  id : Nat
  userId : Nat
  publicKey : Line
  fingerprintSha256 : String
  isActive : Bool
deriving DecidableEq, Repr

structure AuthorizedKeyEntry where
  id : Nat
  physicalAccountId : Nat
  sshPublicKeyId : Nat
  pushedByUserId : Nat
  pushedForUserId : Nat
  pushedAt : Time
  isActive : Bool
  removedAt : Option Time
  removedByUserId : Option Nat
deriving DecidableEq, Repr

instance : Keyed AccountLinkRequest := ⟨AccountLinkRequest.id⟩
instance : Keyed SshPublicKey := ⟨SshPublicKey.id⟩
instance : Keyed AuthorizedKeyEntry := ⟨AuthorizedKeyEntry.id⟩

namespace AuthorizedKeyEntry

/-- The columns of `uq_ake_pa_key`. -/
def IsOf (e : AuthorizedKeyEntry) (physicalAccountId sshPublicKeyId : Nat) : Prop :=
  e.physicalAccountId = physicalAccountId ∧ e.sshPublicKeyId = sshPublicKeyId

instance (e : AuthorizedKeyEntry) (physicalAccountId sshPublicKeyId : Nat) :
    Decidable (e.IsOf physicalAccountId sshPublicKeyId) := inferInstanceAs (Decidable (_ ∧ _))

/-- The row of a key that was removed. -/
def removed (e : AuthorizedKeyEntry) (actorUserId : Nat) (now : Time) : AuthorizedKeyEntry :=
  { e with isActive := false, removedAt := some now, removedByUserId := some actorUserId }

/-- The row of a key that was pushed again. -/
def pushedAgain (e : AuthorizedKeyEntry) (pushedByUserId pushedForUserId : Nat) (now : Time) :
    AuthorizedKeyEntry :=
  { e with
    pushedByUserId := pushedByUserId, pushedForUserId := pushedForUserId, pushedAt := now
    isActive := true, removedAt := none, removedByUserId := none }

end AuthorizedKeyEntry

/-- A new active row, under the key it is given. -/
def newEntry (physicalAccountId sshPublicKeyId pushedByUserId pushedForUserId : Nat) (now : Time) :
    Table.Insertion AuthorizedKeyEntry :=
  ⟨fun id =>
    { id := id, physicalAccountId := physicalAccountId, sshPublicKeyId := sshPublicKeyId
      pushedByUserId := pushedByUserId, pushedForUserId := pushedForUserId, pushedAt := now
      isActive := true, removedAt := none, removedByUserId := none }, fun _ => rfl⟩

/-- The entries, with their unique index. -/
structure EntryTable where
  table : Table AuthorizedKeyEntry
  unique : ∀ e ∈ table, ∀ f ∈ table, e.IsOf f.physicalAccountId f.sshPublicKeyId → e = f

namespace EntryTable

/-- No key was pushed yet. -/
def empty : EntryTable := ⟨.empty, fun _ he => absurd he List.not_mem_nil⟩

/-- `_find_key_entry`. -/
def find? (t : EntryTable) (physicalAccountId sshPublicKeyId : Nat) : Option AuthorizedKeyEntry :=
  t.table.rows.find? fun e => decide (e.IsOf physicalAccountId sshPublicKeyId)

/-- An active entry for the account and the key. -/
def Active (t : EntryTable) (physicalAccountId sshPublicKeyId : Nat) : Prop :=
  ∃ e ∈ t.table.rows, e.IsOf physicalAccountId sshPublicKeyId ∧ e.isActive = true

instance (t : EntryTable) (physicalAccountId sshPublicKeyId : Nat) :
    Decidable (t.Active physicalAccountId sshPublicKeyId) :=
  inferInstanceAs (Decidable (∃ e ∈ t.table.rows, _))

/-- An insertion; it fails where the index has the account and the key already. -/
def insert? (t : EntryTable) (physicalAccountId sshPublicKeyId pushedByUserId pushedForUserId : Nat)
    (now : Time) : Option EntryTable :=
  if h : t.find? physicalAccountId sshPublicKeyId = none then
    some ⟨t.table.append
      (newEntry physicalAccountId sshPublicKeyId pushedByUserId pushedForUserId now), by
      have hfree : ∀ e ∈ t.table.rows, ¬ e.IsOf physicalAccountId sshPublicKeyId := fun e he =>
        by simpa using List.find?_eq_none.mp h e he
      intro e he f hf hsame
      rcases List.mem_append.mp he with he | he <;> rcases List.mem_append.mp hf with hf | hf
      · exact t.unique e he f hf hsame
      · rw [List.mem_singleton.mp hf] at hsame
        exact absurd hsame (hfree e he)
      · rw [List.mem_singleton.mp he] at hsame
        exact absurd ⟨hsame.1.symm, hsame.2.symm⟩ (hfree f hf)
      · rw [List.mem_singleton.mp he, List.mem_singleton.mp hf]⟩
  else none

/-- Flush one entry, which keeps its account and its key. -/
def change (t : EntryTable) (id : Nat) (f : AuthorizedKeyEntry → AuthorizedKeyEntry)
    (hid : ∀ e, (f e).id = e.id)
    (hsame : ∀ e, (f e).IsOf e.physicalAccountId e.sshPublicKeyId) : EntryTable :=
  ⟨t.table.mapRows (fun e => if e.id = id then f e else e) fun e => by
    split
    · exact hid e
    · rfl, by
    have hplace : ∀ e, (if e.id = id then f e else e).IsOf e.physicalAccountId e.sshPublicKeyId := by
      intro e
      split
      · exact hsame e
      · exact ⟨rfl, rfl⟩
    intro e' he' g' hg' h
    obtain ⟨e, he, rfl⟩ := Table.mem_mapRows.mp he'
    obtain ⟨g, hg, rfl⟩ := Table.mem_mapRows.mp hg'
    rw [t.unique e he g hg ⟨(hplace e).1.symm.trans (h.1.trans (hplace g).1),
      (hplace e).2.symm.trans (h.2.trans (hplace g).2)⟩]⟩

section Entries

variable {t t' : EntryTable} {paId keyId pushedBy pushedFor : Nat} {now : Time}

theorem insert?_eq_none_iff : t.insert? paId keyId pushedBy pushedFor now = none ↔
    t.find? paId keyId ≠ none := by
  unfold insert?
  split <;> simp_all

theorem rows_of_insert? (h : t.insert? paId keyId pushedBy pushedFor now = some t') :
    t'.table.rows =
      t.table.rows ++ [(newEntry paId keyId pushedBy pushedFor now).1 t.table.nextKey] := by
  unfold insert? at h
  split at h
  · rw [← Option.some.inj h]
    rfl
  · cases h

/-- An insertion keeps what is active, and adds its own row. -/
theorem active_of_insert? (h : t.insert? paId keyId pushedBy pushedFor now = some t') :
    t'.Active paId keyId ∧ ∀ paId keyId, t.Active paId keyId → t'.Active paId keyId := by
  have hrows := rows_of_insert? h
  constructor
  · refine ⟨(newEntry paId keyId pushedBy pushedFor now).1 t.table.nextKey, ?_, ⟨rfl, rfl⟩, rfl⟩
    rw [hrows]
    exact List.mem_append_right _ List.mem_cons_self
  · rintro paId keyId ⟨e, he, hsame, hactive⟩
    refine ⟨e, ?_, hsame, hactive⟩
    rw [hrows]
    exact List.mem_append_left _ he

theorem of_find? {e : AuthorizedKeyEntry} (h : t.find? paId keyId = some e) :
    e ∈ t.table.rows ∧ e.IsOf paId keyId :=
  ⟨List.mem_of_find?_eq_some h, by simpa using List.find?_some h⟩

/-- A key that is pushed again is active, and the others stay as they were. -/
theorem active_of_pushedAgain {e : AuthorizedKeyEntry} (h : t.find? paId keyId = some e) :
    (t.change e.id (·.pushedAgain pushedBy pushedFor now) (fun _ => rfl)
        fun _ => ⟨rfl, rfl⟩).Active paId keyId ∧
      ∀ paId keyId, t.Active paId keyId →
        (t.change e.id (·.pushedAgain pushedBy pushedFor now) (fun _ => rfl)
          fun _ => ⟨rfl, rfl⟩).Active paId keyId := by
  obtain ⟨he, hsame⟩ := of_find? h
  constructor
  · exact ⟨e.pushedAgain pushedBy pushedFor now, List.mem_map.mpr ⟨e, he, if_pos rfl⟩, hsame, rfl⟩
  · rintro paId keyId ⟨a, ha, hsame, hactive⟩
    refine ⟨_, List.mem_map.mpr ⟨a, ha, rfl⟩, ?_⟩
    split
    · exact ⟨hsame, rfl⟩
    · exact ⟨hsame, hactive⟩

end Entries

end EntryTable

/-! ## the hosts -/

/-- A line of an `authorized_keys` file, with the account and the SSH key that CoreLab pushed
it for; no other program writes lines of its own for it. -/
structure KeyLine where
  text : Line
  pushed : Option (Nat × Nat)
deriving DecidableEq, Repr

/-- A file, with the lines that the agent reads in it. -/
structure HostFile where
  text : List Char
  lines : List KeyLine
  read : splitlines text = lines.map (·.text)

namespace HostFile

variable {digest : Digest} {f : HostFile} {publicKey label : Line} {pushed : Nat × Nat}

def empty : HostFile := ⟨[], [], rfl⟩

/-- Some line has the fingerprint. -/
def has (digest : Digest) (f : HostFile) (fingerprint : String) : Bool :=
  f.lines.any fun l => hasFingerprint digest fingerprint l.text

theorem any_splitlines (digest : Digest) (f : HostFile) (fingerprint : String) :
    (splitlines f.text).any (hasFingerprint digest fingerprint) = f.has digest fingerprint := by
  rw [f.read, List.any_map]
  rfl

/-- What the agent reads in a file after a push. -/
theorem splitlines_push {desired : List Char} {fingerprint : String}
    (h : AuthorizedKeys.push digest f.text publicKey label = .ok (desired, fingerprint)) :
    ∃ line, authorizedKeyLine digest publicKey label = .ok line ∧
      splitlines desired = f.lines.map (·.text) ++
        if f.has digest fingerprint then [] else splitlines (line ++ ['\n']) := by
  obtain ⟨line, hline, -, rfl⟩ := AuthorizedKeys.push_ok h
  obtain ⟨-, -, hreturn⟩ := AuthorizedKeys.authorizedKeyLine_ok hline
  have hown : ∀ l ∈ splitlines f.text, ∀ c ∈ l, isLineBreak c = false := fun l hl =>
    not_isLineBreak_of_mem_splitlines hl
  refine ⟨line, hline, ?_⟩
  rw [any_splitlines, ← f.read]
  split
  · rw [splitlines_joinLines hown, List.append_nil]
  · have hjoin : joinLines (splitlines f.text ++ [line]) =
        joinLines (splitlines f.text) ++ (line ++ ['\n']) := by simp [joinLines]
    rw [hjoin, splitlines_joinLines_append hown (by simpa using hreturn)]

/-- A push writes its line for an account and a key. -/
def push (digest : Digest) (f : HostFile) (publicKey label : Line) (pushed : Nat × Nat) : HostFile :=
  match h : AuthorizedKeys.push digest f.text publicKey label with
  | .error _ => f
  | .ok (desired, _) =>
    { text := desired
      lines := f.lines ++ ((splitlines desired).drop f.lines.length).map (⟨·, some pushed⟩)
      read := by
        obtain ⟨line, -, hread⟩ := splitlines_push h
        rw [hread, List.map_append, List.drop_left' (List.length_map ..), List.map_map]
        exact congrArg _ (List.map_id _).symm }

/-- A revoke keeps the other lines for whom they are. -/
def revoke (digest : Digest) (f : HostFile) (fingerprint : String) : HostFile where
  text := AuthorizedKeys.revoke digest f.text fingerprint
  lines := DropAbove.popAbove (fun l => hasFingerprint digest fingerprint l.text)
    (fun l => isCorelabComment l.text) f.lines
  read := by rw [AuthorizedKeys.splitlines_revoke, f.read, DropAbove.popAbove_map]

/-- A push adds its own line at most, where the file does not have the key. -/
theorem mem_lines_push {l : KeyLine} (h : l ∈ (f.push digest publicKey label pushed).lines) :
    l ∈ f.lines ∨ l.pushed = some pushed ∧ ∃ desired fingerprint line,
      AuthorizedKeys.push digest f.text publicKey label = .ok (desired, fingerprint) ∧
        f.has digest fingerprint = false ∧ authorizedKeyLine digest publicKey label = .ok line ∧
          l.text ∈ splitlines (line ++ ['\n']) := by
  unfold push at h
  split at h
  · exact Or.inl h
  · next desired fingerprint hpush =>
      obtain ⟨line, hline, hread⟩ := splitlines_push hpush
      rcases List.mem_append.mp h with h | h
      · exact Or.inl h
      · rw [hread, List.drop_left' (List.length_map ..)] at h
        obtain ⟨text, htext, rfl⟩ := List.mem_map.mp h
        refine Or.inr ⟨rfl, desired, fingerprint, line, hpush, ?_⟩
        split at htext
        · cases htext
        · next hno => exact ⟨Bool.eq_false_iff.mpr hno, hline, htext⟩

/-- A revoke leaves fewer lines, and none of its fingerprint. -/
theorem of_mem_lines_revoke {fingerprint : String} {l : KeyLine}
    (h : l ∈ (f.revoke digest fingerprint).lines) :
    l ∈ f.lines ∧ hasFingerprint digest fingerprint l.text = false := DropAbove.of_mem_popAbove h

end HostFile

/-- What an agent is asked to do to a file. -/
inductive KeyCommand where
  | push (publicKey label : Line) (physicalAccountId sshPublicKeyId : Nat)
  | revoke (fingerprint : String)
deriving DecidableEq, Repr

namespace KeyCommand

/-- What it does to it. -/
def run (digest : Digest) (f : HostFile) : KeyCommand → HostFile
  | push publicKey label paId keyId => f.push digest publicKey label (paId, keyId)
  | revoke fingerprint => f.revoke digest fingerprint

/-- The agent does not refuse it. -/
def accepted (digest : Digest) : KeyCommand → Bool
  | push publicKey label _ _ => (authorizedKeyLine digest publicKey label).isOk
  | revoke _ => true

/-- It would write a line of its own into the file. -/
def adds (digest : Digest) (f : HostFile) : KeyCommand → Bool
  | push publicKey label _ _ =>
    match AuthorizedKeys.push digest f.text publicKey label with
    | .error _ => false
    | .ok (_, fingerprint) => !f.has digest fingerprint
  | revoke _ => false

/-- What it writes is read back as one line. -/
def Legible (digest : Digest) : KeyCommand → Prop
  | push publicKey label _ _ => ∀ line ∈ (authorizedKeyLine digest publicKey label).toOption,
      ∀ c ∈ line, isLineBreak c = false
  | revoke _ => True

instance (digest : Digest) : ∀ c, Decidable (Legible digest c)
  | push publicKey label _ _ =>
    letI (line : Line) : Decidable (∀ c ∈ line, isLineBreak c = false) := List.decidableBAll _ line
    inferInstanceAs (Decidable (∀ line ∈ (authorizedKeyLine digest publicKey label).toOption, _))
  | revoke _ => inferInstanceAs (Decidable True)

end KeyCommand

/-- A Linux user on a server. -/
abbrev HostUser := Nat × String

/-- The user of an account. -/
def hostUser (pa : PhysicalAccount) : HostUser := (pa.serverId, pa.linuxUsername)

/-- The files, and the requests that were sent and that nobody waits for any more. -/
structure Hosts where
  files : HostUser → HostFile
  inFlight : List (HostUser × KeyCommand)

/-- The lines of a file. -/
def Hosts.lines (h : Hosts) (u : HostUser) : List KeyLine := (h.files u).lines

/-- The agent carries out a request. -/
def Hosts.carryOut (digest : Digest) (h : Hosts) (u : HostUser) (c : KeyCommand) : Hosts :=
  { h with files := Function.update h.files u (c.run digest (h.files u)) }

/-- How a call ends.  If the agent does not carry out what was sent to it, it may still do
so later; `failed` is any other exception than the two that the services expect. -/
inductive RpcOutcome where
  | answered
  | offline
  | timedOut (carriedOut : Bool)
  | failed (carriedOut : Bool)
deriving DecidableEq, Repr

namespace RpcOutcome

/-- The agent carries out the request during the call. -/
def carriedOut : RpcOutcome → Bool
  | answered => true
  | offline => false
  | timedOut b | failed b => b

/-- The agent may carry out the request after the call. -/
def leftBehind : RpcOutcome → Bool
  | answered | offline => false
  | timedOut b | failed b => !b

end RpcOutcome

/-- The exceptions of `request_response`. -/
inductive RpcError where
  | agentOffline | agentRpcTimeout | other
deriving DecidableEq, Repr

/-- What the service gets.  An agent that refuses a request sends no answer. -/
def RpcOutcome.reply (accepted : Bool) : RpcOutcome → Except RpcError Unit
  | answered => if accepted then .ok () else .error .agentRpcTimeout
  | offline => .error .agentOffline
  | timedOut _ => .error .agentRpcTimeout
  | failed _ => .error .other

/-- `request_response`: what is left on the hosts, and how the call ends. -/
def requestResponse (digest : Digest) (h : Hosts) (u : HostUser) (c : KeyCommand)
    (outcome : RpcOutcome) : Hosts × Except RpcError Unit :=
  (if outcome.carriedOut then h.carryOut digest u c
   else if outcome.leftBehind then { h with inFlight := h.inFlight ++ [(u, c)] }
   else h, outcome.reply (c.accepted digest))

/-! ## the services -/

open Loops

/-- What a session reads and writes. -/
structure Rows where
  db : Db
  sshKeys : Table SshPublicKey
  requests : Table AccountLinkRequest
  entries : EntryTable

/-- The errors of the services; the last two are no errors of their own, and roll the
session back. -/
inductive ServiceError where
  | physicalAccountNotFound (message : String)
  | alreadyLinked (message : String)
  | duplicatePending (message : String)
  | requestNotFound (message : String)
  | invalidStatusTransition (message : String)
  | noActiveSshKey (message : String)
  | notRequester (message : String)
  | duplicateKey (message : String)
  | keyNotFound (message : String)
  | sshKey (message : String)
  | accountLink (e : AccountError)
  | integrityError
  | agentRpc (e : RpcError)
deriving DecidableEq, Repr

/-- `_latest_active_key_for_user`. -/
def latestActiveKeyForUser (keys : Table SshPublicKey) (userId : Nat) :
    Except ServiceError SshPublicKey :=
  match (keys.rows.filter fun k => k.userId = userId && k.isActive).argmax SshPublicKey.id with
  | none => .error (.noActiveSshKey s!"user {userId} has no active ssh_public_key; cannot push key")
  | some key => .ok key

/-- A pending request, under the key it is given. -/
def newRequest (requesterUserId physicalAccountId : Nat) (requestNote : Option String) :
    Table.Insertion AccountLinkRequest :=
  ⟨fun id =>
    { id := id, requesterUserId := requesterUserId, physicalAccountId := physicalAccountId
      status := .pending, requestNote := requestNote, decidedByUserId := none, decidedAt := none
      decisionNote := none }, fun _ => rfl⟩

/-- `create_request`. -/
def createRequest (rows : Rows) (requesterUserId physicalAccountId : Nat) (requestNote : Option String)
    (labId : Nat) : Except ServiceError Rows :=
  match rows.db.physicalAccounts.get? physicalAccountId with
  | none => .error (.physicalAccountNotFound
      s!"physical_account {physicalAccountId} not found or inactive")
  | some pa =>
    if !pa.isActive then .error (.physicalAccountNotFound
      s!"physical_account {physicalAccountId} not found or inactive")
    else if !serverInLab rows.db pa.serverId labId then .error (.physicalAccountNotFound
      s!"physical_account {physicalAccountId} not in lab {labId}")
    else if (existingActiveLink rows.db requesterUserId physicalAccountId).isSome then
      .error (.alreadyLinked
        s!"user {requesterUserId} already linked to physical_account {physicalAccountId}")
    else if rows.requests.rows.any fun r => r.requesterUserId = requesterUserId &&
        r.physicalAccountId = physicalAccountId && r.status = .pending then
      .error (.duplicatePending
        s!"a pending request already exists for ({requesterUserId}, {physicalAccountId})")
    else .ok { rows with
      requests := rows.requests.append (newRequest requesterUserId physicalAccountId requestNote) }

/-- `_load_request_in_lab`. -/
def loadRequestInLab (rows : Rows) (requestId labId : Nat) :
    Except ServiceError (AccountLinkRequest × PhysicalAccount) :=
  match rows.requests.get? requestId with
  | none => .error (.requestNotFound s!"account_link_request {requestId} not found")
  | some row =>
    let paId := row.physicalAccountId
    match rows.db.physicalAccounts.get? paId with
    | none => .error (.requestNotFound s!"physical_account {paId} not found")
    | some pa =>
      if !serverInLab rows.db pa.serverId labId then
        .error (.requestNotFound s!"account_link_request {requestId} not in lab {labId}")
      else .ok (row, pa)

/-- The check of the status; `rule` ends the message. -/
def checkStatus (row : AccountLinkRequest) (status : RequestStatus) (rule : String) :
    Except ServiceError Unit :=
  let requestId := row.id
  let found := row.status.text
  raiseIf (row.status ≠ status)
    (.invalidStatusTransition s!"request {requestId} status is '{found}'; only {rule}")

/-- What `approve_request` and `retry_push_for_request` start with: the request, the account
and the key to push. -/
def loadPush (rows : Rows) (requestId labId : Nat) (status : RequestStatus) (rule : String) :
    Except ServiceError (AccountLinkRequest × PhysicalAccount × SshPublicKey) := do
  let (row, pa) ← loadRequestInLab rows requestId labId
  checkStatus row status rule
  let key ← latestActiveKeyForUser rows.sshKeys row.requesterUserId
  .ok (row, pa, key)

/-- The push of a key to the account of a request; `retried` ends the label. -/
def pushCommand (row : AccountLinkRequest) (pa : PhysicalAccount) (key : SshPublicKey)
    (retried : String) : KeyCommand :=
  .push key.publicKey (requestLabel row.requesterUserId row.id ++ retried.toList) pa.id key.id

/-- Record the decision about a request. -/
def decide (rows : Rows) (row : AccountLinkRequest) (status : RequestStatus)
    (decidedByUserId : Option Nat) (now : Time) (decisionNote : Option String) : Rows :=
  { rows with requests := rows.requests.put { row with
      status := status, decidedByUserId := decidedByUserId, decidedAt := some now
      decisionNote := decisionNote } }

/-- `approve_request`: what is left on the hosts, and the rows to commit. -/
def approveRequest (digest : Digest) (rows : Rows) (h : Hosts) (requestId : Nat)
    (decisionNote : Option String) (adminUserId labId : Nat) (now : Time) (outcome : RpcOutcome) :
    Hosts × Except ServiceError Rows :=
  match loadPush rows requestId labId .pending "pending can be approved" with
  | .error e => (h, .error e)
  | .ok (row, pa, key) =>
    match requestResponse digest h (hostUser pa) (pushCommand row pa key "") outcome with
    | (h, .ok ()) =>
      match rows.entries.insert? pa.id key.id adminUserId row.requesterUserId now with
      | none => (h, .error .integrityError)
      | some entries =>
        (h, .ok (decide { rows with entries := entries } row .approved (some adminUserId) now decisionNote))
    | (h, .error .other) => (h, .error (.agentRpc .other))
    | (h, .error _) => (h, .ok (decide rows row .approved (some adminUserId) now decisionNote))

/-- `retry_push_for_request`, likewise. -/
def retryPushForRequest (digest : Digest) (rows : Rows) (h : Hosts)
    (requestId adminUserId labId : Nat) (now : Time) (outcome : RpcOutcome) : Hosts × Except ServiceError Rows :=
  match loadPush rows requestId labId .approved "approved can retry key push" with
  | .error e => (h, .error e)
  | .ok (row, pa, key) =>
    let existing := rows.entries.find? pa.id key.id
    if existing.any (·.isActive) then (h, .ok rows)
    else
      match requestResponse digest h (hostUser pa) (pushCommand row pa key ";retry=1") outcome with
      | (h, .ok ()) =>
        match existing with
        | none =>
          match rows.entries.insert? pa.id key.id adminUserId row.requesterUserId now with
          | none => (h, .error .integrityError)
          | some entries => (h, .ok { rows with entries := entries })
        | some entry =>
          let entries := rows.entries.change entry.id
            (·.pushedAgain adminUserId row.requesterUserId now) (fun _ => rfl) fun _ => ⟨rfl, rfl⟩
          (h, .ok { rows with entries := entries })
      | (h, .error .other) => (h, .error (.agentRpc .other))
      | (h, .error _) => (h, .ok rows)

/-- `deny_request`. -/
def denyRequest (rows : Rows) (requestId : Nat) (decisionNote : Option String)
    (adminUserId labId : Nat) (now : Time) : Except ServiceError Rows := do
  let (row, _) ← loadRequestInLab rows requestId labId
  checkStatus row .pending "pending can be denied"
  .ok (decide rows row .denied (some adminUserId) now decisionNote)

/-- `withdraw_request`. -/
def withdrawRequest (rows : Rows) (requestId requesterUserId labId : Nat) (now : Time) :
    Except ServiceError Rows := do
  let (row, _) ← loadRequestInLab rows requestId labId
  raiseIf (row.requesterUserId ≠ requesterUserId) (.notRequester "not_requester")
  checkStatus row .pending "pending can be withdrawn"
  .ok (decide rows row .withdrawn row.decidedByUserId now row.decisionNote)

/-- The entries that `revoke_link` revokes: the active ones of the link's account and user. -/
def revokedEntries (rows : Rows) (link : AccountLink) (pa : PhysicalAccount) :
    List AuthorizedKeyEntry :=
  rows.entries.table.rows.filter fun e =>
    e.physicalAccountId = pa.id && e.pushedForUserId = link.userId && e.isActive

/-- The loop of `revoke_link`: an entry is removed whether the agent answers or not. -/
def revokeEntries (digest : Digest) (keys : Table SshPublicKey) (u : HostUser) (actorUserId : Nat)
    (now : Time) (outcome : Nat → RpcOutcome) :
    List AuthorizedKeyEntry → Hosts → EntryTable → Hosts × Except ServiceError EntryTable
  | [], h, entries => (h, .ok entries)
  | entry :: rest, h, entries =>
    match keys.get? entry.sshPublicKeyId with
    | none => revokeEntries digest keys u actorUserId now outcome rest h entries
    | some key =>
      match requestResponse digest h u (.revoke key.fingerprintSha256) (outcome entry.id) with
      | (h, .error .other) => (h, .error (.agentRpc .other))
      | (h, _) => revokeEntries digest keys u actorUserId now outcome rest h
          (entries.change entry.id (·.removed actorUserId now) (fun _ => rfl) fun _ => ⟨rfl, rfl⟩)

/-- `revoke_link`, of a link loaded in the caller's lab. -/
def revokeLink (digest : Digest) (rows : Rows) (h : Hosts) (linkId labId actorUserId : Nat)
    (reason : RevokeReason) (revokeKey : Bool) (now : Time) (outcome : Nat → RpcOutcome) :
    Hosts × Except ServiceError Rows :=
  match loadLinkInLab rows.db linkId labId,
    CoreLab.revokeLink rows.db linkId labId actorUserId reason now with
  | .error e, _ | _, .error e => (h, .error (.accountLink e))
  | .ok (link, pa), .ok db =>
    if revokeKey then
      match revokeEntries digest rows.sshKeys (hostUser pa) actorUserId now outcome
          (revokedEntries rows link pa) h rows.entries with
      | (h, .error e) => (h, .error e)
      | (h, .ok entries) => (h, .ok { rows with db := db, entries := entries })
    else (h, .ok { rows with db := db })

/-- `add_key`. -/
def addKey (digest : Digest) (rows : Rows) (ownerUserId : Nat) (publicKey : Line) :
    Except ServiceError Rows :=
  match parsePublicKey digest publicKey, keptFingerprint digest publicKey with
  | .ok _, some fingerprint =>
    if rows.sshKeys.rows.any fun k =>
        k.userId = ownerUserId && k.fingerprintSha256 = fingerprint then
      .error (.duplicateKey s!"key with fingerprint {fingerprint} already exists")
    else
      let row : Table.Insertion SshPublicKey :=
        ⟨fun id => ⟨id, ownerUserId, strip publicKey, fingerprint, true⟩, fun _ => rfl⟩
      .ok { rows with sshKeys := rows.sshKeys.append row }
  | .error e, _ => .error (.sshKey e.text)
  -- the parser has decoded the blob
  | .ok _, none => .error (.sshKey KeyReadback.InvalidPublicKey.badBlob.text)

/-- `remove_key`. -/
def removeKey (rows : Rows) (keyId ownerUserId : Nat) : Except ServiceError Rows :=
  match (rows.sshKeys.get? keyId).filter fun k => k.userId = ownerUserId with
  | none => .error (.keyNotFound s!"ssh key {keyId} not found")
  | some key =>
    if key.isActive then .ok { rows with sshKeys := rows.sshKeys.put { key with isActive := false } }
    else .ok rows

/-! ## calls and loops -/

section Calls

variable {digest : Digest} {h : Hosts} {u : HostUser} {c : KeyCommand} {outcome : RpcOutcome}

theorem lines_carryOut (v : HostUser) : (h.carryOut digest u c).lines v =
    if v = u then (c.run digest (h.files u)).lines else h.lines v := by
  simp only [Hosts.lines, Hosts.carryOut, Function.update_apply]
  split <;> rfl

theorem lines_requestResponse (v : HostUser) : (requestResponse digest h u c outcome).1.lines v =
    if outcome.carriedOut then (h.carryOut digest u c).lines v else h.lines v := by
  unfold requestResponse
  cases outcome.carriedOut <;> cases outcome.leftBehind <;> rfl

/-- A push adds at most its own line, where the file does not have the key. -/
theorem mem_lines_of_push {publicKey label : Line} {paId keyId : Nat} {v : HostUser} {l : KeyLine}
    (hl : l ∈ (requestResponse digest h u (.push publicKey label paId keyId) outcome).1.lines v) :
    l ∈ h.lines v ∨ v = u ∧ outcome.carriedOut = true ∧
      (KeyCommand.push publicKey label paId keyId).adds digest (h.files u) = true ∧
      l.pushed = some (paId, keyId) ∧ ∃ line, authorizedKeyLine digest publicKey label = .ok line ∧
        l.text ∈ splitlines (line ++ ['\n']) := by
  rw [lines_requestResponse] at hl
  split at hl
  · next hout =>
      rw [lines_carryOut] at hl
      split at hl
      · next hv =>
          subst hv
          rcases HostFile.mem_lines_push hl with
            hl | ⟨hpushed, desired, fingerprint, line, hpush, hno, hline, htext⟩
          · exact Or.inl hl
          · refine Or.inr ⟨rfl, hout, ?_, hpushed, line, hline, htext⟩
            simp only [KeyCommand.adds, hpush, hno, Bool.not_false]
      · exact Or.inl hl
  · exact Or.inl hl

theorem mem_lines_of_revoke {fingerprint : String} {v : HostUser} {l : KeyLine}
    (hl : l ∈ (requestResponse digest h u (.revoke fingerprint) outcome).1.lines v) :
    l ∈ h.lines v := by
  rw [lines_requestResponse] at hl
  split at hl
  · rw [lines_carryOut] at hl
    split at hl
    · next hv => exact hv ▸ (HostFile.of_mem_lines_revoke hl).1
    · exact hl
  · exact hl

theorem inFlight_requestResponse {f : HostUser × KeyCommand}
    (hf : f ∈ (requestResponse digest h u c outcome).1.inFlight) : f ∈ h.inFlight ∨ f = (u, c) := by
  unfold requestResponse at hf
  dsimp only at hf
  split at hf
  · exact Or.inl hf
  · split at hf
    · exact (List.mem_append.mp hf).imp_right List.mem_singleton.mp
    · exact Or.inl hf

end Calls

section Pushes

variable {digest : Digest} {rows : Rows} {requestId labId : Nat} {status : RequestStatus} {rule : String}
  {row : AccountLinkRequest} {pa : PhysicalAccount} {key : SshPublicKey}

/-- What is to be pushed is in the database. -/
theorem loadPush_stored (hload : loadPush rows requestId labId status rule = .ok (row, pa, key)) :
    rows.db.physicalAccounts.get? pa.id = some pa ∧ rows.sshKeys.get? key.id = some key := by
  rw [loadPush, bind_eq_ok_iff] at hload
  obtain ⟨⟨row', pa'⟩, hrequest, hload⟩ := hload
  obtain ⟨-, -, hload⟩ := bind_eq_ok_iff.mp hload
  obtain ⟨key', hkey, hload⟩ := bind_eq_ok_iff.mp hload
  simp only [Except.ok.injEq, Prod.mk.injEq] at hload
  obtain ⟨rfl, rfl, rfl⟩ := hload
  constructor
  · unfold loadRequestInLab at hrequest
    split at hrequest
    · cases hrequest
    · dsimp only at hrequest
      split at hrequest
      · cases hrequest
      · next account haccount =>
          split at hrequest
          · cases hrequest
          · obtain ⟨-, rfl⟩ := Prod.mk.inj (Except.ok.inj hrequest)
            exact Table.get?_key (Table.mem_of_get? haccount)
  · unfold latestActiveKeyForUser at hkey
    split at hkey
    · cases hkey
    · next k hk =>
        obtain rfl := Except.ok.inj hkey
        exact Table.get?_key (List.mem_of_mem_filter (List.argmax_mem hk))

theorem loadRequestInLab_error {e : ServiceError} (h : loadRequestInLab rows requestId labId = .error e) :
    e ≠ .integrityError := by
  rintro rfl
  unfold loadRequestInLab at h
  split at h
  · cases h
  · dsimp only at h
    split at h
    · cases h
    · split at h <;> cases h

theorem checkStatus_error {e : ServiceError} (h : checkStatus row status rule = .error e) :
    e ≠ .integrityError := by
  rintro rfl
  unfold checkStatus raiseIf at h
  split at h <;> cases h

theorem latestActiveKey_error {keys : Table SshPublicKey} {userId : Nat} {e : ServiceError}
    (h : latestActiveKeyForUser keys userId = .error e) : e ≠ .integrityError := by
  rintro rfl
  unfold latestActiveKeyForUser at h
  split at h <;> cases h

/-- Loading inserts nothing. -/
theorem loadPush_error {e : ServiceError} (hload : loadPush rows requestId labId status rule = .error e) :
    e ≠ .integrityError := by
  unfold loadPush at hload
  cases hrequest : loadRequestInLab rows requestId labId with
  | error e' =>
      rw [hrequest] at hload
      exact Except.error.inj hload ▸ loadRequestInLab_error hrequest
  | ok p =>
      rw [hrequest] at hload
      dsimp only [bind, Except.bind] at hload
      cases hcheck : checkStatus p.1 status rule with
      | error e' =>
          rw [hcheck] at hload
          exact Except.error.inj hload ▸ checkStatus_error hcheck
      | ok _ =>
          rw [hcheck] at hload
          cases hkey : latestActiveKeyForUser rows.sshKeys p.1.requesterUserId with
          | error e' =>
              rw [hkey] at hload
              exact Except.error.inj hload ▸ latestActiveKey_error hkey
          | ok key =>
              rw [hkey] at hload
              cases hload

/-- The service hears that the agent has carried out a request. -/
def Answers (digest : Digest) (c : KeyCommand) (outcome : RpcOutcome) : Prop :=
  outcome = .answered ∧ c.accepted digest = true

instance (digest : Digest) (c : KeyCommand) (outcome : RpcOutcome) :
    Decidable (Answers digest c outcome) := inferInstanceAs (Decidable (_ ∧ _))

/-- How a call ends for the service. -/
theorem reply_cases (digest : Digest) (c : KeyCommand) (outcome : RpcOutcome) :
    Answers digest c outcome ∧ outcome.reply (c.accepted digest) = .ok () ∨
      ¬ Answers digest c outcome ∧ ∃ e, outcome.reply (c.accepted digest) = .error e := by
  cases outcome with
  | answered =>
      cases haccepted : c.accepted digest with
      | true => exact Or.inl ⟨⟨rfl, haccepted⟩, rfl⟩
      | false => exact Or.inr ⟨fun h => Bool.false_ne_true (haccepted ▸ h.2), _, rfl⟩
  | offline | timedOut | failed => exact Or.inr ⟨fun h => RpcOutcome.noConfusion h.1, _, rfl⟩

/-- How an approval ends, after its call. -/
theorem approveRequest_cases (digest : Digest) (h : Hosts) (decisionNote : Option String)
    (adminUserId : Nat) (now : Time) (outcome : RpcOutcome)
    (hload : loadPush rows requestId labId .pending "pending can be approved" = .ok (row, pa, key)) :
    ∃ result, approveRequest digest rows h requestId decisionNote adminUserId labId now outcome =
        ((requestResponse digest h (hostUser pa) (pushCommand row pa key "") outcome).1, result) ∧
      ((Answers digest (pushCommand row pa key "") outcome ∧
          ((rows.entries.insert? pa.id key.id adminUserId row.requesterUserId now = none ∧
              result = .error .integrityError) ∨
            ∃ entries,
              rows.entries.insert? pa.id key.id adminUserId row.requesterUserId now = some entries ∧
              result = .ok (decide { rows with entries := entries } row .approved (some adminUserId)
                now decisionNote))) ∨
        ¬ Answers digest (pushCommand row pa key "") outcome ∧ (result = .error (.agentRpc .other) ∨
          result = .ok (decide rows row .approved (some adminUserId) now decisionNote))) := by
  unfold approveRequest requestResponse
  rw [hload]
  dsimp only
  rcases reply_cases digest (pushCommand row pa key "") outcome with
    ⟨hanswers, hreply⟩ | ⟨hnot, e, hreply⟩
  · rw [hreply]
    dsimp only
    cases hinsert : rows.entries.insert? pa.id key.id adminUserId row.requesterUserId now with
    | none => exact ⟨_, rfl, Or.inl ⟨hanswers, Or.inl ⟨rfl, rfl⟩⟩⟩
    | some entries => exact ⟨_, rfl, Or.inl ⟨hanswers, Or.inr ⟨entries, rfl, rfl⟩⟩⟩
  · rw [hreply]
    cases e with
    | other => exact ⟨_, rfl, Or.inr ⟨hnot, Or.inl rfl⟩⟩
    | agentOffline | agentRpcTimeout => exact ⟨_, rfl, Or.inr ⟨hnot, Or.inr rfl⟩⟩

/-- How a retry ends: without a call where the entry is active, else after it. -/
theorem retryPushForRequest_cases (digest : Digest) (h : Hosts) (adminUserId : Nat) (now : Time)
    (outcome : RpcOutcome)
    (hload : loadPush rows requestId labId .approved "approved can retry key push" = .ok (row, pa, key)) :
    retryPushForRequest digest rows h requestId adminUserId labId now outcome = (h, .ok rows) ∨
      ∃ result, retryPushForRequest digest rows h requestId adminUserId labId now outcome =
          ((requestResponse digest h (hostUser pa) (pushCommand row pa key ";retry=1") outcome).1,
            result) ∧
        ((Answers digest (pushCommand row pa key ";retry=1") outcome ∧ ∃ entries : EntryTable,
            result = .ok { rows with entries := entries } ∧ entries.Active pa.id key.id ∧
            ∀ paId keyId, rows.entries.Active paId keyId → entries.Active paId keyId) ∨
          ¬ Answers digest (pushCommand row pa key ";retry=1") outcome ∧
            (result = .error (.agentRpc .other) ∨ result = .ok rows)) := by
  unfold retryPushForRequest requestResponse
  rw [hload]
  dsimp only
  split
  · exact Or.inl rfl
  · refine Or.inr ?_
    rcases reply_cases digest (pushCommand row pa key ";retry=1") outcome with
      ⟨hanswers, hreply⟩ | ⟨hnot, e, hreply⟩
    · rw [hreply]
      dsimp only
      cases hfind : rows.entries.find? pa.id key.id with
      | none =>
          cases hinsert : rows.entries.insert? pa.id key.id adminUserId row.requesterUserId now with
          | none => exact absurd hfind (EntryTable.insert?_eq_none_iff.mp hinsert)
          | some entries =>
              obtain ⟨hnew, hkept⟩ := EntryTable.active_of_insert? hinsert
              exact ⟨_, rfl, Or.inl ⟨hanswers, entries, rfl, hnew, hkept⟩⟩
      | some entry =>
          obtain ⟨hnew, hkept⟩ := EntryTable.active_of_pushedAgain hfind
          exact ⟨_, rfl, Or.inl ⟨hanswers, _, rfl, hnew, hkept⟩⟩
    · rw [hreply]
      cases e with
      | other => exact ⟨_, rfl, Or.inr ⟨hnot, Or.inl rfl⟩⟩
      | agentOffline | agentRpcTimeout => exact ⟨_, rfl, Or.inr ⟨hnot, Or.inr rfl⟩⟩

end Pushes

section Revoke

variable {digest : Digest} {keys : Table SshPublicKey} {u : HostUser} {actorUserId : Nat} {now : Time}
  {outcome : Nat → RpcOutcome} {es : List AuthorizedKeyEntry} {h : Hosts} {t t' : EntryTable}

/-- One round of the loop: an entry without its key is passed over, and an unexpected error
ends the loop. -/
theorem revokeEntries_cons (entry : AuthorizedKeyEntry) (es : List AuthorizedKeyEntry) (h : Hosts)
    (t : EntryTable) :
    (keys.get? entry.sshPublicKeyId = none ∧
        revokeEntries digest keys u actorUserId now outcome (entry :: es) h t =
          revokeEntries digest keys u actorUserId now outcome es h t) ∨
      ∃ key h', keys.get? entry.sshPublicKeyId = some key ∧
        h' = (requestResponse digest h u (.revoke key.fingerprintSha256) (outcome entry.id)).1 ∧
        ((∃ e, revokeEntries digest keys u actorUserId now outcome (entry :: es) h t = (h', .error e)) ∨
          revokeEntries digest keys u actorUserId now outcome (entry :: es) h t =
            revokeEntries digest keys u actorUserId now outcome es h'
              (t.change entry.id (·.removed actorUserId now) (fun _ => rfl) fun _ => ⟨rfl, rfl⟩)) := by
  rw [revokeEntries]
  cases hkey : keys.get? entry.sshPublicKeyId with
  | none => exact Or.inl ⟨rfl, rfl⟩
  | some key =>
      refine Or.inr ⟨key, _, rfl, rfl, ?_⟩
      unfold requestResponse
      cases outcome entry.id with
      | failed b => exact Or.inl ⟨_, rfl⟩
      | answered | offline | timedOut b => exact Or.inr rfl

/-- The loop adds no line. -/
theorem revokeEntries_lines {v : HostUser} {l : KeyLine}
    (hl : l ∈ (revokeEntries digest keys u actorUserId now outcome es h t).1.lines v) : l ∈ h.lines v := by
  induction es generalizing h t with
  | nil => exact hl
  | cons entry es ih =>
      rcases revokeEntries_cons entry es h t with ⟨-, heq⟩ | ⟨key, h', -, rfl, ⟨e, heq⟩ | heq⟩
      · rw [heq] at hl
        exact ih hl
      · rw [heq] at hl
        exact mem_lines_of_revoke hl
      · rw [heq] at hl
        exact mem_lines_of_revoke (ih hl)

/-- The loop sends nothing but revokes. -/
theorem revokeEntries_inFlight {f : HostUser × KeyCommand}
    (hf : f ∈ (revokeEntries digest keys u actorUserId now outcome es h t).1.inFlight) :
    f ∈ h.inFlight ∨ ∃ fingerprint, f.2 = .revoke fingerprint := by
  induction es generalizing h t with
  | nil => exact Or.inl hf
  | cons entry es ih =>
      rcases revokeEntries_cons entry es h t with ⟨-, heq⟩ | ⟨key, h', -, rfl, ⟨e, heq⟩ | heq⟩
      · rw [heq] at hf
        exact ih hf
      · rw [heq] at hf
        exact (inFlight_requestResponse hf).imp_right fun hsent => ⟨_, by rw [hsent]⟩
      · rw [heq] at hf
        rcases ih hf with hf | hrevoke
        · exact (inFlight_requestResponse hf).imp_right fun hsent => ⟨_, by rw [hsent]⟩
        · exact Or.inr hrevoke

/-- **No line of a revoked key is left** when the agent carried out its revoke. -/
theorem revokeEntries_gone {entry : AuthorizedKeyEntry} {key : SshPublicKey} (hentry : entry ∈ es)
    (hkey : keys.get? entry.sshPublicKeyId = some key)
    (hout : (outcome entry.id).carriedOut = true)
    (hok : (revokeEntries digest keys u actorUserId now outcome es h t).2 = .ok t') :
    ∀ l ∈ (revokeEntries digest keys u actorUserId now outcome es h t).1.lines u,
      hasFingerprint digest key.fingerprintSha256 l.text = false := by
  induction es generalizing h t with
  | nil => cases hentry
  | cons first es ih =>
      rcases revokeEntries_cons first es h t with ⟨hnone, heq⟩ | ⟨key', h', hkey', rfl, ⟨e, heq⟩ | heq⟩
      · rw [heq] at hok ⊢
        rcases List.mem_cons.mp hentry with rfl | hentry
        · rw [hkey] at hnone
          cases hnone
        · exact ih hentry hok
      · rw [heq] at hok
        cases hok
      · rw [heq] at hok ⊢
        rcases List.mem_cons.mp hentry with rfl | hentry
        · obtain rfl : key = key' := Option.some.inj (hkey.symm.trans hkey')
          intro l hl
          have hleft := revokeEntries_lines hl
          rw [lines_requestResponse, if_pos hout, lines_carryOut, if_pos rfl] at hleft
          exact (HostFile.of_mem_lines_revoke hleft).2
        · exact ih hentry hok

/-- The other entries stay as they are. -/
theorem revokeEntries_kept {a : AuthorizedKeyEntry} (ha : a ∈ t.table.rows)
    (hother : ∀ e ∈ es, e.id ≠ a.id)
    (hok : (revokeEntries digest keys u actorUserId now outcome es h t).2 = .ok t') :
    a ∈ t'.table.rows := by
  induction es generalizing h t with
  | nil => exact Except.ok.inj hok ▸ ha
  | cons first es ih =>
      have hrest : ∀ e ∈ es, e.id ≠ a.id := fun e he => hother e (List.mem_cons_of_mem _ he)
      rcases revokeEntries_cons first es h t with ⟨-, heq⟩ | ⟨key, h', -, -, ⟨e, heq⟩ | heq⟩
      · rw [heq] at hok
        exact ih ha hrest hok
      · rw [heq] at hok
        cases hok
      · rw [heq] at hok
        refine ih ?_ hrest hok
        exact List.mem_map.mpr ⟨a, ha, if_neg fun hid => hother first List.mem_cons_self hid.symm⟩

end Revoke

end AccountLinkRequests

end CoreLab
