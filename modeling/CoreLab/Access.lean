import CoreLab.AccountService
import CoreLab.LastAdmin

/-!
# CoreLab.Access

Who may use what: account links and server admin grants, beside the users they belong to.  Each
request is one transaction; it reads a snapshot, so a link may still be established by a request
that was under way when its user was disabled, and two revocations may write one row.

* `plan` — what a request writes, from the rows that it sees;
* `next` — how it writes that, with the unique indexes on the active rows;
* `Governed`, `Keeps` — what holds of the rows at any time, and how they change;
* `Cascades` — what disabling and reactivation do to them; that it is so is shown in
  `CoreLab.AccessRuns`.
-/

namespace CoreLab

open Transactions

namespace Access

open LastAdmin (User Kind)

/-! ## rows -/

/-- What a row gives access to. -/
inductive Resource where
  | account (physicalAccountId : Nat)
  | server (serverId : Nat)
deriving DecidableEq

/-- The tables of such rows. -/
inductive Store where
  | accountLink
  | serverAdminGrant
deriving DecidableEq

def Resource.store : Resource → Store
  | account _ => .accountLink
  | server _ => .serverAdminGrant

/-- A row of `account_link` or of `server_admin_grant`, which has neither source nor reason. -/
structure Right where
  userId : Nat
  resource : Resource
  source : Option LinkSource := none
  /-- `established_by_user_id`, `granted_by_user_id`. -/
  byUserId : Nat
  isActive : Bool := true
  revokedByUserId : Option Nat := none
  revokedAt : Option Time := none
  revokeReason : Option RevokeReason := none
deriving DecidableEq

def Right.revoked (a : Right) (byUserId : Nat) (reason : Option RevokeReason) (now : Time) : Right :=
  { a with
    isActive := false, revokedByUserId := some byUserId, revokedAt := some now
    revokeReason := reason }

/-- A row of either table. -/
structure Ref where
  store : Store
  id : Nat
deriving DecidableEq

/-- The rows of three tables, and the entries of `uq_link_user_pa_active` and
`uq_grant_user_server_active`. -/
inductive Key where
  | user (id : Nat)
  | right (ref : Ref)
  | entry (userId : Nat) (resource : Resource)
deriving DecidableEq

inductive Row where
  | user (u : User)
  | right (a : Right)
  /-- The active row, if there is one. -/
  | entry (holder : Option Ref)
deriving DecidableEq

abbrev Rows := Dict Key Row

/-- The columns that never change: the server of an account and the lab of a server. -/
structure Site where
  serverOf : Nat → Nat
  labOf : Nat → Nat

/-! ## queries -/

def user? (rows : Rows) (id : Nat) : Option User :=
  match rows.get? (.user id) with
  | some (.user u) => some u
  | _ => none

def right? (rows : Rows) (ref : Ref) : Option Right :=
  match rows.get? (.right ref) with
  | some (.right a) => some a
  | _ => none

def rightOf : Key × Row → Option (Ref × Right)
  | (.right ref, .right a) => some (ref, a)
  | _ => none

def rights (rows : Rows) : List (Ref × Right) := rows.entries.filterMap rightOf

/-- `_existing_active_link`, and the query of `revoke_admin`. -/
def existing (rows : Rows) (userId : Nat) (resource : Resource) : Option (Ref × Right) :=
  (rights rows).find? fun x => x.2.userId = userId && x.2.resource = resource && x.2.isActive

/-- The queries of `_cascade_revoke_access`. -/
def activeOf (rows : Rows) (store : Store) (userId : Nat) : List (Ref × Right) :=
  (rights rows).filter fun x => x.1.store = store && x.2.userId = userId && x.2.isActive

/-- `assert_server_admin`. -/
def isServerAdmin (rows : Rows) (userId : Nat) (user : User) (serverId : Nat) : Bool :=
  user.role = .labAdmin || (existing rows userId (.server serverId)).isSome

/-! ## requests -/

inductive Call where
  | verifyChallenge (physicalAccountId : Nat)
  | tryPassword (serverId physicalAccountId : Nat)
  | upgradeViaChallenge (linkId physicalAccountId : Nat)
  /-- Also `onboard_user`, of the account that it has just created. -/
  | declareOwner (serverId physicalAccountId ownerUserId : Nat)
  | revokeLink (linkId : Nat) (reason : RevokeReason)
  | grantAdmin (serverId userId : Nat)
  | revokeAdmin (serverId userId : Nat)
  | changeRole (userId : Nat) (role : UserRole)
  | disableUser (userId : Nat)
  | reactivateUser (userId : Nat)
deriving DecidableEq

inductive Request where
  /-- Of a user who is logged in. -/
  | user (actorUserId : Nat) (call : Call)
  /-- Of someone who has a registration invite. -/
  | register (labId : Nat) (role : UserRole)
deriving DecidableEq

/-- What is flushed. -/
inductive Edit where
  | create (u : User)
  | user (id : Nat) (kind : Kind)
  | insert (a : Right)
  | revoke (ref : Ref) (byUserId : Nat) (reason : Option RevokeReason)
deriving DecidableEq

section Plan

variable (site : Site) (rows : Rows) (actorUserId : Nat) (current : User)

/-- `establish_via_ssh_challenge` and `establish_via_pam`. -/
def establish (physicalAccountId : Nat) (source : LinkSource) : Option (List Edit) :=
  match existing rows actorUserId (.account physicalAccountId) with
  | some _ => none
  | none => some [.insert
      { userId := actorUserId, resource := .account physicalAccountId, source := some source
        byUserId := actorUserId }]

/-- `upgrade_admin_declared_to_ssh`. -/
def upgradeAdminDeclaredToSsh (physicalAccountId : Nat) : Option (List Edit) :=
  match existing rows actorUserId (.account physicalAccountId) with
  | none => none
  | some (ref, old) =>
    if old.source = some .adminDeclared then
      some [.revoke ref actorUserId (some .upgradedToVerified), .insert
        { userId := actorUserId, resource := .account physicalAccountId
          source := some .sshChallenge, byUserId := actorUserId }]
    else none

/-- `admin_declare_link`. -/
def adminDeclareLink (physicalAccountId ownerUserId : Nat) : Option (List Edit) :=
  match existing rows ownerUserId (.account physicalAccountId) with
  | some _ => none
  | none => some [.insert
      { userId := ownerUserId, resource := .account physicalAccountId
        source := some .adminDeclared, byUserId := actorUserId }]

/-- The account of a link is of the lab. -/
def inLab (a : Right) (labId : Nat) : Bool :=
  match a.resource with
  | .account physicalAccountId => site.labOf (site.serverOf physicalAccountId) = labId
  | .server _ => false

/-- Who may give which reason for a revocation. -/
def mayRevoke (a : Right) : RevokeReason → Bool
  | .self => a.userId = actorUserId
  | .adminForce | .userDisabled | .paDisabled => current.role = .labAdmin
  | .upgradedToVerified => false

/-- `_cascade_revoke_access`. -/
def cascadeRevokeAccess (userId : Nat) : List Edit :=
  (activeOf rows .accountLink userId).map (fun x => .revoke x.1 actorUserId (some .userDisabled)) ++
    (activeOf rows .serverAdminGrant userId).map (fun x => .revoke x.1 actorUserId none)

/-- A user of the lab, for a lab admin; nobody changes the own role or disables oneself. -/
def subject? (userId : Nat) (self : Bool) : Option User :=
  if current.role = .labAdmin ∧ (self = true ∨ actorUserId ≠ userId) then
    (user? rows userId).filter fun u => u.labId = current.labId
  else none

/-- The handlers and their services; `none` where they refuse.  What they read of other tables, the
answer of the agent and the count of the remaining admins may make them refuse as well. -/
def planOf : Call → Option (List Edit)
  | .verifyChallenge physicalAccountId =>
    establish rows actorUserId physicalAccountId .sshChallenge
  | .tryPassword serverId physicalAccountId =>
    if site.labOf serverId = current.labId ∧ site.serverOf physicalAccountId = serverId then
      establish rows actorUserId physicalAccountId .passwordPam
    else none
  | .upgradeViaChallenge linkId physicalAccountId => do
    let link ← right? rows ⟨.accountLink, linkId⟩
    if inLab site link current.labId ∧ link.userId = actorUserId ∧
        link.source = some .adminDeclared ∧ link.resource = .account physicalAccountId then
      upgradeAdminDeclaredToSsh rows actorUserId physicalAccountId
    else none
  | .declareOwner serverId physicalAccountId ownerUserId =>
    if isServerAdmin rows actorUserId current serverId ∧ site.labOf serverId = current.labId ∧
        site.serverOf physicalAccountId = serverId ∧
        (user? rows ownerUserId).any fun u => u.labId = current.labId then
      adminDeclareLink rows actorUserId physicalAccountId ownerUserId
    else none
  | .revokeLink linkId reason => do
    let link ← right? rows ⟨.accountLink, linkId⟩
    if inLab site link current.labId ∧ mayRevoke actorUserId current link reason ∧ link.isActive then
      some [.revoke ⟨.accountLink, linkId⟩ actorUserId (some reason)]
    else none
  | .grantAdmin serverId userId =>
    if current.role = .labAdmin ∧ site.labOf serverId = current.labId ∧ (user? rows userId).isSome then
      some [.insert { userId := userId, resource := .server serverId, byUserId := actorUserId }]
    else none
  | .revokeAdmin serverId userId => do
    let grant ← existing rows userId (.server serverId)
    if current.role = .labAdmin ∧ site.labOf serverId = current.labId then
      some [.revoke grant.1 actorUserId none]
    else none
  | .changeRole userId role => do
    let u ← subject? rows actorUserId current userId false
    some (if u.role = role then [] else [.user userId (.changeRole role)])
  | .disableUser userId => do
    let u ← subject? rows actorUserId current userId false
    some ((if u.isActive then [.user userId .disable] else []) ++
      cascadeRevokeAccess rows actorUserId userId)
  | .reactivateUser userId => do
    let u ← subject? rows actorUserId current userId true
    some (if u.isActive then [] else [.user userId .reactivate])

end Plan

/-- What a request writes; `get_current_user` comes first.  A registration creates the user that its
invite is for, as `_complete_registration_invite` does. -/
def plan (site : Site) (r : Request) (rows : Rows) : Option (List Edit) :=
  match r with
  | .user actorUserId call => do
    let current ← user? rows actorUserId
    if current.isActive then planOf site rows actorUserId current call else none
  | .register labId role => some [.create { labId := labId, role := role, isActive := true }]

/-! ## transactions -/

/-- Where a transaction is. -/
inductive Phase where
  | received (r : Request)
  | doing (r : Request) (edits : List Edit)
  /-- The row is inserted, its index entry comes next. -/
  | entering (r : Request) (ref : Ref) (a : Right) (edits : List Edit)
  /-- The row is locked. -/
  | updating (r : Request) (ref : Ref) (was : Right) (byUserId : Nat) (reason : Option RevokeReason)
      (edits : List Edit)
  /-- The row is no longer active, its index entry goes next. -/
  | leaving (r : Request) (ref : Ref) (userId : Nat) (resource : Resource) (edits : List Edit)
  | stale
  /-- Committed. -/
  | done (r : Request)
  | refused

/-- What a transaction learns. -/
inductive Input where
  | proceed
  | refuse
  /-- The key of a new row. -/
  | fresh (id : Nat)
  | now (time : Time)

def onUser (f : User → User) : Row → Row
  | .user u => .user (f u)
  | row => row

def onRight (f : Right → Right) : Row → Row
  | .right a => .right (f a)
  | row => row

/-- An active row takes its index entry, which must be free. -/
def enter (ref : Ref) : Option Row → Option Row
  | none | some (.entry none) => some (.entry (some ref))
  | _ => none

/-- A row gives up its index entry. -/
def leave (ref : Ref) : Row → Row
  | .entry (some holder) => if holder = ref then .entry none else .entry (some holder)
  | row => row

/-- The row that was locked for a revocation. -/
def locked (r : Request) (ref : Ref) (byUserId : Nat) (reason : Option RevokeReason)
    (edits : List Edit) : Option Row → Phase
  | some (.right was) => .updating r ref was byUserId reason edits
  | _ => .stale

def begin (r : Request) : Option (List Edit) → Op Key Row Phase
  | none => .commit .refused
  | some edits => .goto (.doing r edits)

def next (site : Site) : Phase → Rows → Input → Option (Op Key Row Phase)
  | .received r, rows, .proceed => some (begin r (plan site r rows))
  | .received _, _, .refuse => some (.commit .refused)
  | .doing r [], _, .proceed => some (.commit (.done r))
  | .doing r (.create u :: edits), _, .fresh id =>
    some (.insert (.user id) (.user u) (.doing r edits))
  | .doing r (.user id kind :: edits), _, .proceed =>
    some (.update (.user id) (onUser kind.apply) (.doing r edits))
  | .doing r (.insert a :: edits), _, .fresh id =>
    some (.insert (.right ⟨a.resource.store, id⟩) (.right a)
      (.entering r ⟨a.resource.store, id⟩ a edits))
  | .entering r ref a edits, _, .proceed =>
    some (.write (.entry a.userId a.resource) (enter ref) (.doing r edits))
  | .doing r (.revoke ref byUserId reason :: edits), _, .proceed =>
    some (.lock (.right ref) (fun _ => true) (locked r ref byUserId reason edits))
  | .updating r ref was byUserId reason edits, _, .now time =>
    some (.update (.right ref) (onRight (·.revoked byUserId reason time))
      (if was.isActive then .leaving r ref was.userId was.resource edits else .doing r edits))
  | .leaving r ref userId resource edits, _, .proceed =>
    some (.update (.entry userId resource) (leave ref) (.doing r edits))
  -- `StaleDataError`
  | .stale, _, .proceed => some .rollback
  | _, _, _ => none

def program (site : Site) : Program Key Row Phase Request Input := ⟨.received, next site⟩

abbrev System := Transactions.System Key Row Phase

abbrev Tx := Transactions.Tx Key Row Phase

def step (site : Site) : System → Action Request Input → Option System := System.step (program site)

/-- Users, and no access yet. -/
def start (users : Dict Nat User) : System where
  rows := users.entries.foldl (fun rows e => rows.set (.user e.1) (.user e.2)) .empty

/-! ## what is promised -/

/-- Whose a row is, what for, and who has given it does not change, and it is not made active again. -/
structure Continues (a b : Right) : Prop where
  userId : b.userId = a.userId
  resource : b.resource = a.resource
  source : b.source = a.source
  byUserId : b.byUserId = a.byUserId
  active : b.isActive = true → a.isActive = true

/-- A revoked row says by whom and when, an active one does not. -/
def Right.Signed (a : Right) : Prop :=
  a.revokedByUserId.isSome = !a.isActive ∧ a.revokedAt.isSome = !a.isActive

/-- Access is given by an active user: by verification, to an account, to oneself; by declaration,
to an account, as an admin of its server; by a grant, to a server, as an admin of its lab. -/
def Authorised (site : Site) (rows : Rows) (a : Right) : Prop :=
  ∃ giver, user? rows a.byUserId = some giver ∧ giver.isActive = true ∧
    match a.resource, a.source with
    | .account physicalAccountId, some .adminDeclared =>
      isServerAdmin rows a.byUserId giver (site.serverOf physicalAccountId) = true ∧
        site.labOf (site.serverOf physicalAccountId) = giver.labId
    | .account _, some _ => a.byUserId = a.userId
    | .server serverId, none => giver.role = .labAdmin ∧ site.labOf serverId = giver.labId
    | _, _ => False

/-- An edit of a request that has seen these rows. -/
def Plans (site : Site) (r : Request) (rows : Rows) (e : Edit) : Prop :=
  ∃ edits, plan site r rows = some edits ∧ e ∈ edits

/-- A request that was committed has planned the row, which was not there yet. -/
structure MadeBy (site : Site) (ref : Ref) (a : Right) (tx : Tx) : Prop where
  planned : ∃ r b, tx.phase = .done r ∧ Plans site r tx.snapshot (.insert b) ∧ Continues b a
  absent : tx.snapshot.get? (.right ref) = none
  authorised : Authorised site tx.snapshot a

/-- The rows as they are at any time. -/
structure Governed (site : Site) (sys : System) : Prop where
  /-- A user has one active row for an account or a server. -/
  unique : ∀ ref ref' a b, sys.rows.get? (.right ref) = some (.right a) →
    sys.rows.get? (.right ref') = some (.right b) → a.isActive = true → b.isActive = true →
    a.userId = b.userId → a.resource = b.resource → ref = ref'
  made : ∀ ref a, sys.rows.get? (.right ref) = some (.right a) → ∃ tx ∈ sys.txs, MadeBy site ref a tx
  signed : ∀ ref a, sys.rows.get? (.right ref) = some (.right a) → a.Signed

/-- A request commits. -/
def Commits (sys sys' : System) (tx : Tx) (r : Request) : Prop :=
  ∃ i : Nat, sys.txs[i]? = some tx ∧ tx.live = true ∧ sys'.txs[i]? = some (tx.ended (.done r))

def ActiveAt (rows : Rows) (ref : Ref) : Prop :=
  ∃ a, rows.get? (.right ref) = some (.right a) ∧ a.isActive = true

/-- The row is still there. -/
def RevokedAt (rows : Rows) (ref : Ref) : Prop :=
  ∃ a, rows.get? (.right ref) = some (.right a) ∧ a.isActive = false

/-- A row stays what it is, unless a request commits that has seen it active and revokes it.  Where
several have, the last one signs it. -/
def Keeps (site : Site) (sys sys' : System) : Prop :=
  ∀ ref a, sys.rows.get? (.right ref) = some (.right a) →
    ∃ b, sys'.rows.get? (.right ref) = some (.right b) ∧
      (b = a ∨ ∃ tx r byUserId reason time, Commits sys sys' tx r ∧ ActiveAt tx.snapshot ref ∧
        Plans site r tx.snapshot (.revoke ref byUserId reason) ∧ b = a.revoked byUserId reason time)

/-- The user was active when the transaction began. -/
def ActiveIn (tx : Tx) (userId : Nat) : Prop :=
  ∃ u, user? tx.snapshot userId = some u ∧ u.isActive = true

/-- The transaction has disabled the user. -/
def Disabled (tx : Tx) (userId : Nat) : Prop :=
  ∃ actorUserId, tx.phase = .done (.user actorUserId (.disableUser userId))

/-- Why a user is disabled: he was, or he has never been active. -/
def Off (txs : List Tx) (userId : Nat) : Prop :=
  (∃ tx ∈ txs, Disabled tx userId) ∨ ∀ tx ∈ txs, ¬ ActiveIn tx userId

/-- A disabled user still has an access: it was not there when any disabling of him began, and if he
took it himself, he was active when he began to. -/
structure Overlapped (site : Site) (sys : System) (ref : Ref) (a : Right) : Prop where
  made : ∃ tx ∈ sys.txs, MadeBy site ref a tx ∧ (a.byUserId = a.userId → ActiveIn tx a.userId)
  disabled : Off sys.txs a.userId
  unseen : ∀ tx ∈ sys.txs, Disabled tx a.userId → tx.snapshot.get? (.right ref) = none

/-- The access of a user, where users are disabled and reactivated. -/
structure Cascades (site : Site) (sys sys' : System) : Prop where
  /-- Whatever a disabling has seen of it is revoked, and stays so. -/
  revoked : ∀ tx ∈ sys'.txs, ∀ ref a, tx.snapshot.get? (.right ref) = some (.right a) →
    Disabled tx a.userId → RevokedAt sys'.rows ref
  left : ∀ ref a u, sys'.rows.get? (.right ref) = some (.right a) → a.isActive = true →
    user? sys'.rows a.userId = some u → u.isActive = false → Overlapped site sys' ref a
  /-- A reactivation changes no access. -/
  reactivated : ∀ id u u', user? sys.rows id = some u → u.isActive = false →
    user? sys'.rows id = some u' → u'.isActive = true →
    ∀ ref, sys'.rows.get? (.right ref) = sys.rows.get? (.right ref)

end Access

end CoreLab
