import CoreLab.Models

/-!
# CoreLab.AccountService

The writers of account links and physical accounts.  Nothing is ever removed:
revoking and deleting set `is_active`, and leave the reservations that were
booked through the row as they are.  A scan of an agent only adds accounts.
-/

namespace CoreLab

open Relational

/-- `AccountLinkError` and `PhysicalAccountError`, by their subclasses. -/
inductive AccountError where
  | accountLink (message : String)
  | linkAlreadyActive (message : String)
  | accountNotFound (message : String)
  | duplicateAccount (message : String)
deriving DecidableEq, Repr

/-! ## links -/

/-- `_existing_active_link`. -/
def existingActiveLink (db : Db) (userId physicalAccountId : Nat) : Option AccountLink :=
  db.accountLinks.rows.find? fun l =>
    l.userId = userId && l.physicalAccountId = physicalAccountId && l.isActive

/-- An active link, not revoked yet, under the key it is given. -/
def newLink (userId physicalAccountId : Nat) (source : LinkSource) : Table.Insertion AccountLink :=
  ⟨fun id =>
    { id := id, userId := userId, physicalAccountId := physicalAccountId, source := source
      isActive := true, revokedByUserId := none, revokedAt := none, revokeReason := none },
    fun _ => rfl⟩

/-- The body that the establishing functions share: refuse a duplicate, insert,
audit. -/
def insertLink (db : Db) (userId physicalAccountId serverId : Nat) (source : LinkSource)
    (action : AuditAction) (actorUserId : Nat) : Except AccountError Db :=
  match existingActiveLink db userId physicalAccountId with
  | some _ => .error (.linkAlreadyActive
      s!"user {userId} already linked to physical_account {physicalAccountId}")
  | none =>
    let linked := { db with accountLinks :=
      db.accountLinks.append (newLink userId physicalAccountId source) }
    .ok (linked.audit
      { action := action, actorUserId := some actorUserId, targetType := .accountLink
        targetId := some db.accountLinks.nextKey, targetServerId := some serverId })

/-- `establish_via_pam`. -/
def establishViaPam (db : Db) (userId physicalAccountId serverId : Nat) : Except AccountError Db :=
  insertLink db userId physicalAccountId serverId .passwordPam .accountLinkEstablished userId

/-- `establish_via_ssh_challenge`. -/
def establishViaSshChallenge (db : Db) (userId physicalAccountId serverId : Nat) :
    Except AccountError Db :=
  insertLink db userId physicalAccountId serverId .sshChallenge .accountLinkEstablished userId

/-- `admin_declare_link`. -/
def adminDeclareLink (db : Db) (physicalAccountId ownerUserId declaredByUserId serverId : Nat) :
    Except AccountError Db :=
  insertLink db ownerUserId physicalAccountId serverId .adminDeclared .accountLinkAdminDeclared
    declaredByUserId

/-- A link that is not active any more. -/
def AccountLink.revoked (link : AccountLink) (actorUserId : Nat) (reason : RevokeReason) (now : Time) :
    AccountLink :=
  { link with
    isActive := false, revokedAt := some now, revokedByUserId := some actorUserId
    revokeReason := some reason }

@[simp] theorem AccountLink.revoked_id (link : AccountLink) (actorUserId : Nat) (reason : RevokeReason)
    (now : Time) : (link.revoked actorUserId reason now).id = link.id := rfl

@[simp] theorem AccountLink.revoked_isActive (link : AccountLink) (actorUserId : Nat)
    (reason : RevokeReason) (now : Time) : (link.revoked actorUserId reason now).isActive = false := rfl

/-- `upgrade_admin_declared_to_ssh`. -/
def upgradeAdminDeclaredToSsh (db : Db) (userId physicalAccountId serverId : Nat) (now : Time) :
    Except AccountError Db :=
  match existingActiveLink db userId physicalAccountId with
  | none => .error (.accountLink
      s!"no existing link to upgrade for user {userId} / pa {physicalAccountId}")
  | some old =>
    let source := old.source.text
    if old.source ≠ .adminDeclared then .error (.accountLink
      s!"link {old.id} source is '{source}'; only admin_declared can be upgraded")
    else
      let revoked := db.accountLinks.put (old.revoked userId .upgradedToVerified now)
      let links := revoked.append (newLink userId physicalAccountId .sshChallenge)
      .ok ({ db with accountLinks := links }.audit
        { action := .accountLinkUpgraded, actorUserId := some userId, targetType := .accountLink
          targetId := some revoked.nextKey, targetServerId := some serverId })

/-- `load_link_in_lab`, with the account it found on the way. -/
def loadLinkInLab (db : Db) (linkId labId : Nat) :
    Except AccountError (AccountLink × PhysicalAccount) :=
  match db.accountLinks.get? linkId with
  | none => .error (.accountLink s!"account_link {linkId} not found")
  | some link =>
    match db.physicalAccounts.get? link.physicalAccountId with
    | none => .error (.accountLink s!"physical_account {link.physicalAccountId} not found")
    | some pa =>
      if (db.servers.get? pa.serverId).all fun s => s.labId ≠ labId then
        .error (.accountLink s!"account_link {linkId} not in lab {labId}")
      else .ok (link, pa)

/-- `revoke_link`, of a link loaded in the caller's lab. -/
def revokeLink (db : Db) (linkId labId actorUserId : Nat) (reason : RevokeReason) (now : Time) :
    Except AccountError Db := do
  let (link, pa) ← loadLinkInLab db linkId labId
  if link.isActive then
    let revoked := { db with accountLinks := db.accountLinks.put (link.revoked actorUserId reason now) }
    .ok (revoked.audit
      { action := .accountLinkRevoked, actorUserId := some actorUserId, targetType := .accountLink
        targetId := some link.id, targetServerId := some pa.serverId })
  else .error (.accountLink s!"link {link.id} is already revoked")

/-! ## physical accounts -/

/-- The server exists and is the lab's. -/
def serverInLab (db : Db) (serverId labId : Nat) : Bool :=
  (db.servers.get? serverId).any fun s => s.labId = labId

/-- An active account, under the key it is given. -/
def newAccount (serverId : Nat) (linuxUsername : String) : Table.Insertion PhysicalAccount :=
  ⟨fun id => { id := id, serverId := serverId, linuxUsername := linuxUsername, isActive := true },
    fun _ => rfl⟩

/-- `physical_account_service.create`. -/
def createAccount (db : Db) (serverId : Nat) (linuxUsername : String) (actorUserId labId : Nat) :
    Except AccountError Db :=
  if !serverInLab db serverId labId then
    .error (.accountNotFound s!"server {serverId} not in lab {labId}")
  else if db.physicalAccounts.rows.any fun pa =>
      pa.serverId = serverId && pa.linuxUsername = linuxUsername && pa.isActive then
    .error (.duplicateAccount
      s!"physical_account '{linuxUsername}' already active on server {serverId}")
  else
    let created :=
      { db with physicalAccounts := db.physicalAccounts.append (newAccount serverId linuxUsername) }
    .ok (created.audit
      { action := .physicalAccountCreate, actorUserId := some actorUserId
        targetType := .physicalAccount, targetId := some db.physicalAccounts.nextKey
        targetServerId := some serverId })

/-- `physical_account_service.delete`: the row stays, for links and reservations. -/
def deleteAccount (db : Db) (paId actorUserId labId : Nat) : Except AccountError Db :=
  match db.physicalAccounts.get? paId with
  | none => .error (.accountNotFound s!"physical_account {paId} not found")
  | some pa =>
    if !serverInLab db pa.serverId labId then
      .error (.accountNotFound s!"physical_account {paId} not in lab {labId}")
    else if !pa.isActive then .ok db
    else
      let deleted := { db with physicalAccounts := db.physicalAccounts.put { pa with isActive := false } }
      .ok (deleted.audit
        { action := .physicalAccountDelete, actorUserId := some actorUserId
          targetType := .physicalAccount, targetId := some pa.id, targetServerId := some pa.serverId })

/-! ## scans -/

/-- One name of a scan: known names are left alone, an inactive account is not
resurrected. -/
def scanEntry (serverId : Nat) (inactiveNames : List String)
    (acc : Table PhysicalAccount × List String × List String) (name : String) :
    Table PhysicalAccount × List String × List String :=
  let (accounts, active, created) := acc
  if name.isEmpty || active.contains name || inactiveNames.contains name then acc
  else (accounts.append (newAccount serverId name), active ++ [name], created ++ [name])

/-- `sync_discovered`. -/
def syncDiscovered (db : Db) (serverId : Nat) (names : List String) : Db :=
  let existing := db.physicalAccounts.rows.filter fun pa => pa.serverId = serverId
  let active := (existing.filter (·.isActive)).map (·.linuxUsername)
  let inactiveNames := (existing.filter (!·.isActive)).map (·.linuxUsername)
  let (accounts, _, created) :=
    names.foldl (scanEntry serverId inactiveNames) (db.physicalAccounts, active, [])
  let scanned := { db with physicalAccounts := accounts }
  if created = [] then scanned
  else scanned.audit
    { action := .physicalAccountDiscovered, actorUserId := none, targetType := .server
      targetId := some serverId, targetServerId := some serverId }

/-- A scan adds accounts. -/
theorem syncDiscovered_eq (db : Db) (serverId : Nat) (names : List String) :
    ∃ accounts entries, syncDiscovered db serverId names =
        { db with physicalAccounts := accounts, auditLog := db.auditLog ++ entries } ∧
      db.physicalAccounts.Extends Eq accounts := by
  have hscan : ∀ (inactive : List String)
      (acc : Table PhysicalAccount × List String × List String),
      db.physicalAccounts.Extends Eq acc.1 →
        db.physicalAccounts.Extends Eq (names.foldl (scanEntry serverId inactive) acc).1 := by
    intro inactive
    induction names with
    | nil => exact fun _ h => h
    | cons name names ih =>
        intro acc hacc
        refine ih _ ?_
        unfold scanEntry
        dsimp only
        split
        · exact hacc
        · exact hacc.trans (fun _ _ _ => Eq.trans) (Table.extends_append (fun _ => rfl) acc.1 _)
  unfold syncDiscovered
  dsimp only
  split
  · exact ⟨_, [], by rw [List.append_nil], hscan _ _ (Table.extends_refl (fun _ => rfl) _)⟩
  · exact ⟨_, _, rfl, hscan _ _ (Table.extends_refl (fun _ => rfl) _)⟩

end CoreLab
