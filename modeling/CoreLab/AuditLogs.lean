import CoreLab.Datetime
import CoreLab.GroupCancel
import CoreLab.Lib.Dict
import CoreLab.Lib.Paging
import Mathlib.Data.List.Chain

/-!
# CoreLab.AuditLogs

The audit log as it is read: `GET /audit-logs`, page by page under a caller's scope and filters, and
`GET /audit-logs/{id}`.  Rows are only ever added, but a row is dated by its statement and numbered
before it commits, so a later row may come in anywhere in the order of the pages.

* `requireAuditAccess` — the scope a caller reads under;
* `listAuditLogs`, `getAuditLog` — the two endpoints;
* `readPages` — a reader who turns pages while others write;
* `readPages_complete` — such a reader sees every row that there was, and none beyond the scope;
* `getAuditLog_ok_iff` — a row is shown by its id exactly if some page shows it.
-/

namespace CoreLab

open Relational Paging

namespace AuditLogs

variable {π : Type}

/-! ## rows -/

/-- One row of `audit_log`, its payload of any type. -/
structure AuditLog (π : Type) where
  id : Nat
  labId : Option Nat
  actorUserId : Option Nat
  action : String
  targetType : Option String
  targetId : Option Nat
  targetServerId : Option Nat
  payload : Option π
  ipAddress : Option String
  result : String
  createdAt : Time
deriving DecidableEq

instance : Keyed (AuditLog π) := ⟨AuditLog.id⟩

structure User where
  labId : Nat
  username : String
  role : UserRole
  isActive : Bool
deriving DecidableEq

/-- The tables that the endpoints read. -/
structure World (π : Type) where
  auditLog : Table (AuditLog π)
  users : Dict Nat User
  servers : Table Server
  grants : Table ServerAdminGrant

/-! ## who may read what -/

/-- The errors of the two endpoints. -/
inductive HttpError where
  | notAuthenticated
  | notYourServer
  | onlySelfActor
  | invalidDatetime (field : String)
  | auditNotFound
deriving DecidableEq

/-- The status of an error. -/
def HttpError.status : HttpError → Nat
  | notAuthenticated => 401
  | notYourServer | onlySelfActor => 403
  | invalidDatetime _ => 422
  | auditNotFound => 404

/-- The code in its detail, or the detail. -/
def HttpError.code : HttpError → String
  | notAuthenticated => "user not found or disabled"
  | notYourServer => "NOT_YOUR_SERVER"
  | onlySelfActor => "ONLY_SELF_ACTOR"
  | invalidDatetime _ => "INVALID_DATETIME"
  | auditNotFound => "AUDIT_NOT_FOUND"

inductive AuditScope where
  | all | serverAdmin | user
deriving DecidableEq

/-- `AuditAccessContext`; the scope of a user names that user. -/
structure AuditAccessContext where
  scope : AuditScope
  serverIds : List Nat := []
  forcedActorUserId : Option Nat := none
  forced : scope = .user → forcedActorUserId.isSome = true := by simp

/-- `get_current_user`, from the id in the token on. -/
def getCurrentUser (w : World π) (userId : Nat) : Except HttpError User :=
  match w.users.get? userId with
  | some user => if user.isActive then .ok user else .error .notAuthenticated
  | none => .error .notAuthenticated

/-- The servers that a user holds an active grant for. -/
def ownedIds (grants : Table ServerAdminGrant) (userId : Nat) : List Nat :=
  (grants.rows.filter fun g => g.userId = userId && g.isActive).map (·.serverId)

/-- `_require_audit_access`. -/
def requireAuditAccess (w : World π) (userId : Nat) (targetServerId actorUserId : Option Nat) :
    Except HttpError AuditAccessContext := do
  let current ← getCurrentUser w userId
  if current.role = .labAdmin then
    return { scope := .all }
  let owned := ownedIds w.grants userId
  if owned ≠ [] then
    if targetServerId.any fun s => s ∉ owned then
      throw .notYourServer
    return { scope := .serverAdmin, serverIds := owned }
  if actorUserId.any fun a => a ≠ userId then
    throw .onlySelfActor
  return { scope := .user, forcedActorUserId := some userId }

/-! ## the service -/

/-- `AuditFilters`. -/
structure AuditFilters where
  actorUserId : Option Nat := none
  action : Option String := none
  targetType : Option String := none
  targetServerId : Option Nat := none
  createdAtFrom : Option Time := none
  createdAtTo : Option Time := none

/-- The row belongs to the lab: it says so, or it is about one of the lab's servers. -/
def inLab (servers : Table Server) (labId : Nat) (r : AuditLog π) : Bool :=
  r.labId = some labId ||
    r.targetServerId.any fun s => (servers.get? s).any fun server => server.labId = labId

/-- The `WHERE` clauses of `_apply_scope`; no row has the id that an admin of no server asks for. -/
def applyScope (servers : Table Server) (ctx : AuditAccessContext) (labId : Nat)
    (r : AuditLog π) : Bool :=
  inLab servers labId r &&
    match ctx.scope with
    | .all => true
    | .serverAdmin => if ctx.serverIds = [] then false else r.targetServerId.any (· ∈ ctx.serverIds)
    | .user => ctx.forcedActorUserId.any fun a => r.actorUserId = some a

/-- The `WHERE` clauses of `_apply_filters`; `collates` is the equality of texts of the columns'
collation, which looks at neither case nor accents. -/
def applyFilters (collates : String → String → Bool) (f : AuditFilters) (r : AuditLog π) : Bool :=
  (f.actorUserId.all fun a => r.actorUserId = some a) &&
    (f.action.all fun a => collates r.action a) &&
    (f.targetType.all fun t => r.targetType.any (collates · t)) &&
    (f.targetServerId.all fun s => r.targetServerId = some s) &&
    (f.createdAtFrom.all fun t => t ≤ r.createdAt) &&
    f.createdAtTo.all fun t => r.createdAt ≤ t

/-- `ORDER BY created_at DESC, id DESC`. -/
def Precedes (r s : AuditLog π) : Prop :=
  s.createdAt < r.createdAt ∨ r.createdAt = s.createdAt ∧ s.id ≤ r.id

instance : DecidableRel (Precedes : AuditLog π → AuditLog π → Prop) := fun r s =>
  inferInstanceAs (Decidable (s.createdAt < r.createdAt ∨ r.createdAt = s.createdAt ∧ s.id ≤ r.id))

/-- The rows of a select statement, in its order. -/
def selected (w : World π) (p : AuditLog π → Bool) : List (AuditLog π) :=
  (w.auditLog.rows.filter p).insertionSort Precedes

/-- A row as it is served, with the actor's name. -/
structure Item (π : Type) where
  id : Nat
  actor : Option (Nat × Option String)
  action : String
  targetType : Option String
  targetId : Option Nat
  targetServerId : Option Nat
  payload : Option π
  ipAddress : Option String
  result : String
  createdAt : Time
deriving DecidableEq

/-- `_serialise`. -/
def serialise (r : AuditLog π) (actorMap : Dict Nat User) : Item π where
  id := r.id
  actor := r.actorUserId.map fun a => (a, (actorMap.get? a).map (·.username))
  action := r.action
  targetType := r.targetType
  targetId := r.targetId
  targetServerId := r.targetServerId
  payload := r.payload
  ipAddress := r.ipAddress
  result := r.result
  createdAt := r.createdAt

/-- The users who acted in the rows, by id. -/
def actorMap (users : Dict Nat User) (rows : List (AuditLog π)) : Dict Nat User :=
  users.dropKeys fun id => decide (id ∉ rows.filterMap (·.actorUserId))

/-- `list_logs`: the items of the page and the number of all rows. -/
def listLogs (collates : String → String → Bool) (w : World π) (labId : Nat)
    (ctx : AuditAccessContext) (filters : AuditFilters) (page size : Nat) : List (Item π) × Nat :=
  let base := selected w fun r => applyScope w.servers ctx labId r && applyFilters collates filters r
  let rows := (base.drop ((page - 1) * size)).take size
  (rows.map fun r => serialise r (actorMap w.users rows), base.length)

/-- `get_log`. -/
def getLog (w : World π) (auditId labId : Nat) (ctx : AuditAccessContext) : Option (Item π) :=
  (w.auditLog.get? auditId).bind fun row =>
    if applyScope w.servers ctx labId row then
      let actor := row.actorUserId.bind fun a => (w.users.get? a).map fun u => (a, u)
      some (serialise row (actor.elim .empty fun found => Dict.empty.set found.1 found.2))
    else none

/-! ## the endpoints -/

/-- `_parse_iso8601`: a `+` of the offset arrives as a blank. -/
def parseIso8601 (raw field : String) : Except HttpError Time :=
  let normalised := raw.replace "Z" "+00:00"
  let normalised := if normalised.contains ' ' && normalised.contains 'T' then
      match normalised.splitOn " " with
      | before :: after => before ++ "+" ++ " ".intercalate after
      | [] => normalised
    else normalised
  match Datetime.fromisoformat normalised with
  | none => .error (.invalidDatetime field)
  | some dt => .ok dt.instant

/-- The filters of a request, as texts and numbers of the query string. -/
structure ListParams where
  actorUserId : Option Nat := none
  action : Option String := none
  targetType : Option String := none
  targetServerId : Option Nat := none
  createdAtFrom : Option String := none
  createdAtTo : Option String := none
  actorUserId_ge : ∀ id ∈ actorUserId, 1 ≤ id := by simp
  action_length : ∀ a ∈ action, 1 ≤ a.length ∧ a.length ≤ 64 := by simp
  targetType_length : ∀ t ∈ targetType, 1 ≤ t.length ∧ t.length ≤ 32 := by simp
  targetServerId_ge : ∀ id ∈ targetServerId, 1 ≤ id := by simp

/-- The page that a request asks for. -/
structure PageParams where
  page : Nat := 1
  size : Nat := 20
  page_ge : 1 ≤ page := by decide
  size_ge : 1 ≤ size := by decide
  size_le : size ≤ 100 := by decide

/-- The answer to `GET /audit-logs`. -/
structure AuditPage (π : Type) where
  items : List (Item π)
  page : Nat
  size : Nat
  total : Nat
  totalPages : Nat
deriving DecidableEq

/-- The filters of a request, its datetimes parsed. -/
def parseFilters (params : ListParams) : Except HttpError AuditFilters := do
  let createdAtFrom ← params.createdAtFrom.mapM (parseIso8601 · "created_at_from")
  let createdAtTo ← params.createdAtTo.mapM (parseIso8601 · "created_at_to")
  return { actorUserId := params.actorUserId, action := params.action,
           targetType := params.targetType, targetServerId := params.targetServerId,
           createdAtFrom := createdAtFrom, createdAtTo := createdAtTo }

/-- `list_audit_logs`. -/
def listAuditLogs (collates : String → String → Bool) (w : World π) (userId : Nat)
    (params : ListParams) (pages : PageParams) : Except HttpError (AuditPage π) := do
  let current ← getCurrentUser w userId
  let ctx ← requireAuditAccess w userId params.targetServerId params.actorUserId
  let filters ← parseFilters params
  let (items, total) := listLogs collates w current.labId ctx filters pages.page pages.size
  return { items := items, page := pages.page, size := pages.size, total := total
           totalPages := pageCount total pages.size }

/-- `get_audit_log`; the query string may name the two filters that the access is checked by. -/
def getAuditLog (w : World π) (userId auditId : Nat) (targetServerId actorUserId : Option Nat) :
    Except HttpError (Item π) := do
  let current ← getCurrentUser w userId
  let ctx ← requireAuditAccess w userId targetServerId actorUserId
  match getLog w auditId current.labId ctx with
  | some item => return item
  | none => throw .auditNotFound

/-! ## what others do -/

/-- A row commits under the number that its statement drew. -/
def commit {ρ : Type} [Keyed ρ] (t : Table ρ) (r : ρ) : Table ρ :=
  if h : Keyed.key r ∈ t.rows.map Keyed.key then t
  else ⟨t.rows ++ [r], by
    rw [List.map_append, List.map_singleton, ← List.concat_eq_append]
    exact t.nodup.concat h⟩

/-- The requests that add audit rows, or that change what the endpoints look up. -/
inductive Action (π : Type) where
  | write (entry : AuditLog π)
  | createUser (id : Nat) (user : User)
  | changeRole (id : Nat) (role : UserRole)
  | disableUser (id : Nat)
  | reactivateUser (id : Nat)
  | createServer (server : Server)
  | grantAdmin (grant : ServerAdminGrant)
  | revokeAdmin (serverId userId : Nat)

/-- An edit of a stored user. -/
def editUser (users : Dict Nat User) (id : Nat) (f : User → User) : Dict Nat User :=
  match users.get? id with
  | some user => users.set id (f user)
  | none => users

/-- The grants after `revoke_admin`. -/
def revokeGrant (serverId userId : Nat) (g : ServerAdminGrant) : ServerAdminGrant :=
  if g.serverId = serverId && g.userId = userId && g.isActive then { g with isActive := false } else g

theorem key_revokeGrant (serverId userId : Nat) (g : ServerAdminGrant) :
    Keyed.key (revokeGrant serverId userId g) = Keyed.key g := by
  unfold revokeGrant
  split <;> rfl

def step (w : World π) : Action π → World π
  | .write entry => { w with auditLog := commit w.auditLog entry }
  | .createUser id user =>
    { w with users := if (w.users.get? id).isSome then w.users else w.users.set id user }
  | .changeRole id role => { w with users := editUser w.users id fun u => { u with role := role } }
  | .disableUser id => { w with users := editUser w.users id fun u => { u with isActive := false } }
  | .reactivateUser id => { w with users := editUser w.users id fun u => { u with isActive := true } }
  | .createServer server => { w with servers := commit w.servers server }
  | .grantAdmin grant => { w with grants := commit w.grants grant }
  | .revokeAdmin serverId userId =>
    { w with grants := w.grants.mapRows (revokeGrant serverId userId) (key_revokeGrant _ _) }

/-- The action leaves alone what a user is and holds. -/
def Spares (userId : Nat) : Action π → Prop
  | .write _ | .createServer _ => True
  | .createUser id _ | .changeRole id _ | .disableUser id | .reactivateUser id => id ≠ userId
  | .grantAdmin grant => grant.userId ≠ userId
  | .revokeAdmin _ id => id ≠ userId

/-- The next page. -/
def PageParams.turn (p : PageParams) : PageParams :=
  { p with page := p.page + 1, page_ge := Nat.le_add_left 1 p.page }

/-- The tables at each page that is read, after what others did before it. -/
def worlds (w : World π) : List (List (Action π)) → List (World π)
  | [] => []
  | as :: gaps => as.foldl step w :: worlds (as.foldl step w) gaps

/-- A reader turns the pages from one on. -/
def readPages (collates : String → String → Bool) (userId : Nat) (params : ListParams) :
    PageParams → List (World π) → List (Except HttpError (AuditPage π))
  | _, [] => []
  | pages, w :: ws =>
    listAuditLogs collates w userId params pages :: readPages collates userId params pages.turn ws

/-! ## who sees what -/

/-- **Who may read a row**: someone of its lab who is a lab admin, holds a grant for the server that
the row is about, or holds no grant and did what it tells. -/
structure Readable (w : World π) (userId : Nat) (r : AuditLog π) : Prop where
  ofLab : ∃ user, w.users.get? userId = some user ∧ (r.labId = some user.labId ∨
    ∃ s server, r.targetServerId = some s ∧ w.servers.get? s = some server ∧
      server.labId = user.labId)
  power : (∃ user, w.users.get? userId = some user ∧ user.role = .labAdmin) ∨
    (∃ s, r.targetServerId = some s ∧ holdsGrant w.grants userId s = true) ∨
      (∀ s, holdsGrant w.grants userId s = false) ∧ r.actorUserId = some userId

section Access

variable {w : World π} {userId : Nat} {user : User} {ctx : AuditAccessContext}
  {targetServerId actorUserId : Option Nat} {r : AuditLog π}

theorem getCurrentUser_ok (h : getCurrentUser w userId = .ok user) :
    w.users.get? userId = some user := by
  unfold getCurrentUser at h
  split at h
  · next current hcurrent =>
      split at h
      · cases h
        exact hcurrent
      · cases h
  · cases h

theorem inLab_iff : inLab w.servers user.labId r = true ↔ r.labId = some user.labId ∨
    ∃ s server, r.targetServerId = some s ∧ w.servers.get? s = some server ∧
      server.labId = user.labId := by
  simp only [inLab, Bool.or_eq_true, decide_eq_true_eq, Option.any_eq_true]
  constructor
  · rintro (h | ⟨s, hs, server, hserver, hlab⟩)
    · exact .inl h
    · exact .inr ⟨s, server, hs, hserver, hlab⟩
  · rintro (h | ⟨s, server, hs, hserver, hlab⟩)
    · exact .inl h
    · exact .inr ⟨s, hs, server, hserver, hlab⟩

theorem mem_ownedIds {grants : Table ServerAdminGrant} {s : Nat} :
    s ∈ ownedIds grants userId ↔ holdsGrant grants userId s = true := by
  simp only [ownedIds, holdsGrant, List.mem_map, List.mem_filter, List.any_eq_true,
    Bool.and_eq_true, decide_eq_true_eq]
  constructor
  · rintro ⟨g, ⟨hg, huser, hactive⟩, rfl⟩
    exact ⟨g, hg, ⟨huser, rfl⟩, hactive⟩
  · rintro ⟨g, hg, ⟨huser, rfl⟩, hactive⟩
    exact ⟨g, ⟨hg, huser, hactive⟩, rfl⟩

/-- The three scopes. -/
theorem requireAuditAccess_cases (huser : getCurrentUser w userId = .ok user)
    (h : requireAuditAccess w userId targetServerId actorUserId = .ok ctx) :
    user.role = .labAdmin ∧ ctx.scope = .all ∨
      user.role ≠ .labAdmin ∧ ownedIds w.grants userId ≠ [] ∧ ctx.scope = .serverAdmin ∧
        ctx.serverIds = ownedIds w.grants userId ∨
      user.role ≠ .labAdmin ∧ ownedIds w.grants userId = [] ∧ ctx.scope = .user ∧
        ctx.forcedActorUserId = some userId := by
  simp only [requireAuditAccess, huser, bind, Except.bind, pure, Except.pure] at h
  split at h
  · next hrole =>
      cases h
      exact .inl ⟨hrole, rfl⟩
  · next hrole =>
      split at h
      · next howned =>
          split at h
          · cases h
          · cases h
            exact .inr (.inl ⟨hrole, howned, rfl, rfl⟩)
      · next howned =>
          split at h
          · cases h
          · cases h
            exact .inr (.inr ⟨hrole, not_not.mp howned, rfl, rfl⟩)

/-- **The scope is who may read the row.** -/
theorem applyScope_iff (huser : getCurrentUser w userId = .ok user)
    (h : requireAuditAccess w userId targetServerId actorUserId = .ok ctx) :
    applyScope w.servers ctx user.labId r = true ↔ Readable w userId r := by
  have hget := getCurrentUser_ok huser
  have hlab : inLab w.servers user.labId r = true ↔ ∃ user, w.users.get? userId = some user ∧
      (r.labId = some user.labId ∨ ∃ s server, r.targetServerId = some s ∧
        w.servers.get? s = some server ∧ server.labId = user.labId) := by
    simp [hget, inLab_iff]
  have hadmin : (∃ u, w.users.get? userId = some u ∧ u.role = .labAdmin) ↔ user.role = .labAdmin := by
    simp [hget]
  rw [applyScope, Bool.and_eq_true, hlab]
  constructor
  · rintro ⟨hin, hscope⟩
    refine ⟨hin, ?_⟩
    rcases requireAuditAccess_cases huser h with ⟨hrole, -⟩ | ⟨-, hne, hctx, hids⟩ |
      ⟨-, howned, hctx, hforced⟩
    · exact .inl (hadmin.mpr hrole)
    · simp only [hctx, hids, hne, if_false, Option.any_eq_true, decide_eq_true_eq] at hscope
      obtain ⟨s, hs, hmem⟩ := hscope
      exact .inr (.inl ⟨s, hs, mem_ownedIds.mp hmem⟩)
    · simp only [hctx, hforced, Option.any_some, decide_eq_true_eq] at hscope
      refine .inr (.inr ⟨fun s => ?_, hscope⟩)
      rw [← Bool.not_eq_true, ← mem_ownedIds, howned]
      exact List.not_mem_nil
  · rintro ⟨hin, hpower⟩
    refine ⟨hin, ?_⟩
    rcases requireAuditAccess_cases huser h with ⟨-, hctx⟩ | ⟨hrole, hne, hctx, hids⟩ |
      ⟨hrole, howned, hctx, hforced⟩
    · simp [hctx]
    · simp only [hctx, hids, hne, if_false, Option.any_eq_true, decide_eq_true_eq]
      rcases hpower with hpower | ⟨s, hs, hholds⟩ | ⟨hnone, -⟩
      · exact absurd (hadmin.mp hpower) hrole
      · exact ⟨s, hs, mem_ownedIds.mpr hholds⟩
      · obtain ⟨s, hs⟩ := List.exists_mem_of_ne_nil _ hne
        exact absurd (mem_ownedIds.mp hs) (by simp [hnone s])
    · simp only [hctx, hforced, Option.any_some, decide_eq_true_eq]
      rcases hpower with hpower | ⟨s, -, hholds⟩ | ⟨-, hactor⟩
      · exact absurd (hadmin.mp hpower) hrole
      · exact absurd (mem_ownedIds.mpr hholds) (by simp [howned])
      · exact hactor

end Access

/-! ## what the others' requests leave -/

/-- The log and the servers of a later state. -/
structure Grows (w w' : World π) : Prop where
  auditLog : w.auditLog.rows.Sublist w'.auditLog.rows
  servers : ∀ id server, w.servers.get? id = some server → w'.servers.get? id = some server

/-- What a user is and holds is as before. -/
structure Steady (userId : Nat) (w w' : World π) : Prop where
  user : w'.users.get? userId = w.users.get? userId
  owned : ownedIds w'.grants userId = ownedIds w.grants userId

section Steps

variable {w w' w'' : World π} {userId : Nat}

theorem Grows.refl (w : World π) : Grows w w := ⟨List.Sublist.refl _, fun _ _ h => h⟩

theorem Grows.trans (h : Grows w w') (h' : Grows w' w'') : Grows w w'' :=
  ⟨h.auditLog.trans h'.auditLog, fun id server hs => h'.servers id server (h.servers id server hs)⟩

theorem Steady.refl (w : World π) : Steady userId w w := ⟨rfl, rfl⟩

theorem Steady.trans (h : Steady userId w w') (h' : Steady userId w' w'') : Steady userId w w'' :=
  ⟨h'.user.trans h.user, h'.owned.trans h.owned⟩

theorem rows_commit {ρ : Type} [Keyed ρ] (t : Table ρ) (r : ρ) :
    (commit t r).rows = t.rows ∨ (commit t r).rows = t.rows ++ [r] := by
  unfold commit
  split
  · exact .inl rfl
  · exact .inr rfl

theorem get?_commit {ρ : Type} [Keyed ρ] {t : Table ρ} {r s : ρ} {id : Nat}
    (h : t.get? id = some s) : (commit t r).get? id = some s := by
  obtain ⟨hmem, hkey⟩ := Table.get?_eq_some_iff.mp h
  refine Table.get?_eq_some_iff.mpr ⟨?_, hkey⟩
  rw [Table.mem_def] at hmem ⊢
  rcases rows_commit t r with hrows | hrows
  · rw [hrows]
    exact hmem
  · rw [hrows]
    exact List.mem_append_left _ hmem

theorem grows_step (w : World π) (a : Action π) : Grows w (step w a) := by
  cases a with
  | write entry =>
      refine ⟨?_, fun _ _ h => h⟩
      rcases rows_commit w.auditLog entry with hrows | hrows
      · exact hrows ▸ List.Sublist.refl _
      · exact hrows ▸ List.sublist_append_left _ _
  | createServer server => exact ⟨List.Sublist.refl _, fun _ _ h => get?_commit h⟩
  | createUser | changeRole | disableUser | reactivateUser | grantAdmin | revokeAdmin =>
      exact ⟨List.Sublist.refl _, fun _ _ h => h⟩

theorem get?_editUser {users : Dict Nat User} {id : Nat} {f : User → User} (h : id ≠ userId) :
    (editUser users id f).get? userId = users.get? userId := by
  unfold editUser
  split
  · rw [Dict.get?_set, if_neg (Ne.symm h)]
  · rfl

theorem ownedIds_mapRows {grants : Table ServerAdminGrant} {serverId id : Nat} (h : id ≠ userId) :
    ownedIds (grants.mapRows (revokeGrant serverId id) (key_revokeGrant _ _)) userId =
      ownedIds grants userId := by
  have hother : ∀ g : ServerAdminGrant, g.userId = userId → revokeGrant serverId id g = g := by
    intro g hg
    have hne : g.userId ≠ id := fun heq => h (heq ▸ hg)
    simp [revokeGrant, hne]
  have hsame : ∀ g : ServerAdminGrant, (revokeGrant serverId id g).userId = g.userId := by
    intro g
    unfold revokeGrant
    split <;> rfl
  rw [ownedIds, Table.rows_mapRows, List.filter_map, List.map_map, ownedIds]
  have hfilter : ((fun g : ServerAdminGrant => decide (g.userId = userId) && g.isActive) ∘
      revokeGrant serverId id) = fun g => decide (g.userId = userId) && g.isActive := by
    funext g
    rw [Function.comp_apply, hsame g]
    by_cases hg : g.userId = userId
    · rw [hother g hg]
    · simp [hg]
  rw [hfilter]
  refine List.map_congr_left fun g hg => ?_
  have huser : g.userId = userId := by
    simpa using (Bool.and_eq_true_iff.mp (List.mem_filter.mp hg).2).1
  rw [Function.comp_apply, hother g huser]

theorem ownedIds_commit {grants : Table ServerAdminGrant} {grant : ServerAdminGrant}
    (h : grant.userId ≠ userId) : ownedIds (commit grants grant) userId = ownedIds grants userId := by
  unfold ownedIds
  rcases rows_commit grants grant with hrows | hrows
  · rw [hrows]
  · rw [hrows, List.filter_append, List.map_append]
    simp [h]

theorem steady_step {a : Action π} (h : Spares userId a) : Steady userId w (step w a) := by
  cases a with
  | write | createServer => exact ⟨rfl, rfl⟩
  | createUser id user =>
      refine ⟨?_, rfl⟩
      simp only [step]
      split
      · rfl
      · exact (Dict.get?_set ..).trans (if_neg (Ne.symm h))
  | changeRole | disableUser | reactivateUser => exact ⟨get?_editUser h, rfl⟩
  | grantAdmin grant => exact ⟨rfl, ownedIds_commit h⟩
  | revokeAdmin serverId id => exact ⟨rfl, ownedIds_mapRows h⟩

theorem foldl_step {as : List (Action π)} (h : ∀ a ∈ as, Spares userId a) :
    Grows w (as.foldl step w) ∧ Steady userId w (as.foldl step w) := by
  induction as generalizing w with
  | nil => exact ⟨.refl w, .refl w⟩
  | cons a as ih =>
      obtain ⟨hgrows, hsteady⟩ := ih (w := step w a) fun b hb => h b (List.mem_cons_of_mem _ hb)
      exact ⟨(grows_step w a).trans hgrows, (steady_step (h a List.mem_cons_self)).trans hsteady⟩

/-- The tables of a reading grow from page to page, and leave the reader alone. -/
theorem worlds_spec {gaps : List (List (Action π))} (h : ∀ as ∈ gaps, ∀ a ∈ as, Spares userId a) :
    (w :: worlds w gaps).IsChain Grows ∧ ∀ v ∈ worlds w gaps, Steady userId w v := by
  induction gaps generalizing w with
  | nil => simp [worlds]
  | cons as gaps ih =>
      obtain ⟨hgrows, hsteady⟩ := foldl_step (w := w) (h as List.mem_cons_self)
      obtain ⟨hchain, hrest⟩ := ih (w := as.foldl step w) fun bs hbs =>
        h bs (List.mem_cons_of_mem _ hbs)
      refine ⟨List.isChain_cons_cons.mpr ⟨hgrows, hchain⟩, fun v hv => ?_⟩
      rcases List.mem_cons.mp hv with rfl | hv
      · exact hsteady
      · exact hsteady.trans (hrest v hv)

theorem Steady.getCurrentUser (h : Steady userId w w') :
    getCurrentUser w' userId = AuditLogs.getCurrentUser w userId := by
  simp only [AuditLogs.getCurrentUser, h.user]

theorem Steady.requireAuditAccess (h : Steady userId w w') (targetServerId actorUserId : Option Nat) :
    requireAuditAccess w' userId targetServerId actorUserId =
      AuditLogs.requireAuditAccess w userId targetServerId actorUserId := by
  simp only [AuditLogs.requireAuditAccess, h.getCurrentUser, h.owned]

end Steps

/-! ## the pages -/

instance : Std.Total (Precedes : AuditLog π → AuditLog π → Prop) where
  total r s := by
    rcases lt_trichotomy r.createdAt s.createdAt with h | h | h
    · exact .inr (.inl h)
    · exact (Nat.le_total s.id r.id).imp (fun hid => .inr ⟨h, hid⟩) fun hid => .inr ⟨h.symm, hid⟩
    · exact .inl (.inl h)

instance : IsTrans (AuditLog π) Precedes where
  trans r s t := by
    rintro (h | ⟨h, hid⟩) (k | ⟨k, kid⟩)
    · exact .inl (k.trans h)
    · exact .inl (k ▸ h)
    · exact .inl (h ▸ k)
    · exact .inr ⟨h.trans k, kid.trans hid⟩

/-- The `WHERE` clause of a request in a lab. -/
def asked (collates : String → String → Bool) (w : World π) (labId : Nat)
    (ctx : AuditAccessContext) (filters : AuditFilters) (r : AuditLog π) : Bool :=
  applyScope w.servers ctx labId r && applyFilters collates filters r

/-- The rows of a request in a lab, in order. -/
def listed (collates : String → String → Bool) (labId : Nat) (ctx : AuditAccessContext)
    (filters : AuditFilters) (w : World π) : List (AuditLog π) :=
  selected w (asked collates w labId ctx filters)

/-- A request asks for the row. -/
def Asks (collates : String → String → Bool) (params : ListParams) (r : AuditLog π) : Prop :=
  ∃ filters, parseFilters params = .ok filters ∧ applyFilters collates filters r = true

theorem serialise_congr {r : AuditLog π} {m m' : Dict Nat User}
    (h : ∀ a, r.actorUserId = some a → m.get? a = m'.get? a) : serialise r m = serialise r m' := by
  unfold serialise
  cases ha : r.actorUserId with
  | none => rfl
  | some a => rw [Option.map_some, Option.map_some, h a ha]

/-- The actors of a page are looked up among all users. -/
theorem serialise_actorMap {users : Dict Nat User} {rows : List (AuditLog π)} {r : AuditLog π}
    (hr : r ∈ rows) : serialise r (actorMap users rows) = serialise r users := by
  refine serialise_congr fun a ha => Dict.get?_dropKeys_of_false ?_
  simp only [decide_not, Bool.not_eq_false', decide_eq_true_eq]
  exact List.mem_filterMap.mpr ⟨r, hr, ha⟩

section Pages

variable {collates : String → String → Bool} {w w' : World π} {userId labId : Nat} {user : User}
  {params : ListParams} {pages : PageParams} {ctx : AuditAccessContext} {filters : AuditFilters}

theorem mem_selected {p : AuditLog π → Bool} {r : AuditLog π} :
    r ∈ selected w p ↔ r ∈ w.auditLog ∧ p r = true := by
  rw [selected, List.mem_insertionSort, List.mem_filter, Table.mem_def]

/-- The rows that a request selects stay in their order as others join them. -/
theorem Grows.sublist_listed (h : Grows w w') :
    (listed collates labId ctx filters w).Sublist (listed collates labId ctx filters w') := by
  refine sublist_insertionSort ((List.monotone_filter_right _ fun r hr => ?_).trans (h.auditLog.filter _))
  simp only [asked, applyScope, Bool.and_eq_true] at hr ⊢
  refine ⟨⟨?_, hr.1.2⟩, hr.2⟩
  have hlab : inLab w.servers labId r = true := hr.1.1
  simp only [inLab, Bool.or_eq_true, Option.any_eq_true, decide_eq_true_eq] at hlab ⊢
  refine hlab.imp id ?_
  rintro ⟨s, hs, server, hserver, hserverLab⟩
  exact ⟨s, hs, server, h.servers s server hserver, hserverLab⟩

/-- The answer of the service to a request whose scope and filters are known. -/
def answerOf (collates : String → String → Bool) (w : World π) (labId : Nat)
    (ctx : AuditAccessContext) (filters : AuditFilters) (pages : PageParams) : AuditPage π :=
  let (items, total) := listLogs collates w labId ctx filters pages.page pages.size
  { items := items, page := pages.page, size := pages.size, total := total
    totalPages := pageCount total pages.size }

theorem listAuditLogs_eq (huser : getCurrentUser w userId = .ok user)
    (hctx : requireAuditAccess w userId params.targetServerId params.actorUserId = .ok ctx)
    (hfilters : parseFilters params = .ok filters) :
    listAuditLogs collates w userId params pages =
      .ok (answerOf collates w user.labId ctx filters pages) := by
  simp only [listAuditLogs, huser, hctx, hfilters, bind, Except.bind]
  rfl

theorem listAuditLogs_ok {answer : AuditPage π}
    (h : listAuditLogs collates w userId params pages = .ok answer) :
    ∃ user ctx filters, getCurrentUser w userId = .ok user ∧
      requireAuditAccess w userId params.targetServerId params.actorUserId = .ok ctx ∧
      parseFilters params = .ok filters ∧
      answer = answerOf collates w user.labId ctx filters pages := by
  cases huser : getCurrentUser w userId with
  | error e => simp [listAuditLogs, huser, bind, Except.bind] at h
  | ok user =>
      cases hctx : requireAuditAccess w userId params.targetServerId params.actorUserId with
      | error e => simp [listAuditLogs, huser, hctx, bind, Except.bind] at h
      | ok ctx =>
          cases hfilters : parseFilters params with
          | error e => simp [listAuditLogs, huser, hctx, hfilters, bind, Except.bind] at h
          | ok filters =>
              rw [listAuditLogs_eq huser hctx hfilters, Except.ok.injEq] at h
              exact ⟨user, ctx, filters, rfl, rfl, rfl, h.symm⟩

theorem items_answerOf : (answerOf collates w labId ctx filters pages).items =
    (page pages.size (pages.page - 1) (listed collates labId ctx filters w)).map
      fun r => serialise r w.users :=
  List.map_congr_left fun _ hr => serialise_actorMap hr

/-- Every item is of a row that the request asks for. -/
theorem mem_items_answerOf {item : Item π} :
    item ∈ (answerOf collates w labId ctx filters pages).items ↔
      ∃ r ∈ page pages.size (pages.page - 1) (listed collates labId ctx filters w),
        item = serialise r w.users := by
  rw [items_answerOf, List.mem_map]
  exact ⟨fun ⟨r, hr, h⟩ => ⟨r, hr, h.symm⟩, fun ⟨r, hr, h⟩ => ⟨r, hr, h.symm⟩⟩

/-- The pages that the service counts hold all rows. -/
theorem total_le_of_totalPages {n : Nat}
    (h : (answerOf collates w labId ctx filters pages).totalPages ≤ n) :
    (listed collates labId ctx filters w).length ≤ n * pages.size := by
  exact le_mul_of_pageCount_le pages.size_ge h

/-- The answers of a reading whose scope stays as it is. -/
def answersOf (collates : String → String → Bool) (labId : Nat) (ctx : AuditAccessContext)
    (filters : AuditFilters) : PageParams → List (World π) → List (AuditPage π)
  | _, [] => []
  | pages, w :: ws =>
    answerOf collates w labId ctx filters pages :: answersOf collates labId ctx filters pages.turn ws

theorem readPages_eq {ws : List (World π)} (hfilters : parseFilters params = .ok filters)
    (hws : ∀ v ∈ ws, getCurrentUser v userId = .ok user ∧
      requireAuditAccess v userId params.targetServerId params.actorUserId = .ok ctx) :
    readPages collates userId params pages ws =
      (answersOf collates user.labId ctx filters pages ws).map .ok := by
  induction ws generalizing pages with
  | nil => rfl
  | cons v ws ih =>
      obtain ⟨huser, hctx⟩ := hws v List.mem_cons_self
      rw [readPages, listAuditLogs_eq huser hctx hfilters,
        ih fun u hu => hws u (List.mem_cons_of_mem _ hu), answersOf, List.map_cons]

theorem length_answersOf (ws : List (World π)) :
    (answersOf collates labId ctx filters pages ws).length = ws.length := by
  induction ws generalizing pages with
  | nil => rfl
  | cons w ws ih => rw [answersOf, List.length_cons, ih, List.length_cons]

theorem PageParams.page_turn (pages : PageParams) : pages.turn.page - 1 = pages.page - 1 + 1 := by
  have := pages.page_ge
  simp only [PageParams.turn]
  omega

theorem ids_answersOf (ws : List (World π)) :
    (answersOf collates labId ctx filters pages ws).map (fun a => a.items.map (·.id)) =
      (Paging.pages pages.size (pages.page - 1)
        (ws.map (listed collates labId ctx filters))).map
          (·.map (·.id)) := by
  induction ws generalizing pages with
  | nil => rfl
  | cons w ws ih =>
      rw [answersOf, List.map_cons, List.map_cons, Paging.pages, List.map_cons, items_answerOf,
        List.map_map, ih, pages.page_turn]
      rfl

/-- A row of a page is shown as it is when the page is read. -/
theorem exists_item_of_mem_pages {ws : List (World π)} {p : List (AuditLog π)} {r : AuditLog π}
    (hp : p ∈ Paging.pages pages.size (pages.page - 1) (ws.map (listed collates labId ctx filters)))
    (hr : r ∈ p) : ∃ answer ∈ answersOf collates labId ctx filters pages ws,
      ∃ item ∈ answer.items, ∃ v ∈ ws, item = serialise r v.users := by
  induction ws generalizing pages with
  | nil => cases hp
  | cons w ws ih =>
      rw [List.map_cons, Paging.pages] at hp
      rcases List.mem_cons.mp hp with rfl | hp
      · exact ⟨_, List.mem_cons_self, _, mem_items_answerOf.mpr ⟨r, hr, rfl⟩, w, List.mem_cons_self,
          rfl⟩
      · rw [← pages.page_turn] at hp
        obtain ⟨answer, hanswer, item, hitem, v, hv, hshown⟩ :=
          @ih pages.turn hp
        exact ⟨answer, List.mem_cons_of_mem _ hanswer, item, hitem, v, List.mem_cons_of_mem _ hv,
          hshown⟩

theorem exists_of_mem_answersOf {ws : List (World π)} {answer : AuditPage π}
    (h : answer ∈ answersOf collates labId ctx filters pages ws) :
    ∃ v ∈ ws, ∃ turned, answer = answerOf collates v labId ctx filters turned := by
  induction ws generalizing pages with
  | nil => simp [answersOf] at h
  | cons w ws ih =>
      rcases List.mem_cons.mp h with rfl | h
      · exact ⟨w, List.mem_cons_self, pages, rfl⟩
      · obtain ⟨v, hv, hanswer⟩ := ih h
        exact ⟨v, List.mem_cons_of_mem _ hv, hanswer⟩

theorem getLast?_answersOf {ws : List (World π)} {last : AuditPage π}
    (h : (answersOf collates labId ctx filters pages (w :: ws)).getLast? = some last) :
    ∃ turned : PageParams, turned.size = pages.size ∧
      last = answerOf collates ((w :: ws).getLast (List.cons_ne_nil _ _)) labId ctx filters turned := by
  induction ws generalizing w pages with
  | nil =>
      refine ⟨pages, rfl, ?_⟩
      simpa [answersOf] using h.symm
  | cons v ws ih =>
      rw [answersOf, List.getLast?_cons_of_ne_nil (by simp [answersOf])] at h
      obtain ⟨turned, hsize, hlast⟩ := ih h
      exact ⟨turned, hsize, by rw [List.getLast_cons (List.cons_ne_nil v ws)]; exact hlast⟩

end Pages

/-! ## a reading -/

/-- What a reading shows: only rows that the reader may read when they are shown; when the last
answer counts no more pages than were read, every such row that there was at the start; and when no
row was written and no server added meanwhile, each of them once, the newest first. -/
structure ReadThrough (collates : String → String → Bool) (userId : Nat) (params : ListParams)
    (w : World π) (ws : List (World π)) (answers : List (AuditPage π)) : Prop where
  confined : ∀ answer ∈ answers, ∀ item ∈ answer.items, ∃ v ∈ w :: ws, ∃ r ∈ v.auditLog,
    item = serialise r v.users ∧ Readable v userId r ∧ Asks collates params r
  complete : ∀ last, answers.getLast? = some last → last.totalPages ≤ answers.length →
    ∀ r ∈ w.auditLog, Readable w userId r → Asks collates params r →
      ∃ answer ∈ answers, ∃ item ∈ answer.items, ∃ v ∈ w :: ws, item = serialise r v.users
  once : ∀ last, answers.getLast? = some last → last.totalPages ≤ answers.length →
    (∀ v ∈ ws, v.auditLog = w.auditLog ∧ v.servers = w.servers) →
    ∃ rows : List (AuditLog π), rows.Nodup ∧ rows.Pairwise Precedes ∧
      (∀ r, r ∈ rows ↔ r ∈ w.auditLog ∧ Readable w userId r ∧ Asks collates params r) ∧
      answers.flatMap (fun a => a.items.map (·.id)) = rows.map (·.id)

section Reading

variable {collates : String → String → Bool} {w : World π} {userId labId : Nat} {user : User}
  {params : ListParams} {pages : PageParams} {ctx : AuditAccessContext} {filters : AuditFilters}

theorem asked_iff {r : AuditLog π} (huser : getCurrentUser w userId = .ok user)
    (hctx : requireAuditAccess w userId params.targetServerId params.actorUserId = .ok ctx)
    (hfilters : parseFilters params = .ok filters) :
    asked collates w user.labId ctx filters r = true ↔
      Readable w userId r ∧ Asks collates params r := by
  rw [asked, Bool.and_eq_true, applyScope_iff huser hctx]
  simp [Asks, hfilters]

theorem nodup_selected (w : World π) (p : AuditLog π → Bool) : (selected w p).Nodup := by
  refine ((List.perm_insertionSort _ _).nodup_iff).mpr (List.Nodup.filter _ ?_)
  exact List.Nodup.of_map _ w.auditLog.nodup

theorem flatMap_ids (ws : List (World π)) :
    (answersOf collates labId ctx filters pages ws).flatMap (fun a => a.items.map (·.id)) =
      (Paging.pages pages.size (pages.page - 1)
        (ws.map (listed collates labId ctx filters))).flatten.map (·.id) := by
  rw [List.flatMap_def, ids_answersOf, List.map_flatten]

/-- The pages that were read reach to the end of what the last one was read from. -/
theorem length_getLast_le {ws : List (World π)} {last : AuditPage π}
    (hlast : (answersOf collates labId ctx filters pages (w :: ws)).getLast? = some last)
    (hcount : last.totalPages ≤ (answersOf collates labId ctx filters pages (w :: ws)).length) :
    (((w :: ws).map (listed collates labId ctx filters)).getLast (by simp)).length ≤
      ((w :: ws).map (listed collates labId ctx filters)).length * pages.size := by
  obtain ⟨turned, hsize, rfl⟩ := getLast?_answersOf hlast
  rw [length_answersOf] at hcount
  rw [List.getLast_map, List.length_map]
  exact hsize ▸ total_le_of_totalPages hcount

/-- **A reading is complete.** A reader turns the pages from the first one on, while others write
rows of any date, add servers and change anyone's rights but the reader's.  Then no row is passed
over, wherever the new ones come in, and none is shown that the reader may not read. -/
theorem readPages_complete (collates : String → String → Bool) (w : World π) (userId : Nat)
    (params : ListParams) (pages : PageParams) (gaps : List (List (Action π)))
    (hspares : ∀ as ∈ gaps, ∀ a ∈ as, Spares userId a) (hpage : pages.page = 1)
    {first : AuditPage π} (hfirst : listAuditLogs collates w userId params pages = .ok first) :
    ∃ answers, readPages collates userId params pages (w :: worlds w gaps) = answers.map .ok ∧
      ReadThrough collates userId params w (worlds w gaps) answers := by
  obtain ⟨hchain, hsteady⟩ := worlds_spec hspares
  obtain ⟨user, ctx, filters, huser, hctx, hfilters, -⟩ := listAuditLogs_ok hfirst
  have hws : ∀ v ∈ w :: worlds w gaps, getCurrentUser v userId = .ok user ∧
      requireAuditAccess v userId params.targetServerId params.actorUserId = .ok ctx := by
    intro v hv
    rcases List.mem_cons.mp hv with rfl | hv
    · exact ⟨huser, hctx⟩
    · exact ⟨(hsteady v hv).getCurrentUser.trans huser, ((hsteady v hv).requireAuditAccess _ _).trans hctx⟩
  refine ⟨_, readPages_eq hfilters hws, ?_, ?_, ?_⟩
  · intro answer hanswer item hitem
    obtain ⟨v, hv, turned, rfl⟩ := exists_of_mem_answersOf hanswer
    obtain ⟨r, hr, hshown⟩ := mem_items_answerOf.mp hitem
    obtain ⟨hmem, hasked⟩ := mem_selected.mp (mem_of_mem_page hr)
    obtain ⟨hvuser, hvctx⟩ := hws v hv
    exact ⟨v, hv, r, hmem, hshown, (asked_iff hvuser hvctx hfilters).mp hasked⟩
  · intro last hlast hcount r hr hreadable hasks
    have hrow : r ∈ listed collates user.labId ctx filters w :=
      mem_selected.mpr ⟨hr, (asked_iff huser hctx hfilters).mpr ⟨hreadable, hasks⟩⟩
    obtain ⟨i, hi⟩ := List.mem_iff_getElem?.mp hrow
    have hgrow : ((w :: worlds w gaps).map (listed collates user.labId ctx filters)).IsChain
        List.Sublist := List.isChain_map_of_isChain _ (fun _ _ h => h.sublist_listed) hchain
    have hreach := length_getLast_le hlast hcount
    have hfirst : (pages.page - 1) * pages.size ≤ i := by simp [hpage]
    obtain ⟨p, hp, hrp⟩ := mem_pages hgrow hi hfirst (by simpa [hpage] using hreach)
    exact exists_item_of_mem_pages hp hrp
  · intro last hlast hcount hstill
    refine ⟨listed collates user.labId ctx filters w, nodup_selected w _,
      List.pairwise_insertionSort _ _, fun r => ?_, ?_⟩
    · rw [listed, mem_selected, asked_iff huser hctx hfilters]
    · have hsame : (w :: worlds w gaps).map (listed collates user.labId ctx filters) =
          List.replicate (w :: worlds w gaps).length (listed collates user.labId ctx filters w) := by
        refine List.eq_replicate_iff.mpr ⟨List.length_map _, fun rows hrows => ?_⟩
        obtain ⟨v, hv, rfl⟩ := List.mem_map.mp hrows
        rcases List.mem_cons.mp hv with rfl | hv
        · rfl
        · unfold listed selected asked
          rw [(hstill v hv).1, (hstill v hv).2]
      have hreach := length_getLast_le hlast hcount
      simp only [hsame, List.getLast_replicate, List.length_replicate] at hreach
      rw [flatMap_ids, hsame, hpage, flatten_pages hreach]

/-- A reservation's row of a user's own doing. -/
def sampleEntry (id : Nat) (createdAt : Time) : AuditLog Unit where
  id := id
  labId := some 1
  actorUserId := some 41
  action := "reservation.create"
  targetType := some "reservation"
  targetId := some id
  targetServerId := some 1
  payload := none
  ipAddress := none
  result := "ok"
  createdAt := createdAt

/-- Alice and an admin of the server, and two rows. -/
def sampleWorld : World Unit where
  auditLog := ⟨[sampleEntry 1 10, sampleEntry 2 30], by decide⟩
  users := ⟨[(41, ⟨1, "alice", .user, true⟩), (42, ⟨1, "bob", .user, true⟩)], by decide⟩
  servers := (smallLab .empty).servers
  grants := .single ⟨1, 42, 1, true⟩

/-- Bob reads one row a page, while a row that is dated between the two commits and Alice becomes
an admin. -/
theorem readPages_complete_sample :
    ∃ answers, readPages (fun a b => a = b) 42 {} { size := 1 }
        (sampleWorld :: worlds sampleWorld
          [[.write (sampleEntry 3 20), .changeRole 41 .labAdmin], [.write (sampleEntry 4 40)], []]) =
        answers.map .ok ∧
      ReadThrough (fun a b => a = b) 42 {} sampleWorld (worlds sampleWorld
        [[.write (sampleEntry 3 20), .changeRole 41 .labAdmin], [.write (sampleEntry 4 40)], []])
        answers :=
  readPages_complete _ sampleWorld 42 {} { size := 1 }
    [[.write (sampleEntry 3 20), .changeRole 41 .labAdmin], [.write (sampleEntry 4 40)], []]
    (by simp [Spares]) rfl
    (@listAuditLogs_eq _ _ sampleWorld 42 ⟨1, "bob", .user, true⟩ {} { size := 1 }
      { scope := .serverAdmin, serverIds := [1] } {} rfl rfl rfl)

/-! ## one row by its id -/

theorem getLog_eq_some_iff {auditId : Nat} {item : Item π} :
    getLog w auditId labId ctx = some item ↔ ∃ r, w.auditLog.get? auditId = some r ∧
      applyScope w.servers ctx labId r = true ∧ item = serialise r w.users := by
  have hactor (r : AuditLog π) : serialise r ((r.actorUserId.bind fun a =>
      (w.users.get? a).map fun u => (a, u)).elim .empty fun found =>
        Dict.empty.set found.1 found.2) =
        serialise r w.users := by
    refine serialise_congr fun a ha => ?_
    rw [ha, Option.bind_some]
    cases hu : w.users.get? a with
    | none => rfl
    | some u => exact (Dict.get?_set ..).trans (if_pos rfl)
  simp only [getLog, hactor, Option.bind_eq_some_iff, Option.ite_none_right_eq_some,
    Option.some.injEq, eq_comm (a := item)]

theorem getAuditLog_ok {auditId : Nat} {item : Item π} (huser : getCurrentUser w userId = .ok user)
    (hctx : requireAuditAccess w userId none none = .ok ctx) :
    getAuditLog w userId auditId none none = .ok item ↔
      getLog w auditId user.labId ctx = some item := by
  simp only [getAuditLog, huser, hctx, bind, Except.bind]
  cases getLog w auditId user.labId ctx with
  | none => simp [throw, throwThe, MonadExceptOf.throw]
  | some found => simp [pure, Except.pure]

/-- **The two endpoints agree**: a row is shown by its id exactly if some page of the log shows it,
and as the same item. -/
theorem getAuditLog_ok_iff (collates : String → String → Bool) (w : World π) (userId auditId : Nat)
    (item : Item π) : getAuditLog w userId auditId none none = .ok item ↔
      item.id = auditId ∧ ∃ (pages : PageParams) (answer : AuditPage π),
        listAuditLogs collates w userId {} pages = .ok answer ∧ item ∈ answer.items := by
  have hfilters : parseFilters {} = .ok {} := rfl
  constructor
  · intro h
    cases huser : getCurrentUser w userId with
    | error e => simp [getAuditLog, huser, bind, Except.bind] at h
    | ok user =>
        cases hctx : requireAuditAccess w userId none none with
        | error e => simp [getAuditLog, huser, hctx, bind, Except.bind] at h
        | ok ctx =>
            obtain ⟨r, hr, hscope, rfl⟩ := getLog_eq_some_iff.mp ((getAuditLog_ok huser hctx).mp h)
            have hrow : r ∈ listed collates user.labId ctx {} w := by
              refine mem_selected.mpr ⟨Table.mem_of_get? hr, ?_⟩
              rw [asked, hscope]
              rfl
            obtain ⟨i, hi⟩ := List.mem_iff_getElem?.mp hrow
            -- The row stands on the page that its position falls on.
            let pages : PageParams := { page := i / 20 + 1, page_ge := Nat.le_add_left 1 _ }
            refine ⟨Table.key_of_get? hr, pages, _, listAuditLogs_eq huser hctx hfilters,
              mem_items_answerOf.mpr ⟨r, mem_page_of_getElem? hi ?_ ?_, rfl⟩⟩
            · exact Nat.div_mul_le_self i 20
            · change i < (i / 20 + 1) * 20
              omega
  · rintro ⟨rfl, pages, answer, hanswer, hitem⟩
    obtain ⟨user, ctx, filters, huser, hctx, -, rfl⟩ := listAuditLogs_ok hanswer
    obtain ⟨r, hr, rfl⟩ := mem_items_answerOf.mp hitem
    obtain ⟨hmem, hasked⟩ := mem_selected.mp (mem_of_mem_page hr)
    refine (getAuditLog_ok huser hctx).mpr (getLog_eq_some_iff.mpr ⟨r, Table.get?_key hmem, ?_, rfl⟩)
    exact (Bool.and_eq_true_iff.mp hasked).1

end Reading

end AuditLogs

end CoreLab
