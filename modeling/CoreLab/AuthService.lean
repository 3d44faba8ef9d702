import CoreLab.Datetime
import CoreLab.SetupService

/-!
# CoreLab.AuthService

Setup tokens and registration invites: a token is looked up in the snapshot of a
request, which then writes the user and spends the token.  An admin may revoke an
invite, or issue a new setup token in the place of the old ones.

* `spending_own` — an unfinished request that spends a token has found it unused,
  or will;
* `once_run` — a token is spent at most once, as long as no activation flushes one
  that was spent since its snapshot.
-/

namespace CoreLab

open Relational Transition Transactions Loops

namespace AuthService

open SetupService (User)

/-! ## rows -/

inductive Purpose where
  | activation | passwordReset
deriving DecidableEq, Repr

/-- Its id is the one of its key. -/
structure SetupToken where
  userId : Nat
  tokenHash : String
  purpose : Purpose
  expiresAt : Time
  usedAt : Option Time := none
deriving DecidableEq, Repr

structure RegistrationInvite where
  labId : Nat
  tokenHash : String
  role : UserRole
  expiresAt : Time
  usedAt : Option Time := none
  usedByUserId : Option Nat := none
deriving DecidableEq, Repr

/-- The rows, and the entries of the unique indexes. -/
inductive Key where
  | setupToken (id : Nat)
  | setupTokenHash (hash : String)
  | invite (id : Nat)
  | inviteHash (hash : String)
  | user (id : Nat)
  | username (labId : Nat) (username : String)
  | email (labId : Nat) (email : String)
  | sshKey (userId : Nat) (fingerprint : String)
deriving DecidableEq, Repr

/-- A row, an index entry for a row, or an entry that was removed. -/
inductive Row where
  | setupToken (t : SetupToken)
  | invite (v : RegistrationInvite)
  | user (u : User)
  | entry (id : Nat)
  | removed
deriving DecidableEq, Repr

abbrev Rows := Dict Key Row

/-- `used_at IS NOT NULL`. -/
def Row.used : Row → Bool
  | setupToken t => t.usedAt.isSome
  | invite v => v.usedAt.isSome
  | user _ | entry _ | removed => false

/-- A token that is used. -/
def Used (rows : Rows) (k : Key) : Bool := (rows.get? k).any Row.used

/-! ## looking tokens up -/

/-- The errors of `activate`; each becomes an HTTP error. -/
inductive ActivationError where
  | invalidToken (text : String)
  | profileConflict (text : String)
  | sshKey (text : String)
deriving DecidableEq, Repr

/-- `lookup_active_token`. -/
def lookupActiveToken (rows : Rows) (tokenHash : String) (now : Time) :
    Except ActivationError (Nat × SetupToken) :=
  match rows.get? (.setupTokenHash tokenHash) with
  | some (.entry id) =>
    match rows.get? (.setupToken id) with
    | some (.setupToken t) =>
      if t.usedAt.isSome then .error (.invalidToken "token already used")
      else if t.expiresAt ≤ now then .error (.invalidToken "token expired")
      else .ok (id, t)
    | _ => .error (.invalidToken "token not found")
  | _ => .error (.invalidToken "token not found")

/-- `lookup_active_registration_invite`. -/
def lookupActiveRegistrationInvite (rows : Rows) (tokenHash : String) (now : Time) :
    Except ActivationError (Nat × RegistrationInvite) :=
  match rows.get? (.inviteHash tokenHash) with
  | some (.entry id) =>
    match rows.get? (.invite id) with
    | some (.invite v) =>
      if v.usedAt.isSome then .error (.invalidToken "token already used")
      else if v.expiresAt ≤ now then .error (.invalidToken "token expired")
      else .ok (id, v)
    | _ => .error (.invalidToken "token not found")
  | _ => .error (.invalidToken "token not found")

/-! ## statements -/

/-- One statement of a flush. -/
inductive Statement where
  | setUser (id : Nat) (username email displayName : Option String) (passwordHash : String)
  | insertUser (u : User)
  | insertToken (id : Nat) (t : SetupToken)
  | addEntry (k : Key) (id : Nat)
  | removeEntry (k : Key)
  | useToken (id : Nat) (now : Time)
  | useInvite (id : Nat) (now : Time) (usedByUserId : Option Nat)
deriving DecidableEq, Repr

namespace Statement

def key : Statement → Key
  | setUser id .. => .user id
  | insertUser u => .user u.id
  | insertToken id _ => .setupToken id
  | addEntry k _ | removeEntry k => k
  | useToken id _ => .setupToken id
  | useInvite id .. => .invite id

/-- The new version of a row; `none` where the statement fails. -/
def apply : Statement → Option Row → Option Row
  | setUser _ username email displayName passwordHash, some (.user u) =>
    some (.user { u with
      username := username.getD u.username, email := email.getD u.email
      displayName := displayName.getD u.displayName, passwordHash := some passwordHash })
  | insertUser u, none => some (.user u)
  | insertToken _ t, none => some (.setupToken t)
  | addEntry _ id, none | addEntry _ id, some .removed => some (.entry id)
  | removeEntry _, some (.entry _) => some .removed
  | useToken _ now, some (.setupToken t) => some (.setupToken { t with usedAt := some now })
  | useInvite _ now usedByUserId, some (.invite v) =>
    some (.invite { v with usedAt := some now, usedByUserId := usedByUserId })
  | _, _ => none

/-- The token that a statement spends. -/
def spends : Statement → Option Key
  | useToken id _ => some (.setupToken id)
  | useInvite id .. => some (.invite id)
  | setUser .. | insertUser _ | insertToken .. | addEntry .. | removeEntry _ => none

end Statement

/-! ## activation -/

/-- `ActivateSubmit`, with the hashes of its token and password, and the fingerprint of its
key if the key parses. -/
structure Activation where
  tokenHash : String
  passwordHash : String
  username : Option String := none
  email : Option String := none
  displayName : Option String := none
  sshKeyLabel : Option String := none
  sshKey : Option (Option String) := none
deriving DecidableEq, Repr

/-- What a committed request has done. -/
inductive Outcome where
  | activated (tokenId userId : Nat)
  | registered (inviteId userId : Nat)
  | revoked (inviteId : Nat)
  | issued (tokenId : Nat)
deriving DecidableEq, Repr

/-- The token that a request has spent. -/
def Outcome.spends : Outcome → Option Key
  | activated tokenId _ => some (.setupToken tokenId)
  | registered inviteId _ | revoked inviteId => some (.invite inviteId)
  | issued _ => none

/-- Another user of the lab, as a request has read them. -/
def taken (rows : Rows) (labId : Nat) (self : Option Nat) (test : User → Bool) : Bool :=
  rows.entries.any fun e =>
    match e.2 with
    | .user u => u.labId = labId && self.all (· ≠ u.id) && test u
    | _ => false

/-- `_validate_registration_profile` and `_validate_new_registration_profile`. -/
def validateProfile (rows : Rows) (labId : Nat) (self : Option User) (username email : Option String) :
    Except ActivationError Unit := do
  let changes (value : Option String) (column : User → String) : Bool :=
    value.any fun v => self.all fun u => v ≠ column u
  raiseIf (changes username (·.username) &&
      taken rows labId (self.map (·.id)) fun u => some u.username = username)
    (.profileConflict "username_taken")
  raiseIf (changes email (·.email) &&
      taken rows labId (self.map (·.id)) fun u => some u.email = email)
    (.profileConflict "email_taken")

/-- `_validate_registration_ssh_key`. -/
def validateSshKey (rows : Rows) (userId : Option Nat) :
    Option (Option String) → Except ActivationError Unit
  | none => .ok ()
  | some none => .error (.sshKey "invalid public key")
  | some (some fp) =>
    raiseIf (userId.any fun id => rows.get? (.sshKey id fp) matches some (.entry _))
      (.sshKey ("key with fingerprint " ++ fp ++ " already exists"))

/-- A changed column that has a unique index. -/
def moveEntry (entry : String → Key) (old : String) (new : Option String) (id : Nat) : List Statement :=
  match new with
  | some new => if new = old then [] else [.removeEntry (entry old), .addEntry (entry new) id]
  | none => []

/-- `add_key`, after its own check. -/
def addKey (userId : Nat) : Option (Option String) → List Statement
  | some (some fp) => [.addEntry (.sshKey userId fp) userId]
  | some none | none => []

/-- `activate` with a setup token: what is flushed. -/
def activateToken (a : Activation) (rows : Rows) (id : Nat) (row : SetupToken) (now : Time) :
    Except ActivationError (List Statement × Outcome) :=
  match rows.get? (.user row.userId), row.purpose with
  | some (.user user), .activation => do
    raiseIf user.passwordHash.isSome (.invalidToken "user already activated")
    validateProfile rows user.labId (some user) a.username a.email
    validateSshKey rows (some user.id) a.sshKey
    .ok (.setUser user.id a.username a.email a.displayName a.passwordHash ::
        moveEntry (.username user.labId) user.username a.username user.id ++
        moveEntry (.email user.labId) user.email a.email user.id ++
        .useToken id now :: addKey user.id a.sshKey, .activated id user.id)
  | some (.user user), .passwordReset => do
    raiseIf (a.username.isSome || a.email.isSome || a.displayName.isSome)
      (.invalidToken "password reset cannot update profile")
    raiseIf (a.sshKey.isSome || a.sshKeyLabel.isSome)
      (.invalidToken "password reset cannot add ssh key")
    .ok ([.setUser user.id none none none a.passwordHash, .useToken id now],
      .activated id user.id)
  | _, _ => .error (.invalidToken "user no longer exists")

/-- `_complete_registration_invite`: what is flushed. -/
def completeRegistrationInvite (a : Activation) (rows : Rows) (id : Nat)
    (invite : RegistrationInvite) (now : Time) (userId : Nat) : Except ActivationError (List Statement × Outcome) :=
  match a.username, a.email, a.displayName with
  | some username, some email, some displayName => do
    validateProfile rows invite.labId none (some username) (some email)
    validateSshKey rows none a.sshKey
    let user : User :=
      { id := userId, labId := invite.labId, username := username, email := email
        displayName := displayName, role := invite.role, passwordHash := some a.passwordHash
        isActive := true }
    .ok ([.insertUser user, .addEntry (.username invite.labId username) userId,
        .addEntry (.email invite.labId email) userId, .useInvite id now (some userId)] ++
        addKey userId a.sshKey, .registered id userId)
  | _, _, _ =>
    .error (.invalidToken "registration requires username, email and display_name")

/-- `activate`. -/
def activate (a : Activation) (rows : Rows) (now : Time) (userId : Nat) :
    Except ActivationError (List Statement × Outcome) :=
  match lookupActiveToken rows a.tokenHash now with
  | .ok (id, row) => activateToken a rows id row now
  | .error (.invalidToken text) =>
    if text ≠ "token not found" then .error (.invalidToken text)
    else do
      let (id, invite) ← lookupActiveRegistrationInvite rows a.tokenHash now
      completeRegistrationInvite a rows id invite now userId
  | .error e => .error e

/-! ## requests -/

/-- The requests; the plaintext token of an issued one is known by its hash. -/
inductive Request where
  | activate (a : Activation)
  /-- `revoke_registration_invite`. -/
  | revoke (inviteId labId : Nat)
  /-- `resend_invite` and `issue_password_reset`. -/
  | issue (userId labId : Nat) (purpose : Purpose) (tokenHash : String)
deriving DecidableEq, Repr

/-- Where a request is. -/
inductive Phase where
  | received (r : Request)
  /-- The invite that a revocation has locked, if there is one. -/
  | locked (inviteId : Nat) (row : Option Row)
  | flushing (todo : List Statement) (o : Outcome)
  /-- Committed. -/
  | done (o : Outcome)
  | refused
deriving DecidableEq, Repr

/-- What a request learns at a step: the time, and the key of a row it inserts. -/
structure Input where
  now : Time
  freshId : Nat
deriving DecidableEq, Repr

/-- The unused tokens of a user. -/
def priorTokens (rows : Rows) (userId : Nat) : List Nat :=
  rows.entries.filterMap fun e =>
    match e with
    | (.setupToken id, .setupToken t) =>
      if t.userId = userId ∧ t.usedAt = none then some id else none
    | _ => none

/-- `setup_token_ttl_hours` in microseconds. -/
def setupTokenTtl : Time := 24 * hourMicros

/-- `issue_setup_token`. -/
def issueSetupToken (rows : Rows) (userId : Nat) (purpose : Purpose) (tokenHash : String)
    (i : Input) : List Statement :=
  (priorTokens rows userId).map (fun id => Statement.useToken id i.now) ++
    [.insertToken i.freshId { userId := userId, tokenHash := tokenHash, purpose := purpose
                              expiresAt := i.now + setupTokenTtl },
     .addEntry (.setupTokenHash tokenHash) i.freshId]

/-- The callers of `issue_setup_token`: only a pending user gets the invite again, and
only an activated one a reset. -/
def mayIssue (rows : Rows) (userId labId : Nat) (purpose : Purpose) : Bool :=
  match rows.get? (.user userId) with
  | some (.user u) => u.labId = labId &&
      match purpose with
      | .activation => u.passwordHash.isNone
      | .passwordReset => u.passwordHash.isSome
  | _ => false

/-- The invite of a lab. -/
def Row.isInviteOf (labId : Nat) : Row → Bool
  | invite v => v.labId = labId
  | setupToken _ | user _ | entry _ | removed => false

/-- `_invite_status` is `active`. -/
def Row.isActiveInvite (now : Time) : Row → Bool
  | invite v => v.usedAt.isNone && now < v.expiresAt
  | setupToken _ | user _ | entry _ | removed => false

/-- The steps of a request. -/
def next : Phase → Rows → Input → Option (Op Key Row Phase)
  | .received (.activate a), rows, i =>
    match activate a rows i.now i.freshId with
    | .ok (todo, o) => some (.goto (.flushing todo o))
    | .error _ => some (.commit .refused)
  | .received (.revoke inviteId labId), _, _ =>
    some (.lock (.invite inviteId) (Row.isInviteOf labId) (.locked inviteId))
  | .received (.issue userId labId purpose tokenHash), rows, i =>
    if mayIssue rows userId labId purpose then
      some (.goto (.flushing (issueSetupToken rows userId purpose tokenHash i) (.issued i.freshId)))
    else some (.commit .refused)
  | .locked inviteId row, _, i =>
    if row.any (Row.isActiveInvite i.now) then
      some (.goto (.flushing [.useInvite inviteId i.now none] (.revoked inviteId)))
    else some (.commit .refused)
  | .flushing (s :: todo) o, _, _ => some (.write s.key s.apply (.flushing todo o))
  | .flushing [] o, _, _ => some (.commit (.done o))
  | .done _, _, _ | .refused, _, _ => none

abbrev System := Transactions.System Key Row Phase

abbrev Tx := Transactions.Tx Key Row Phase

def program : Program Key Row Phase Request Input := ⟨.received, next⟩

/-- One step. -/
def step : System → Action Request Input → Option System := System.step program

/-! ## the property and its condition -/

/-- A token is spent by one committed request at most: an activation, a registration
(which creates an account) or a revocation. -/
def SpentOnce (sys : System) : Prop :=
  ∀ (i j : Nat) (tx u : Tx) (o o' : Outcome) (k : Key), sys.txs[i]? = some tx → sys.txs[j]? = some u →
    tx.phase = .done o → u.phase = .done o' → o.spends = some k → o'.spends = some k → i = j

/-- Nobody has spent the token of an activation since its snapshot, when it is flushed. -/
def unspentSince (sys : System) : Action Request Input → Bool
  | .turn i _ => sys.txs[i]?.all fun tx =>
    match tx.phase with
    | .flushing (s :: _) (.activated ..) | .flushing (s :: _) (.registered ..) =>
      s.spends.all fun k => !Used sys.rows k || Used tx.snapshot k
    | _ => true
  | .start _ | .kill _ => true

/-- The condition on a step. -/
def UnspentSince (sys : System) (a : Action Request Input) : Prop := unspentSince sys a = true

instance (sys : System) (a : Action Request Input) : Decidable (UnspentSince sys a) :=
  inferInstanceAs (Decidable (_ = _))

/-! ## what an unfinished request has spent -/

/-- The token is locked, and unused as committed. -/
def Found (tx : Tx) (rows : Rows) (k : Key) : Prop :=
  k ∈ tx.locks ∧ ∃ r, rows.get? k = some r ∧ r.used = false

/-- A request is to spend its token with one statement.  An activation has seen it unused
in its snapshot, a revocation has locked it. -/
structure Pending (tx : Tx) (rows : Rows) (todo : List Statement) (o : Outcome) (k : Key) : Prop where
  spends : ∃ s ∈ todo, s.spends = some k
  only : ∀ s ∈ todo, s.key = k → s.spends = some k
  unwritten : tx.written.get? k = none
  seen : (∀ v, o ≠ .revoked v) → Used tx.snapshot k = false
  found : ∀ v, o = .revoked v → Found tx rows k

/-- A request has spent its token, which it found unused. -/
structure Spent (tx : Tx) (rows : Rows) (k : Key) : Prop where
  found : Found tx rows k
  written : ∃ w, tx.written.get? k = some w ∧ w.used = true

/-- What holds of a request, by its phase. -/
def Spending (tx : Tx) (rows : Rows) : Prop :=
  match tx.phase with
  | .received _ => tx.written = .empty
  | .locked v row => tx.written = .empty ∧
      ∀ r, row = some r → .invite v ∈ tx.locks ∧ rows.get? (.invite v) = some r
  | .flushing todo o => ∀ k, o.spends = some k → Pending tx rows todo o k ∨ Spent tx rows k
  | .done _ | .refused => False

section Steps

variable {tx tx' : Tx} {rows rows' : Rows} {sys sys' : System} {k : Key} {o : Outcome}
  {todo : List Statement}

theorem Found.stable (h : Found tx rows k) (hrows : ∀ k ∈ tx.locks, rows'.get? k = rows.get? k) :
    Found tx rows' k := by
  obtain ⟨hlock, r, hr, hunused⟩ := h
  exact ⟨hlock, r, (hrows k hlock).trans hr, hunused⟩

/-- What a request has spent depends on the rows it has locked. -/
theorem spending_stable (hrows : ∀ k ∈ tx.locks, rows'.get? k = rows.get? k) (h : Spending tx rows) :
    Spending tx rows' := by
  unfold Spending at h ⊢
  cases hphase : tx.phase with
  | received r => simpa only [hphase] using h
  | refused | done o => simp only [hphase] at h
  | locked v row =>
      simp only [hphase] at h
      refine ⟨h.1, fun r hr => ?_⟩
      obtain ⟨hlock, hrow⟩ := h.2 r hr
      exact ⟨hlock, (hrows _ hlock).trans hrow⟩
  | flushing todo o =>
      simp only [hphase] at h
      intro k hk
      rcases h k hk with hpending | hspent
      · exact Or.inl { hpending with found := fun v hv => (hpending.found v hv).stable hrows }
      · exact Or.inr ⟨hspent.found.stable hrows, hspent.written⟩

/-- What a statement leaves is used if its row was, or if it spends a token. -/
theorem used_apply {s : Statement} {r : Option Row} {w : Row} (h : s.apply r = some w)
    (hused : (∃ v, r = some v ∧ v.used = true) ∨ s.spends = some k) : w.used = true := by
  rcases hused with ⟨v, rfl, hv⟩ | hs
  · unfold Statement.apply at h
    split at h <;> grind [Row.used]
  · unfold Statement.apply at h
    split at h <;> grind [Row.used, Statement.spends]

/-- The statements of a request spend its token, and do nothing else to it. -/
structure Plans (todo : List Statement) (o : Outcome) (k : Key) : Prop where
  outcome : o.spends = some k
  revokes : ∀ v, o ≠ .revoked v
  spends : ∃ s ∈ todo, s.spends = some k
  only : ∀ s ∈ todo, s.key = k → s.spends = some k

theorem key_of_mem_moveEntry {entry : String → Key} {old : String} {new : Option String} {id : Nat}
    {s : Statement} (h : s ∈ moveEntry entry old new id) : ∃ name, s.key = entry name := by
  unfold moveEntry at h
  split at h
  · split at h
    · cases h
    · rcases List.mem_cons.mp h with rfl | h
      · exact ⟨_, rfl⟩
      · rw [List.mem_singleton.mp h]
        exact ⟨_, rfl⟩
  · cases h

theorem key_of_mem_addKey {userId : Nat} {key : Option (Option String)} {s : Statement}
    (h : s ∈ addKey userId key) : ∃ fp, s.key = .sshKey userId fp := by
  unfold addKey at h
  split at h
  · rw [List.mem_singleton.mp h]
    exact ⟨_, rfl⟩
  · cases h
  · cases h

theorem plans_activateToken {a : Activation} {id : Nat} {row : SetupToken} {now : Time}
    (h : activateToken a rows id row now = .ok (todo, o)) : Plans todo o (.setupToken id) := by
  unfold activateToken at h
  split at h
  · next user _ _ =>
      simp only [check_bind_eq_ok_iff, Except.ok.injEq, Prod.mk.injEq] at h
      obtain ⟨-, -, -, rfl, rfl⟩ := h
      refine ⟨rfl, nofun, ⟨.useToken id now, by simp, rfl⟩, fun s hs hkey => ?_⟩
      simp only [List.cons_append, List.append_assoc, List.mem_cons, List.mem_append] at hs
      rcases hs with rfl | hs | hs | rfl | hs
      · cases hkey
      · obtain ⟨_, hname⟩ := key_of_mem_moveEntry hs
        cases hname.symm.trans hkey
      · obtain ⟨_, hname⟩ := key_of_mem_moveEntry hs
        cases hname.symm.trans hkey
      · rfl
      · obtain ⟨_, hname⟩ := key_of_mem_addKey hs
        cases hname.symm.trans hkey
  · next user _ _ =>
      simp only [check_bind_eq_ok_iff, Except.ok.injEq, Prod.mk.injEq] at h
      obtain ⟨-, -, rfl, rfl⟩ := h
      refine ⟨rfl, nofun, ⟨.useToken id now, by simp, rfl⟩, fun s hs hkey => ?_⟩
      simp only [List.mem_cons, List.not_mem_nil, or_false] at hs
      rcases hs with rfl | rfl
      · cases hkey
      · rfl
  · cases h

theorem plans_registration {a : Activation} {id : Nat} {invite : RegistrationInvite} {now : Time}
    {userId : Nat} (h : completeRegistrationInvite a rows id invite now userId = .ok (todo, o)) :
    Plans todo o (.invite id) := by
  unfold completeRegistrationInvite at h
  split at h
  · simp only [check_bind_eq_ok_iff, Except.ok.injEq, Prod.mk.injEq] at h
    obtain ⟨-, -, rfl, rfl⟩ := h
    refine ⟨rfl, nofun, ⟨.useInvite id now (some userId), by simp, rfl⟩, fun s hs hkey => ?_⟩
    simp only [List.cons_append, List.nil_append, List.mem_cons] at hs
    rcases hs with rfl | rfl | rfl | rfl | hs
    · cases hkey
    · cases hkey
    · cases hkey
    · rfl
    · obtain ⟨_, hname⟩ := key_of_mem_addKey hs
      cases hname.symm.trans hkey
  · cases h

theorem not_used_of_lookupActiveToken {hash : String} {now : Time} {id : Nat} {t : SetupToken}
    (h : lookupActiveToken rows hash now = .ok (id, t)) : Used rows (.setupToken id) = false := by
  unfold lookupActiveToken at h
  split at h
  · split at h
    · next hrow =>
        split at h
        · cases h
        · next hused =>
            split at h
            · cases h
            · obtain ⟨rfl, rfl⟩ := Prod.mk.inj (Except.ok.inj h)
              simpa [Used, hrow, Row.used] using hused
    · cases h
  · cases h

theorem not_used_of_lookupActiveRegistrationInvite {hash : String} {now : Time} {id : Nat}
    {v : RegistrationInvite} (h : lookupActiveRegistrationInvite rows hash now = .ok (id, v)) :
    Used rows (.invite id) = false := by
  unfold lookupActiveRegistrationInvite at h
  split at h
  · split at h
    · next hrow =>
        split at h
        · cases h
        · next hused =>
            split at h
            · cases h
            · obtain ⟨rfl, rfl⟩ := Prod.mk.inj (Except.ok.inj h)
              simpa [Used, hrow, Row.used] using hused
    · cases h
  · cases h

/-- An activation spends the token it found, and has found it unused. -/
theorem plans_activate {a : Activation} {now : Time} {userId : Nat}
    (h : activate a rows now userId = .ok (todo, o)) : ∃ k, Plans todo o k ∧ Used rows k = false := by
  unfold activate at h
  split at h
  · next hlookup => exact ⟨_, plans_activateToken h, not_used_of_lookupActiveToken hlookup⟩
  · split at h
    · cases h
    · obtain ⟨⟨id, invite⟩, hlookup, h⟩ := bind_eq_ok_iff.mp h
      exact ⟨_, plans_registration h, not_used_of_lookupActiveRegistrationInvite hlookup⟩
  · cases h

theorem key_of_spends {s : Statement} (h : s.spends = some k) : s.key = k := by
  cases s <;> simp_all [Statement.spends, Statement.key]

/-- A statement that spends a token needs its row. -/
theorem exists_of_spends {s : Statement} {r : Option Row} {w : Row} (h : s.apply r = some w)
    (hs : s.spends = some k) : ∃ v, r = some v := by
  cases r with
  | some v => exact ⟨v, rfl⟩
  | none =>
      unfold Statement.apply at h
      split at h <;> simp_all [Statement.spends]

theorem Found.write (h : Found tx rows k) (j : Key) (w : Row) (p : Phase) :
    Found (tx.write j w p) rows k := ⟨List.mem_cons_of_mem j h.1, h.2⟩

/-- A statement of a request that has yet to spend its token. -/
theorem Pending.flush {s : Statement} {w : Row} (h : Pending tx rows (s :: todo) o k)
    (hw : s.apply (tx.current rows s.key) = some w)
    (hsince : (∀ v, o ≠ .revoked v) → s.spends = some k → Used rows k = true → Used tx.snapshot k = true) :
    Pending (tx.write s.key w (.flushing todo o)) rows todo o k ∨
      Spent (tx.write s.key w (.flushing todo o)) rows k := by
  have hget : ∀ j, (tx.write s.key w (.flushing todo o)).written.get? j =
      if j = s.key then some w else tx.written.get? j := fun j => Dict.get?_set ..
  by_cases hs : s.spends = some k
  · -- the row is the committed one, and unused
    have hkey : s.key = k := key_of_spends hs
    have hcurrent : tx.current rows s.key = rows.get? k := by
      rw [Tx.current, hkey, h.unwritten, Option.none_or]
    rw [hcurrent] at hw
    obtain ⟨r, hr⟩ := exists_of_spends hw hs
    refine Or.inr ⟨⟨hkey ▸ List.mem_cons_self, r, hr, ?_⟩, w, ?_, used_apply hw (Or.inr hs)⟩
    · by_cases ho : ∃ v, o = .revoked v
      · obtain ⟨v, hv⟩ := ho
        obtain ⟨-, r', hr', hfound⟩ := h.found v hv
        obtain rfl := Option.some.inj (hr'.symm.trans hr)
        exact hfound
      · -- an activation: used by now, it would have been so in the snapshot
        have hrevoked : ∀ v, o ≠ .revoked v := fun v hv => ho ⟨v, hv⟩
        have hunused : Used rows k ≠ true := fun hused => by
          rw [h.seen hrevoked] at hsince
          exact Bool.false_ne_true (hsince hrevoked hs hused)
        simpa [Used, hr] using hunused
    · rw [hget, if_pos hkey.symm]
  · obtain ⟨t, ht, hspends⟩ := h.spends
    refine Or.inl ⟨⟨t, ?_, hspends⟩, fun u hu => h.only u (List.mem_cons_of_mem s hu), ?_,
      h.seen, fun v hv => (h.found v hv).write _ _ _⟩
    · rcases List.mem_cons.mp ht with rfl | ht
      · exact absurd hspends hs
      · exact ht
    · rw [hget, if_neg fun hk => hs (h.only s List.mem_cons_self hk.symm)]
      exact h.unwritten

/-- A statement of a request that has spent its token. -/
theorem Spent.flush {s : Statement} {w : Row} (h : Spent tx rows k)
    (hw : s.apply (tx.current rows s.key) = some w) :
    Spent (tx.write s.key w (.flushing todo o)) rows k := by
  refine ⟨h.found.write _ _ _, ?_⟩
  obtain ⟨v, hv, hused⟩ := h.written
  have hget : (tx.write s.key w (.flushing todo o)).written.get? k =
      if k = s.key then some w else tx.written.get? k := Dict.get?_set ..
  by_cases hk : k = s.key
  · refine ⟨w, by rw [hget, if_pos hk], used_apply (k := k) hw (Or.inl ⟨v, ?_, hused⟩)⟩
    rw [Tx.current, ← hk, hv, Option.some_or]
  · exact ⟨v, by rw [hget, if_neg hk, hv], hused⟩

/-- An activation starts to flush its plan. -/
theorem pending_of_activate {a : Activation} {now : Time} {userId : Nat} (hempty : tx.written = .empty)
    (h : activate a tx.view now userId = .ok (todo, o)) (hk : o.spends = some k) :
    Pending { tx with phase := .flushing todo o } rows todo o k := by
  obtain ⟨j, hplans, hunused⟩ := plans_activate h
  obtain rfl := Option.some.inj (hk.symm.trans hplans.outcome)
  have hview : Used tx.view k = Used tx.snapshot k := by
    rw [Used, Tx.get?_view, hempty, Dict.get?_empty, Option.none_or, Used]
  exact ⟨hplans.spends, hplans.only, by rw [hempty, Dict.get?_empty], fun _ => hview ▸ hunused,
    fun v hv => absurd hv (hplans.revokes v)⟩

/-- **An unfinished request** has found the token that it spends unused, or will. -/
theorem spending_own {i : Nat} {input : Input} {op : Op Key Row Phase}
    (hi : sys.txs[i]? = some tx) (hok : UnspentSince sys (.turn i input)) (h : Spending tx sys.rows)
    (hop : next tx.phase tx.view input = some op) (hafter : tx.after sys.rows op = some tx') :
    Spending tx' sys.rows := by
  unfold Spending at h
  cases hphase : tx.phase with
  | received r =>
      simp only [hphase] at h hop
      cases r with
      | activate a =>
          simp only [next] at hop
          split at hop
          · next todo o hactivate =>
              obtain rfl := Option.some.inj hop
              obtain rfl := Option.some.inj hafter
              exact fun k hk => Or.inl (pending_of_activate h hactivate hk)
          · obtain rfl := Option.some.inj hop
            cases hafter
      | revoke v labId =>
          obtain rfl := Option.some.inj hop
          obtain rfl := Option.some.inj hafter
          split
          · exact ⟨h, fun r hr => by cases hr⟩
          · next r hr =>
              refine ⟨h, fun r' hr' => ⟨List.mem_cons_self, ?_⟩⟩
              obtain rfl := Option.some.inj hr'
              rw [Tx.current, h, Dict.get?_empty, Option.none_or, Option.filter_eq_some_iff] at hr
              exact hr.1
      | issue userId labId purpose tokenHash =>
          simp only [next] at hop
          split at hop
          · obtain rfl := Option.some.inj hop
            obtain rfl := Option.some.inj hafter
            exact fun k hk => by cases hk
          · obtain rfl := Option.some.inj hop
            cases hafter
  | locked v row =>
      simp only [hphase] at h hop
      simp only [next] at hop
      split at hop
      · next hactive =>
          obtain rfl := Option.some.inj hop
          obtain rfl := Option.some.inj hafter
          intro k hk
          obtain rfl := Option.some.inj hk
          obtain ⟨r, hr, hstatus⟩ := Option.any_eq_true .. |>.mp hactive
          obtain ⟨hlock, hrow⟩ := h.2 r hr
          have hunused : r.used = false := by
            cases r with
            | invite w => simpa [Row.isActiveInvite, Row.used] using (Bool.and_eq_true_iff.mp hstatus).1
            | setupToken t | user u | entry id | removed => cases hstatus
          refine Or.inl ⟨⟨_, List.mem_singleton_self _, rfl⟩, fun s hs _ => ?_, ?_,
            fun hrevoked => absurd rfl (hrevoked v), fun _ _ => ⟨hlock, r, hrow, hunused⟩⟩
          · rw [List.mem_singleton.mp hs]
            rfl
          · exact (congrArg (fun d : Rows => d.get? _) h.1).trans (Dict.get?_empty _)
      · obtain rfl := Option.some.inj hop
        cases hafter
  | flushing todo o =>
      simp only [hphase] at h hop
      cases todo with
      | nil =>
          obtain rfl := Option.some.inj hop
          cases hafter
      | cons s todo =>
          obtain rfl := Option.some.inj hop
          obtain ⟨w, hw, rfl⟩ := Option.map_eq_some_iff.mp hafter
          intro k hk
          rcases h k hk with hpending | hspent
          · refine hpending.flush hw fun hrevoked hs hused => ?_
            simp only [UnspentSince, unspentSince, hi, hphase, Option.all_some] at hok
            cases o with
            | activated t u | registered v u => simpa [hs, hused] using hok
            | revoked v => exact absurd rfl (hrevoked v)
            | issued t => cases hk
          · exact Or.inr (hspent.flush hw)
  | done o | refused => simp only [hphase] at h

/-! ## tokens are spent once -/

/-- A used token stays used. -/
def StaysUsed (r w : Row) : Prop := r.used = true → w.used = true

theorem staysUsed_write {phase p : Phase} {rows : Rows} {input : Input} {f : Option Row → Option Row}
    (h : next phase rows input = some (.write k f p)) (r w : Row) (hw : f (some r) = some w) :
    StaysUsed r w := by
  cases phase with
  | received request =>
      cases request with
      | activate a =>
          simp only [next] at h
          split at h <;> cases h
      | revoke v labId => cases h
      | issue userId labId purpose tokenHash =>
          simp only [next] at h
          split at h <;> cases h
  | locked v row =>
      simp only [next] at h
      split at h <;> cases h
  | flushing todo o =>
      cases todo with
      | nil => cases h
      | cons s todo =>
          simp only [next, Option.some.injEq, Op.write.injEq] at h
          obtain ⟨-, rfl, -⟩ := h
          exact fun hused => used_apply (k := k) hw (Or.inl ⟨r, rfl, hused⟩)
  | done o | refused => cases h

/-- A commit is a refusal, which has spent nothing, or spends its token. -/
theorem commit_cases {input : Input} {p : Phase} (h : Spending tx rows)
    (hop : next tx.phase tx.view input = some (.commit p)) :
    p = .refused ∨ ∃ o, p = .done o ∧ ∀ k, o.spends = some k → Spent tx rows k := by
  unfold Spending at h
  cases hphase : tx.phase with
  | received request =>
      simp only [hphase] at hop
      cases request with
      | activate a =>
          simp only [next] at hop
          split at hop
          · cases hop
          · simp only [Option.some.injEq, Op.commit.injEq] at hop
            exact Or.inl hop.symm
      | revoke v labId => cases hop
      | issue userId labId purpose tokenHash =>
          simp only [next] at hop
          split at hop
          · cases hop
          · simp only [Option.some.injEq, Op.commit.injEq] at hop
            exact Or.inl hop.symm
  | locked v row =>
      simp only [hphase, next] at hop
      split at hop
      · cases hop
      · simp only [Option.some.injEq, Op.commit.injEq] at hop
        exact Or.inl hop.symm
  | flushing todo o =>
      simp only [hphase] at h hop
      cases todo with
      | cons s todo => cases hop
      | nil =>
          simp only [next, Option.some.injEq, Op.commit.injEq] at hop
          refine Or.inr ⟨o, hop.symm, fun k hk => (h k hk).resolve_left fun hpending => ?_⟩
          obtain ⟨s, hs, -⟩ := hpending.spends
          cases hs
  | done o | refused =>
      simp only [hphase] at hop
      cases hop

/-- What holds in every state; a token that was spent is used. -/
structure Safe (sys : System) : Prop where
  inv : Inv Spending sys
  used : Extends StaysUsed sys
  spent : ∀ (i : Nat) (tx : Tx) (o : Outcome) (k : Key), sys.txs[i]? = some tx → tx.phase = .done o →
    o.spends = some k → ∃ r, sys.rows.get? k = some r ∧ r.used = true
  once : SpentOnce sys

/-- A request under way is not done. -/
theorem not_done (h : Spending tx rows) (o : Outcome) : tx.phase ≠ .done o := by
  intro hphase
  simp only [Spending, hphase] at h

theorem rules : Rules program UnspentSince Spending where
  stable _ _ _ hrows h := spending_stable hrows h
  start _ _ _ := rfl
  own _ _ _ _ _ _ hi hok h hop hafter := spending_own hi hok h hop hafter

/-- A transaction that is not done takes the place of one that is not. -/
theorem done_of_set {i : Nat} (hi : sys.txs[i]? = some tx) (hnew : ∀ o, tx'.phase ≠ .done o)
    {j : Nat} {u : Tx} {o : Outcome} (hu : (sys.set i tx').txs[j]? = some u) (ho : u.phase = .done o) :
    sys.txs[j]? = some u := by
  rw [System.set, get?_set hi] at hu
  split at hu
  · obtain rfl := Option.some.inj hu
    exact absurd ho (hnew o)
  · exact hu

/-- The committed requests stay the same ones. -/
theorem Safe.same (h : Safe sys) (hinv : Inv Spending sys') (hext : Extends StaysUsed sys')
    (hrows : sys'.rows = sys.rows)
    (hdone : ∀ (j : Nat) (u : Tx) o, sys'.txs[j]? = some u → u.phase = .done o → sys.txs[j]? = some u) :
    Safe sys' := by
  refine ⟨hinv, hext, fun i tx o k hi ho hk => ?_, fun i j tx u o o' k hi hj ho ho' hk hk' => ?_⟩
  · rw [hrows]
    exact h.spent i tx o k (hdone i tx o hi ho) ho hk
  · exact h.once i j tx u o o' k (hdone i tx o hi ho) (hdone j u o' hj ho') ho ho' hk hk'

/-- A commit keeps the tokens used that were spent before. -/
theorem Safe.kept {i j : Nat} {u : Tx} (h : Safe sys) (hi : sys.txs[i]? = some tx)
    (hu : sys.txs[j]? = some u) (ho : u.phase = .done o) (hk : o.spends = some k) :
    ∃ r, (tx.flushed sys.rows).get? k = some r ∧ r.used = true := by
  obtain ⟨r, hr, hused⟩ := h.spent j u o k hu ho hk
  obtain ⟨w, hw, hstays⟩ := h.used.flushed (fun _ => id) hi hr
  exact ⟨w, hw, hstays hused⟩

/-- Nobody has spent the token of a request before: it was unused. -/
theorem Safe.first {j : Nat} {u : Tx} (h : Safe sys) (hspent : Spent tx sys.rows k)
    (hu : sys.txs[j]? = some u) (ho : u.phase = .done o) : o.spends ≠ some k := by
  intro hk
  obtain ⟨r, hr, hused⟩ := h.spent j u o k hu ho hk
  obtain ⟨-, r', hr', hunused⟩ := hspent.found
  rw [Option.some.inj (hr.symm.trans hr'), hunused] at hused
  cases hused

/-- The commit of a request that spends its token. -/
theorem Safe.commit {i : Nat} (h : Safe sys) (hi : sys.txs[i]? = some tx)
    (hspent : ∀ k, o.spends = some k → Spent tx sys.rows k)
    (hinv : Inv Spending { rows := tx.flushed sys.rows, txs := sys.txs.set i (tx.ended (.done o)) })
    (hext : Extends StaysUsed
      { rows := tx.flushed sys.rows, txs := sys.txs.set i (tx.ended (.done o)) }) :
    Safe { rows := tx.flushed sys.rows, txs := sys.txs.set i (tx.ended (.done o)) } := by
  have hget := get?_set hi (tx.ended (.done o))
  refine ⟨hinv, hext, fun j u o' k hu ho' hk => ?_, fun j l u v o' o'' k hu hv ho' ho'' hk hk' => ?_⟩
  · rw [hget] at hu
    split at hu
    · obtain rfl := Option.some.inj hu
      obtain rfl := Phase.done.inj ho'
      obtain ⟨w, hw, hused⟩ := (hspent k hk).written
      exact ⟨w, by rw [Tx.get?_flushed, hw, Option.some_or], hused⟩
    · exact h.kept hi hu ho' hk
  · rw [hget] at hu hv
    split at hu <;> split at hv
    · next hj hl => rw [hj, hl]
    · obtain rfl := Option.some.inj hu
      obtain rfl := Phase.done.inj ho'
      exact absurd hk' (h.first (hspent k hk) hv ho'')
    · obtain rfl := Option.some.inj hv
      obtain rfl := Phase.done.inj ho''
      exact absurd hk (h.first (hspent k hk') hu ho')
    · exact h.once j l u v o' o'' k hu hv ho' ho'' hk hk'

/-- **Each token is spent once**, and used from then on. -/
theorem safe_step {a : Action Request Input} (h : Safe sys) (hok : UnspentSince sys a)
    (hstep : step sys a = some sys') : Safe sys' := by
  have hinv : Inv Spending sys' := inv_step rules h.inv hok hstep
  have hext : Extends StaysUsed sys' := extends_step (fun _ => id) (fun _ _ _ hab hbc => hbc ∘ hab)
    (fun _ _ _ _ _ _ hop => staysUsed_write hop) h.inv h.used hstep
  cases step_cases hstep with
  | start request =>
      refine h.same hinv hext rfl fun j u o hu ho => (get?_start hu).resolve_right ?_
      rintro rfl
      cases ho
  | moves hi hlive hop hwaits hafter =>
      next i input tx tx' op =>
      have hlive' : tx'.live = true := (frame_after hafter).2.trans hlive
      have hnew : Spending tx' sys.rows :=
        hinv.held i tx' ((get?_set hi tx' i).trans (if_pos rfl)) hlive'
      exact h.same hinv hext rfl fun j u o hu ho => done_of_set hi (not_done hnew) hu ho
  | ends hi hlive =>
      next i tx =>
      have hphase : ∀ o, tx.phase ≠ .done o := not_done (h.inv.held i tx hi hlive)
      have hended : ∀ o, (tx.ended tx.phase).phase ≠ .done o := hphase
      exact h.same hinv hext rfl fun j u o hu ho => done_of_set hi hended hu ho
  | commits hi hlive hop =>
      next i input tx p =>
      rcases commit_cases (h.inv.held i tx hi hlive) hop with rfl | ⟨o, rfl, hspent⟩
      · have hended : ∀ o, (tx.ended .refused).phase ≠ .done o := nofun
        have hdone : ∀ (j : Nat) (u : Tx) o, (sys.txs.set i (tx.ended .refused))[j]? = some u →
            u.phase = .done o → sys.txs[j]? = some u :=
          fun j u o hu ho => done_of_set hi hended hu ho
        exact ⟨hinv, hext, fun j u o k hu ho hk => h.kept hi (hdone j u o hu ho) ho hk,
          fun j l u v o o' k hu hv ho ho' hk hk' =>
            h.once j l u v o o' k (hdone j u o hu ho) (hdone l v o' hv ho') ho ho' hk hk'⟩
      · exact h.commit hi hspent hinv hext

end Steps

/-- **A token is spent once**: in every interleaving in which no activation flushes a
token that was spent since its snapshot, at most one committed request has activated,
registered with or revoked each of them. -/
theorem once_run {sys : System} {as : List (Action Request Input)} (hstart : sys.txs = [])
    (hok : Meets step UnspentSince sys as) : Along step (fun _ _ sys' => SpentOnce sys') sys as := by
  have hnone := not_getElem?_of_nil hstart
  have hinit : Safe sys := ⟨.start hstart, .start hstart,
    fun i tx _ _ hi => absurd hi (hnone i tx), fun i _ tx _ _ _ _ hi => absurd hi (hnone i tx)⟩
  exact along_of_invariant
    (fun _ _ _ hs hok ht => ⟨safe_step hs hok ht, (safe_step hs hok ht).once⟩) hinit hok

/-- An invite to lab 1, for an hour. -/
def invited : System :=
  { rows := (Dict.empty.set (.inviteHash "h") (.entry 1)).set (.invite 1)
      (.invite { labId := 1, tokenHash := "h", role := .user, expiresAt := hourMicros }) }

/-- A registration with that invite. -/
def register (name : String) : Request :=
  .activate { tokenHash := "h", passwordHash := "$2b$12$", username := some name
              email := some (name ++ "@lab.test"), displayName := some name }

/-- Request `i` up to its commit, which creates user `userId`. -/
def flushOf (i userId : Nat) : List (Action Request Input) := List.replicate 5 (.turn i ⟨0, userId⟩)

/-- Two registrations one after the other, and a revocation. -/
def inTurn : List (Action Request Input) :=
  .start (register "ann") :: flushOf 0 5 ++ [.turn 0 ⟨0, 0⟩, .start (register "bob"), .turn 1 ⟨0, 6⟩,
    .start (.revoke 1 1), .turn 2 ⟨0, 0⟩, .turn 2 ⟨0, 0⟩]

theorem once_run_inTurn :
    (exec step invited inTurn).map (fun sys => sys.txs.map (·.phase)) =
      some [.done (.registered 1 5), .refused, .refused] ∧
    Along step (fun _ _ sys' => SpentOnce sys') invited inTurn :=
  ⟨by decide +kernel, once_run rfl (by decide +kernel)⟩

/-- Two registrations that both have looked the invite up before either commits. -/
def sideBySide : List (Action Request Input) :=
  [.start (register "ann"), .start (register "bob")] ++ flushOf 0 5 ++ [.turn 0 ⟨0, 0⟩] ++ flushOf 1 6

def halfSpent : System := (exec step invited sideBySide).get (by decide +kernel)

def twiceSpent : System := (step halfSpent (.turn 1 ⟨0, 0⟩)).get (by decide +kernel)

theorem not_once :
    ¬ ∀ (sys : System) (as : List (Action Request Input)), sys.txs = [] →
      Along step (fun _ _ sys' => SpentOnce sys') sys as := by
  intro h
  have halong := h invited (sideBySide ++ [.turn 1 ⟨0, 0⟩]) rfl
  have honce : SpentOnce twiceSpent :=
    halong.step_of_exec (Option.some_get _).symm (Option.some_get _).symm
  have hphases : twiceSpent.txs.map (·.phase) =
      [.done (.registered 1 5), .done (.registered 1 6)] := by decide +kernel
  have hget : ∀ (i : Nat) (o : Outcome), (twiceSpent.txs.map (·.phase))[i]? = some (.done o) →
      ∃ tx : Tx, twiceSpent.txs[i]? = some tx ∧ tx.phase = .done o := by
    intro i o hi
    rw [List.getElem?_map] at hi
    exact Option.map_eq_some_iff.mp hi
  obtain ⟨tx, htx, ho⟩ := hget 0 (.registered 1 5) (by rw [hphases]; rfl)
  obtain ⟨u, hu, ho'⟩ := hget 1 (.registered 1 6) (by rw [hphases]; rfl)
  exact absurd (honce 0 1 tx u _ _ (.invite 1) htx hu ho ho' rfl rfl) (by decide)

end AuthService

end CoreLab
