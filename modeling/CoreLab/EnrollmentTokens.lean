import CoreLab.Datetime
import CoreLab.Lib.Table
import CoreLab.Lib.Transition

/-!
# CoreLab.EnrollmentTokens

The secrets with which an agent phones home the first time.  A token belongs to a lab; the
host name it is expected from says which tokens a regeneration revokes, and nothing else
reads it.

* `tokenValidity_run` — the runs in which the token that was regenerated last is the only
  one with which a server's agent gets in.
-/

namespace CoreLab

open Relational Transition

namespace EnrollmentTokens

/-! ## rows -/

structure Server where
  id : Nat
  labId : Nat
  hostname : String
  isActive : Bool
  agentTokenHash : Option String
deriving DecidableEq, Repr

structure EnrollmentToken where
  id : Nat
  labId : Nat
  tokenHash : String
  expectedHostnamePattern : Option String
  expiresAt : Time
  usedAt : Option Time
  usedByServerId : Option Nat
deriving DecidableEq, Repr

instance : Keyed Server := ⟨Server.id⟩

instance : Keyed EnrollmentToken := ⟨EnrollmentToken.id⟩

structure Tables where
  servers : Table Server
  tokens : Table EnrollmentToken

structure Host where
  /-- `_sha256` and `hash_setup_token`. -/
  sha256 : String → String
  /-- `bcrypt.hashpw` of a plaintext and a salt. -/
  hashpw : String → String → String
  /-- `bcrypt.checkpw`; `none` for a `ValueError`. -/
  checkpw : String → String → Option Bool
  /-- The database takes the two texts for the same. -/
  collates : String → String → Bool

/-! ## issuing tokens -/

inductive ServerError where
  | duplicateHostname
  | serverNotFound
  | softDeleted
deriving DecidableEq, Repr

/-- `timedelta(days=7)`. -/
def tokenLifetime : Time := 7 * 24 * hourMicros

/-- A row for a new token. -/
def newToken (h : Host) (labId : Nat) (plaintext pattern : String) (now : Time) :
    Table.Insertion EnrollmentToken :=
  ⟨fun id => ⟨id, labId, h.sha256 plaintext, some pattern, now + tokenLifetime, none, none⟩,
    fun _ => rfl⟩

/-- `expected_hostname_pattern or hostname`. -/
def patternOr (expectedHostnamePattern : Option String) (hostname : String) : String :=
  match expectedHostnamePattern with
  | some pattern => if pattern = "" then hostname else pattern
  | none => hostname

/-- `create_server`: the tables, and the server's id. -/
def createServer (h : Host) (db : Tables) (labId : Nat) (hostname : String)
    (expectedHostnamePattern : Option String) (plaintext : String) (now : Time) :
    Except ServerError (Tables × Nat) :=
  if db.servers.rows.any fun s => s.labId = labId && h.collates s.hostname hostname then
    .error .duplicateHostname
  else
    .ok (⟨db.servers.append ⟨fun id => ⟨id, labId, hostname, true, none⟩, fun _ => rfl⟩,
        db.tokens.append
          (newToken h labId plaintext (patternOr expectedHostnamePattern hostname) now)⟩,
      db.servers.nextKey)

/-- A prior token that is scoped to the server's host name and still unused. -/
def EnrollmentToken.isRevoked (h : Host) (server : Server) (now : Time) (k : EnrollmentToken) : Bool :=
  k.labId = server.labId && k.expectedHostnamePattern.any (h.collates · server.hostname) &&
    k.usedAt.isNone && decide (now < k.expiresAt)

/-- The tokens once those have expired. -/
def revokePrior (h : Host) (server : Server) (tokens : Table EnrollmentToken) (now : Time) :
    Table EnrollmentToken :=
  tokens.mapRows (fun k => if k.isRevoked h server now then { k with expiresAt := now } else k)
    fun k => by split <;> rfl

/-- `regenerate_enrollment_token`: the tables, and the ids of the tokens revoked. -/
def regenerateEnrollmentToken (h : Host) (db : Tables) (serverId labId : Nat) (plaintext : String)
    (now : Time) : Except ServerError (Tables × List Nat) :=
  match db.servers.get? serverId with
  | none => .error .serverNotFound
  | some server =>
    if server.labId ≠ labId then .error .serverNotFound
    else if !server.isActive then .error .softDeleted
    else
      .ok (⟨db.servers, (revokePrior h server db.tokens now).append
          (newToken h labId plaintext server.hostname now)⟩,
        (db.tokens.rows.filter (·.isRevoked h server now)).map (·.id))

/-! ## phoning home -/

inductive AgentAuthError where
  | notFoundOrDisabled (serverId : Nat)
  | agentTokenMismatch
  | tokenNotFound
  | alreadyUsed
  | expired
  /-- No `AgentAuthError` of the source: `bcrypt.checkpw` raised. -/
  | valueError
deriving DecidableEq, Repr

def AgentAuthError.text : AgentAuthError → String
  | notFoundOrDisabled serverId => "server " ++ toString serverId ++ " not found or disabled"
  | agentTokenMismatch => "agent_token mismatch"
  | tokenNotFound => "enrollment_token not found"
  | alreadyUsed => "enrollment_token already used"
  | expired => "enrollment_token expired"
  | valueError => "ValueError"

/-- `authenticate_agent`; the tables after a success. -/
def authenticateAgent (h : Host) (db : Tables) (serverId : Nat) (plaintextToken salt : String)
    (now : Time) : Except AgentAuthError Tables :=
  match db.servers.get? serverId with
  | none => .error (.notFoundOrDisabled serverId)
  | some server =>
    if !server.isActive then .error (.notFoundOrDisabled serverId)
    else
      match server.agentTokenHash with
      | some agentTokenHash =>
        match h.checkpw plaintextToken agentTokenHash with
        | none => .error .valueError
        | some false => .error .agentTokenMismatch
        | some true => .ok db
      | none =>
        match db.tokens.rows.find? fun k =>
            k.tokenHash = h.sha256 plaintextToken && k.labId = server.labId with
        | none => .error .tokenNotFound
        | some token =>
          if token.usedAt.isSome && token.usedByServerId ≠ some serverId then .error .alreadyUsed
          else if token.expiresAt ≤ now then .error .expired
          else
            .ok ⟨db.servers.put { server with agentTokenHash := some (h.hashpw plaintextToken salt) },
              db.tokens.put { token with usedAt := some now, usedByServerId := some serverId }⟩

/-! ## runs -/

/-- What has been given out: by the creation of a server or by a regeneration. -/
structure Issued where
  serverId : Nat
  plaintext : String
  regenerated : Bool
deriving DecidableEq, Repr

structure World where
  now : Time
  db : Tables
  /-- The tokens given out, the latest one first. -/
  issued : List Issued

def World.start : World := ⟨0, ⟨.empty, .empty⟩, []⟩

/-- The token that the last regeneration for a server returned. -/
def World.latest (w : World) (serverId : Nat) : Option String :=
  (w.issued.find? fun i => i.serverId = serverId && i.regenerated).map (·.plaintext)

inductive Request where
  | create (labId : Nat) (hostname : String) (expectedHostnamePattern : Option String)
      (plaintext : String)
  | regenerate (serverId labId : Nat) (plaintext : String)
  | phoneHome (serverId : Nat) (plaintextToken salt : String)
deriving DecidableEq, Repr

structure Call where
  now : Time
  request : Request
deriving DecidableEq, Repr

/-- The token that `secrets.token_urlsafe` draws for a request. -/
def Request.drawn : Request → Option String
  | create _ _ _ plaintext | regenerate _ _ plaintext => some plaintext
  | phoneHome _ _ _ => none

/-- The answer to a request; one that fails is rolled back. -/
def answer (h : Host) (w : World) (q : Call) : World :=
  match q.request with
  | .create labId hostname pattern plaintext =>
    match createServer h w.db labId hostname pattern plaintext q.now with
    | .error _ => { w with now := q.now }
    | .ok (db, serverId) => ⟨q.now, db, ⟨serverId, plaintext, false⟩ :: w.issued⟩
  | .regenerate serverId labId plaintext =>
    match regenerateEnrollmentToken h w.db serverId labId plaintext q.now with
    | .error _ => { w with now := q.now }
    | .ok (db, _) => ⟨q.now, db, ⟨serverId, plaintext, true⟩ :: w.issued⟩
  | .phoneHome serverId plaintextToken salt =>
    match authenticateAgent h w.db serverId plaintextToken salt q.now with
    | .error _ => { w with now := q.now }
    | .ok db => { w with now := q.now, db := db }

/-- Time does not run backwards, and the token that is drawn is a new one. -/
def step (h : Host) (w : World) (q : Call) : Option World :=
  if w.now ≤ q.now ∧
      ∀ plaintext ∈ q.request.drawn, ∀ k ∈ w.db.tokens.rows, k.tokenHash ≠ h.sha256 plaintext then
    some (answer h w q)
  else none

/-! ## what is promised -/

/-- The token is the server's current agent token. -/
def IsAgentToken (h : Host) (db : Tables) (serverId : Nat) (x : String) : Prop :=
  ∃ server, db.servers.get? serverId = some server ∧
    ∃ hash, server.agentTokenHash = some hash ∧ h.checkpw x hash = some true

def Accepts (h : Host) (db : Tables) (serverId : Nat) (x salt : String) (now : Time) : Prop :=
  ∃ db', authenticateAgent h db serverId x salt now = .ok db'

/-- Unused and unexpired. -/
def EnrollmentToken.Live (k : EnrollmentToken) (now : Time) : Prop :=
  k.usedAt = none ∧ now < k.expiresAt

instance (k : EnrollmentToken) (now : Time) : Decidable (k.Live now) :=
  inferInstanceAs (Decidable (_ ∧ _))

def Unspent (h : Host) (db : Tables) (t : String) (now : Time) : Prop :=
  ∃ k ∈ db.tokens, k.tokenHash = h.sha256 t ∧ k.Live now

/-- After a regeneration for the server its token is the only one that gets in, as long as it is
unspent. -/
structure TokenValidity (h : Host) (serverId : Nat) (w : World) : Prop where
  accepts : ∀ t, w.latest serverId = some t → ∀ now, w.now ≤ now → ∀ x salt,
    ¬ IsAgentToken h w.db serverId x →
      (Accepts h w.db serverId x salt now ↔ x = t ∧ Unspent h w.db t now)
  /-- What was given out for the server before, or for another one, does not get in. -/
  others : ∀ t, w.latest serverId = some t → ∀ now, w.now ≤ now → ∀ i ∈ w.issued,
    (i.serverId = serverId → i.plaintext ≠ t) → ∀ salt,
      ¬ IsAgentToken h w.db serverId i.plaintext →
        ¬ Accepts h w.db serverId i.plaintext salt now

/-- A regenerated token waits for the agent of the server, which is in that lab. -/
def World.waits (w : World) (serverId labId : Nat) : Bool :=
  (w.latest serverId).isSome && (w.db.servers.get? serverId).any fun server =>
    server.labId = labId && server.agentTokenHash.isNone

/-- The condition on a request: no token is given out for another server of the lab while one
waits for the agent; and the server for which one is regenerated has not phoned home, and no
other token of the lab is live than those scoped to its host name. -/
def Scoped (h : Host) (serverId : Nat) (w : World) (q : Call) : Prop :=
  match q.request with
  | .create labId hostname _ _ =>
    (∀ s ∈ w.db.servers.rows, s.labId = labId → h.collates s.hostname hostname = false) →
      w.waits serverId labId = false
  | .regenerate id labId _ =>
    ∀ server ∈ w.db.servers.get? id, server.labId = labId → server.isActive = true →
      if id = serverId then
        server.agentTokenHash = none ∧ ∀ k ∈ w.db.tokens.rows, k.labId = labId → k.Live q.now →
          k.expectedHostnamePattern.any (h.collates · server.hostname) = true
      else w.waits serverId labId = false
  | .phoneHome _ _ _ => True

instance (h : Host) (serverId : Nat) (w : World) : ∀ q, Decidable (Scoped h serverId w q)
  | ⟨_, .create _ _ _ _⟩ => inferInstanceAs (Decidable (_ → _))
  | ⟨_, .regenerate _ _ _⟩ => inferInstanceAs (Decidable (∀ _ ∈ _, _))
  | ⟨_, .phoneHome _ _ _⟩ => inferInstanceAs (Decidable True)

/-! ## later versions of a token -/

/-- What may become of a token. -/
structure Later (k k' : EnrollmentToken) : Prop where
  id : k'.id = k.id
  labId : k'.labId = k.labId
  tokenHash : k'.tokenHash = k.tokenHash
  live : ∀ now, k'.Live now → k.Live now

theorem Later.refl (k : EnrollmentToken) : Later k k := ⟨rfl, rfl, rfl, fun _ h => h⟩

/-- The tokens after a request: later versions of those before it, used by no other server than
before or by the one that phones home, and the new one. -/
structure Grows (t u : Table EnrollmentToken) (user : Option Nat) (new : Option EnrollmentToken) :
    Prop where
  old : ∀ k ∈ t, ∃ k' ∈ u, Later k k'
  back : ∀ k' ∈ u, new = some k' ∨
    ∃ k ∈ t, Later k k' ∧ (k'.usedByServerId = k.usedByServerId ∨ k'.usedByServerId = user)

section Grows

variable {h : Host} {t u : Table EnrollmentToken} {server : Server} {now : Time}

theorem grows_refl (t : Table EnrollmentToken) : Grows t t none none :=
  ⟨fun k hk => ⟨k, hk, .refl k⟩, fun k hk => Or.inr ⟨k, hk, .refl k, Or.inl rfl⟩⟩

theorem Grows.append (hg : Grows t u none none) (b : Table.Insertion EnrollmentToken) :
    Grows t (u.append b) none (some (b.1 u.nextKey)) := by
  constructor
  · intro k hk
    obtain ⟨k', hk', hlater⟩ := hg.old k hk
    exact ⟨k', by rw [Table.mem_def, Table.rows_append]; exact List.mem_append_left _ hk', hlater⟩
  · intro k' hk'
    rw [Table.mem_def, Table.rows_append, List.mem_append, List.mem_singleton] at hk'
    rcases hk' with hk' | rfl
    · rcases hg.back k' hk' with hnew | hold
      · cases hnew
      · exact Or.inr hold
    · exact Or.inl rfl

/-- Revoking tokens ends their lives. -/
theorem grows_revoke (h : Host) (server : Server) (t : Table EnrollmentToken) (now : Time) :
    Grows t (revokePrior h server t now) none none := by
  have hlater : ∀ k : EnrollmentToken,
      Later k (if k.isRevoked h server now then { k with expiresAt := now } else k) ∧
        (if k.isRevoked h server now then { k with expiresAt := now } else k).usedByServerId =
          k.usedByServerId := by
    intro k
    by_cases hk : k.isRevoked h server now = true
    · rw [if_pos hk]
      refine ⟨⟨rfl, rfl, rfl, fun later hlive => ?_⟩, rfl⟩
      simp only [EnrollmentToken.isRevoked, Bool.and_eq_true, decide_eq_true_eq] at hk
      exact ⟨hlive.1, Int.lt_trans hlive.2 hk.2⟩
    · rw [if_neg hk]
      exact ⟨.refl k, rfl⟩
  constructor
  · exact fun k hk => ⟨_, Table.mem_mapRows.mpr ⟨k, hk, rfl⟩, (hlater k).1⟩
  · intro k' hk'
    obtain ⟨k, hk, rfl⟩ := Table.mem_mapRows.mp hk'
    exact Or.inr ⟨k, hk, (hlater k).1, Or.inl (hlater k).2⟩

/-- Using a token ends its life. -/
theorem grows_use {token : EnrollmentToken} (htoken : token ∈ t) (serverId : Nat) :
    Grows t (t.put { token with usedAt := some now, usedByServerId := some serverId })
      (some serverId) none := by
  have hlater : Later token { token with usedAt := some now, usedByServerId := some serverId } :=
    ⟨rfl, rfl, rfl, fun _ hlive => by simp [EnrollmentToken.Live] at hlive⟩
  constructor
  · intro k hk
    by_cases hid : k.id = token.id
    · obtain rfl : k = token := Table.eq_of_key_eq hk htoken hid
      have hget : t.get? k.id = some k := Table.get?_key hk
      exact ⟨{ k with usedAt := some now, usedByServerId := some serverId },
        Table.mem_of_get? (Table.get?_put_self hget), hlater⟩
    · refine ⟨k, Table.mem_of_get? (k := k.id) ?_, .refl k⟩
      rw [Table.get?_put_ne fun heq => hid heq.symm]
      exact Table.get?_key hk
  · intro k' hk'
    rcases Table.mem_put hk' with rfl | hk'
    · exact Or.inr ⟨token, htoken, hlater, Or.inr rfl⟩
    · exact Or.inr ⟨k', hk', .refl k', Or.inl rfl⟩

end Grows

/-! ## what every run keeps -/

/-- What holds of every state, whoever has called. -/
structure Consistent (h : Host) (w : World) : Prop where
  unique : ∀ k ∈ w.db.tokens, ∀ l ∈ w.db.tokens, k.tokenHash = l.tokenHash → k = l
  user : ∀ k ∈ w.db.tokens, ∀ id, k.usedByServerId = some id →
    ∃ server, w.db.servers.get? id = some server ∧ server.agentTokenHash ≠ none
  active : ∀ server ∈ w.db.servers, server.isActive = true
  row : ∀ i ∈ w.issued, ∃ k ∈ w.db.tokens, k.tokenHash = h.sha256 i.plaintext ∧
    ∃ server, w.db.servers.get? i.serverId = some server ∧ server.labId = k.labId
  distinct : ∀ i ∈ w.issued, ∀ j ∈ w.issued, h.sha256 i.plaintext = h.sha256 j.plaintext → i = j

/-- What holds of the server's tokens where the requests meet the condition. -/
structure Held (h : Host) (serverId : Nat) (w : World) : Prop where
  waiting : ∀ server t, w.db.servers.get? serverId = some server → w.latest serverId = some t →
    server.agentTokenHash = none → ∀ k ∈ w.db.tokens, k.labId = server.labId → k.Live w.now →
      k.tokenHash = h.sha256 t
  enrolled : ∀ server t, w.db.servers.get? serverId = some server → w.latest serverId = some t →
    server.agentTokenHash ≠ none → ∀ k ∈ w.db.tokens, k.tokenHash = h.sha256 t → ¬ k.Live w.now

section Runs

variable {h : Host} {w w' : World} {q : Call} {serverId : Nat} {now : Time}

theorem EnrollmentToken.Live.earlier {k : EnrollmentToken} {later : Time} (hlive : k.Live later)
    (hle : now ≤ later) : k.Live now := ⟨hlive.1, Int.lt_of_le_of_lt hle hlive.2⟩

theorem mem_issued_of_latest {t : String} (ht : w.latest serverId = some t) :
    ∃ i ∈ w.issued, i.serverId = serverId ∧ i.plaintext = t := by
  obtain ⟨i, hi, rfl⟩ := Option.map_eq_some_iff.mp ht
  have hid := List.find?_some hi
  simp only [Bool.and_eq_true, decide_eq_true_eq] at hid
  exact ⟨i, List.mem_of_find?_eq_some hi, hid.1, rfl⟩

/-- A regenerated token is that of a server, with a row in its lab. -/
theorem Consistent.row_of_latest (hc : Consistent h w) {t : String}
    (ht : w.latest serverId = some t) :
    ∃ server, w.db.servers.get? serverId = some server ∧
      ∃ k ∈ w.db.tokens, k.tokenHash = h.sha256 t ∧ server.labId = k.labId := by
  obtain ⟨i, hi, rfl, rfl⟩ := mem_issued_of_latest ht
  obtain ⟨k, hk, hhash, server, hserver, hlab⟩ := hc.row i hi
  exact ⟨server, hserver, k, hk, hhash, hlab⟩

/-- The token that `authenticate_agent` looks up. -/
theorem Consistent.find?_eq_some_iff (hc : Consistent h w) {x : String} {labId : Nat}
    {k : EnrollmentToken} :
    (w.db.tokens.rows.find? fun k => k.tokenHash = h.sha256 x && k.labId = labId) = some k ↔
      k ∈ w.db.tokens ∧ k.tokenHash = h.sha256 x ∧ k.labId = labId := by
  constructor
  · intro hfind
    have hprop := List.find?_some hfind
    simp only [Bool.and_eq_true, decide_eq_true_eq] at hprop
    exact ⟨List.mem_of_find?_eq_some hfind, hprop⟩
  · rintro ⟨hk, hhash, hlab⟩
    cases hfind : w.db.tokens.rows.find? fun k => k.tokenHash = h.sha256 x && k.labId = labId with
    | none => simpa [hhash, hlab] using List.find?_eq_none.mp hfind k hk
    | some l =>
        have hprop := List.find?_some hfind
        simp only [Bool.and_eq_true, decide_eq_true_eq] at hprop
        rw [hc.unique l (List.mem_of_find?_eq_some hfind) k hk (hprop.1.trans hhash.symm)]

/-- No token has been used by a server that waits. -/
theorem Consistent.not_used (hc : Consistent h w) {server : Server}
    (hserver : w.db.servers.get? serverId = some server) (hnone : server.agentTokenHash = none)
    {k : EnrollmentToken} (hk : k ∈ w.db.tokens) : k.usedByServerId ≠ some serverId := by
  intro hused
  obtain ⟨server', hserver', hphoned⟩ := hc.user k hk serverId hused
  rw [hserver, Option.some.injEq] at hserver'
  exact hphoned (hserver' ▸ hnone)

/-! ## what a state accepts -/

/-- How an agent gets in. -/
theorem authenticateAgent_cases {db db' : Tables} {x salt : String}
    (hok : authenticateAgent h db serverId x salt now = .ok db') :
    ∃ server, db.servers.get? serverId = some server ∧
      ((∃ hash, server.agentTokenHash = some hash ∧ h.checkpw x hash = some true ∧ db' = db) ∨
        server.agentTokenHash = none ∧ ∃ token,
          (db.tokens.rows.find? fun k => k.tokenHash = h.sha256 x && k.labId = server.labId) =
            some token ∧ (token.usedAt = none ∨ token.usedByServerId = some serverId) ∧
          now < token.expiresAt ∧
          db' = ⟨db.servers.put { server with agentTokenHash := some (h.hashpw x salt) },
            db.tokens.put { token with usedAt := some now, usedByServerId := some serverId }⟩) := by
  cases hserver : db.servers.get? serverId with
  | none => simp [authenticateAgent, hserver] at hok
  | some server =>
      refine ⟨server, rfl, ?_⟩
      by_cases hactive : server.isActive = true
      · simp only [authenticateAgent, hserver] at hok
        rw [if_neg (by simp [hactive])] at hok
        cases hphoned : server.agentTokenHash with
        | some hash =>
            rw [hphoned] at hok
            cases hcheck : h.checkpw x hash with
            | none => simp [hcheck] at hok
            | some matched =>
                cases matched with
                | false => simp [hcheck] at hok
                | true =>
                    simp only [hcheck, Except.ok.injEq] at hok
                    exact Or.inl ⟨hash, rfl, hcheck, hok.symm⟩
        | none =>
            rw [hphoned] at hok
            cases hfind : db.tokens.rows.find? fun k =>
                k.tokenHash = h.sha256 x && k.labId = server.labId with
            | none => simp [hfind] at hok
            | some token =>
                simp only [hfind] at hok
                split at hok
                · cases hok
                · next hused =>
                    split at hok
                    · cases hok
                    · next hexpired =>
                        rw [Except.ok.injEq] at hok
                        refine Or.inr ⟨rfl, token, rfl, ?_, not_le.mp hexpired, hok.symm⟩
                        rw [← Option.not_isSome_iff_eq_none]
                        by_cases hsome : token.usedAt.isSome = true
                        · exact Or.inr (by simpa [hsome] using hused)
                        · exact Or.inl hsome
      · simp [authenticateAgent, hserver, hactive] at hok

/-- While the server waits, what gets in is a live token of the lab. -/
theorem Consistent.accepts_waiting (hc : Consistent h w) {server : Server}
    (hserver : w.db.servers.get? serverId = some server) (hnone : server.agentTokenHash = none)
    (x salt : String) (now : Time) :
    Accepts h w.db serverId x salt now ↔
      ∃ k ∈ w.db.tokens, k.tokenHash = h.sha256 x ∧ k.labId = server.labId ∧ k.Live now := by
  constructor
  · rintro ⟨db', hok⟩
    obtain ⟨server', hserver', ⟨hash, hsome, -⟩ | ⟨-, k, hfind, hused, hlate, -⟩⟩ :=
      authenticateAgent_cases hok
    · rw [hserver, Option.some.injEq] at hserver'
      rw [← hserver', hnone] at hsome
      cases hsome
    · rw [hserver, Option.some.injEq] at hserver'
      obtain ⟨hk, hhash, hlab⟩ := hc.find?_eq_some_iff.mp (hserver' ▸ hfind)
      exact ⟨k, hk, hhash, hlab, hused.resolve_right (hc.not_used hserver hnone hk), hlate⟩
  · rintro ⟨k, hk, hhash, hlab, hlive⟩
    have hactive := hc.active server (Table.mem_of_get? hserver)
    have hfind := hc.find?_eq_some_iff.mpr ⟨hk, hhash, hlab⟩
    exact ⟨⟨w.db.servers.put { server with agentTokenHash := some (h.hashpw x salt) },
      w.db.tokens.put { k with usedAt := some now, usedByServerId := some serverId }⟩, by
        simp only [authenticateAgent, hserver, hactive, hnone, Bool.not_true, Bool.false_eq_true,
          if_false, hfind, hlive.1, Option.isSome_none, Bool.false_and, not_le.mpr hlive.2]⟩

theorem accepts_enrolled {server : Server} {hash : String}
    (hserver : w.db.servers.get? serverId = some server) (hhash : server.agentTokenHash = some hash)
    {x salt : String} (haccepts : Accepts h w.db serverId x salt now) :
    IsAgentToken h w.db serverId x := by
  obtain ⟨db', hok⟩ := haccepts
  obtain ⟨server', hserver', ⟨hash', hsome, hcheck, -⟩ | ⟨hnone, -⟩⟩ := authenticateAgent_cases hok
  · exact ⟨server', hserver', hash', hsome, hcheck⟩
  · rw [hserver, Option.some.injEq] at hserver'
    rw [← hserver', hhash] at hnone
    cases hnone

/-- **The invariants make the promise.** -/
theorem tokenValidity_of_held (hinj : Function.Injective h.sha256) (hc : Consistent h w)
    (hheld : Held h serverId w) : TokenValidity h serverId w := by
  have haccepts : ∀ t, w.latest serverId = some t → ∀ now, w.now ≤ now → ∀ x salt,
      ¬ IsAgentToken h w.db serverId x →
        (Accepts h w.db serverId x salt now ↔ x = t ∧ Unspent h w.db t now) := by
    intro t ht now hle x salt hagent
    obtain ⟨server, hserver, k, hk, hhash, hlab⟩ := hc.row_of_latest ht
    cases hphoned : server.agentTokenHash with
    | some hash =>
        refine ⟨fun haccepts => absurd (accepts_enrolled hserver hphoned haccepts) hagent, ?_⟩
        rintro ⟨-, l, hl, hlhash, hlive⟩
        exact absurd (hlive.earlier hle)
          (hheld.enrolled server t hserver ht (by simp [hphoned]) l hl hlhash)
    | none =>
        rw [hc.accepts_waiting hserver hphoned]
        constructor
        · rintro ⟨l, hl, hlhash, hllab, hlive⟩
          have ht' := hheld.waiting server t hserver ht hphoned l hl hllab (hlive.earlier hle)
          exact ⟨hinj (hlhash.symm.trans ht'), l, hl, ht', hlive⟩
        · rintro ⟨rfl, l, hl, hlhash, hlive⟩
          obtain rfl := hc.unique l hl k hk (hlhash.trans hhash.symm)
          exact ⟨l, hl, hlhash, hlab.symm, hlive⟩
  refine ⟨haccepts, fun t ht now hle i hi hother salt hagent hin => ?_⟩
  have ht' := ((haccepts t ht now hle i.plaintext salt hagent).mp hin).1
  obtain ⟨j, hj, hserver, hplain⟩ := mem_issued_of_latest ht
  obtain rfl := hc.distinct i hi j hj (by rw [ht', hplain])
  exact hother hserver ht'

/-! ## one request -/

/-- What may become of a server. -/
def Kept (a b : Server) : Prop :=
  b.labId = a.labId ∧ (a.agentTokenHash ≠ none → b.agentTokenHash ≠ none)

theorem Kept.refl (a : Server) : Kept a a := ⟨rfl, id⟩

/-- What a request that succeeds does. -/
structure Advances (h : Host) (w w' : World) (user : Option Nat) (new : Option EnrollmentToken) :
    Prop where
  tokens : Grows w.db.tokens w'.db.tokens user new
  fresh : ∀ k, new = some k →
    k.usedByServerId = none ∧ ∀ l ∈ w.db.tokens, l.tokenHash ≠ k.tokenHash
  servers : Table.Extends Kept w.db.servers w'.db.servers
  active : ∀ server ∈ w'.db.servers, server.isActive = true
  user : ∀ id, user = some id →
    ∃ server, w'.db.servers.get? id = some server ∧ server.agentTokenHash ≠ none
  issued : w'.issued = w.issued ∨ ∃ i, w'.issued = i :: w.issued ∧ ∃ k ∈ w'.db.tokens,
    new = some k ∧ k.tokenHash = h.sha256 i.plaintext ∧
      ∃ server, w'.db.servers.get? i.serverId = some server ∧ server.labId = k.labId

section Advances

variable {user : Option Nat} {new : Option EnrollmentToken} (hadv : Advances h w w' user new)
include hadv

/-- A row that was there before is not the new one. -/
theorem Advances.later_of_hash {k k' : EnrollmentToken} (hk : k ∈ w.db.tokens)
    (hk' : k' ∈ w'.db.tokens) (hhash : k'.tokenHash = k.tokenHash) :
    ∃ l ∈ w.db.tokens, Later l k' := by
  rcases hadv.tokens.back k' hk' with hnew | ⟨l, hl, hlater, -⟩
  · exact absurd hhash.symm ((hadv.fresh k' hnew).2 k hk)
  · exact ⟨l, hl, hlater⟩

theorem Advances.consistent (hc : Consistent h w) : Consistent h w' := by
  have hrow : ∀ i ∈ w.issued, ∃ k ∈ w'.db.tokens, k.tokenHash = h.sha256 i.plaintext ∧
      ∃ server, w'.db.servers.get? i.serverId = some server ∧ server.labId = k.labId := by
    intro i hi
    obtain ⟨k, hk, hhash, server, hserver, hlab⟩ := hc.row i hi
    obtain ⟨k', hk', hlater⟩ := hadv.tokens.old k hk
    obtain ⟨server', hserver', hlab', -⟩ := hadv.servers _ server hserver
    exact ⟨k', hk', hlater.tokenHash.trans hhash, server', hserver',
      by rw [hlab', hlab, hlater.labId]⟩
  have hfresh : ∀ i ∈ w.issued, ∀ k, new = some k → k.tokenHash ≠ h.sha256 i.plaintext := by
    intro i hi k hk heq
    obtain ⟨l, hl, hhash, -⟩ := hc.row i hi
    exact (hadv.fresh k hk).2 l hl (hhash.trans heq.symm)
  constructor
  · intro k hk l hl hhash
    rcases hadv.tokens.back k hk with hnew | ⟨a, ha, hak, -⟩
    · rcases hadv.tokens.back l hl with hnew' | ⟨b, hb, hbl, -⟩
      · exact Option.some.inj (hnew.symm.trans hnew')
      · exact absurd (hbl.tokenHash.symm.trans hhash.symm) ((hadv.fresh k hnew).2 b hb)
    · obtain ⟨b, hb, hbl⟩ : ∃ b ∈ w.db.tokens, Later b l :=
        hadv.later_of_hash ha hl (hhash.symm.trans hak.tokenHash)
      have hab : a = b := hc.unique a ha b hb
        (hak.tokenHash.symm.trans (hhash.trans hbl.tokenHash))
      exact Table.eq_of_key_eq hk hl (hak.id.trans ((congrArg _ hab).trans hbl.id.symm))
  · intro k hk id hid
    rcases hadv.tokens.back k hk with hnew | ⟨a, ha, -, hsame | huser⟩
    · rw [(hadv.fresh k hnew).1] at hid
      cases hid
    · obtain ⟨server, hserver, hphoned⟩ := hc.user a ha id (hsame ▸ hid)
      obtain ⟨server', hserver', -, hkept⟩ := hadv.servers _ server hserver
      exact ⟨server', hserver', hkept hphoned⟩
    · exact hadv.user id (huser ▸ hid)
  · exact hadv.active
  · intro i hi
    rcases hadv.issued with hsame | ⟨j, hcons, k, hk, -, hhash, hserver⟩
    · exact hrow i (hsame ▸ hi)
    · rw [hcons, List.mem_cons] at hi
      rcases hi with rfl | hi
      · exact ⟨k, hk, hhash, hserver⟩
      · exact hrow i hi
  · intro i hi j hj heq
    rcases hadv.issued with hsame | ⟨l, hcons, k, -, hnew, hhash, -⟩
    · exact hc.distinct i (hsame ▸ hi) j (hsame ▸ hj) heq
    · rw [hcons, List.mem_cons] at hi hj
      rcases hi with rfl | hi <;> rcases hj with rfl | hj
      · rfl
      · exact absurd (hhash.trans heq) (hfresh j hj k hnew)
      · exact absurd (hhash.trans heq.symm) (hfresh i hi k hnew)
      · exact hc.distinct i hi j hj heq

end Advances

theorem createServer_cases {db db' : Tables} {labId id : Nat} {hostname plaintext : String}
    {pattern : Option String} (hok : createServer h db labId hostname pattern plaintext now =
      .ok (db', id)) :
    (∀ s ∈ db.servers.rows, s.labId = labId → h.collates s.hostname hostname = false) ∧
      id = db.servers.nextKey ∧
      db' = ⟨db.servers.append ⟨fun id => ⟨id, labId, hostname, true, none⟩, fun _ => rfl⟩,
        db.tokens.append (newToken h labId plaintext (patternOr pattern hostname) now)⟩ := by
  rw [createServer] at hok
  split at hok
  · cases hok
  · next hfree =>
      simp only [Except.ok.injEq, Prod.mk.injEq] at hok
      refine ⟨fun s hs hlab => ?_, hok.2.symm, hok.1.symm⟩
      simp only [List.any_eq_true, Bool.and_eq_true, decide_eq_true_eq, not_exists, not_and] at hfree
      simpa using hfree s hs hlab

theorem regenerate_cases {db db' : Tables} {id labId : Nat} {plaintext : String}
    {revoked : List Nat} (hok : regenerateEnrollmentToken h db id labId plaintext now =
      .ok (db', revoked)) :
    ∃ server, db.servers.get? id = some server ∧ server.labId = labId ∧ server.isActive = true ∧
      db' = ⟨db.servers, (revokePrior h server db.tokens now).append
        (newToken h labId plaintext server.hostname now)⟩ := by
  rw [regenerateEnrollmentToken] at hok
  cases hserver : db.servers.get? id with
  | none => simp [hserver] at hok
  | some server =>
      simp only [hserver] at hok
      split at hok
      · cases hok
      · next hlab =>
          split at hok
          · cases hok
          · next hactive =>
              simp only [Except.ok.injEq, Prod.mk.injEq] at hok
              exact ⟨server, rfl, not_not.mp hlab, by simpa using hactive, hok.1.symm⟩

theorem Held.later (hheld : Held h serverId w) (hle : w.now ≤ now) :
    Held h serverId { w with now := now } :=
  ⟨fun server t hserver ht hnone k hk hlab hlive =>
      hheld.waiting server t hserver ht hnone k hk hlab (hlive.earlier hle),
    fun server t hserver ht hphoned k hk hhash hlive =>
      hheld.enrolled server t hserver ht hphoned k hk hhash (hlive.earlier hle)⟩

/-- A request that is not for the server, and gives out no token in its lab while it waits. -/
theorem Advances.held {user : Option Nat} {new : Option EnrollmentToken}
    (hadv : Advances h w w' user new) (hc : Consistent h w) (hheld : Held h serverId w)
    (hle : w.now ≤ w'.now) (hlatest : w'.latest serverId = w.latest serverId)
    (hsame : ∀ server, w.db.servers.get? serverId = some server →
      w'.db.servers.get? serverId = some server)
    (hnew : ∀ k, new = some k → w.waits serverId k.labId = false) : Held h serverId w' := by
  have hbefore : ∀ server t, w'.db.servers.get? serverId = some server →
      w'.latest serverId = some t → w.db.servers.get? serverId = some server ∧
        w.latest serverId = some t ∧ ∃ k ∈ w.db.tokens, k.tokenHash = h.sha256 t := by
    intro server t hserver ht
    rw [hlatest] at ht
    obtain ⟨server', hserver', k, hk, hhash, -⟩ := hc.row_of_latest ht
    rw [hsame server' hserver', Option.some.injEq] at hserver
    exact ⟨hserver ▸ hserver', ht, k, hk, hhash⟩
  constructor
  · intro server t hserver ht hnone k hk hlab hlive
    obtain ⟨hserver, ht, -⟩ := hbefore server t hserver ht
    rcases hadv.tokens.back k hk with hisnew | ⟨l, hl, hlater, -⟩
    · have hwaits := hnew k hisnew
      simp [World.waits, ht, hserver, hlab, hnone] at hwaits
    · rw [hlater.tokenHash]
      exact hheld.waiting server t hserver ht hnone l hl (hlater.labId.symm.trans hlab)
        ((hlater.live _ hlive).earlier hle)
  · intro server t hserver ht hphoned k hk hhash hlive
    obtain ⟨hserver, ht, l, hl, hlhash⟩ := hbefore server t hserver ht
    obtain ⟨a, ha, hlater⟩ := hadv.later_of_hash hl hk (hhash.trans hlhash.symm)
    exact hheld.enrolled server t hserver ht hphoned a ha (hlater.tokenHash.symm.trans hhash)
      ((hlater.live _ hlive).earlier hle)

/-- The world after a token has been given out. -/
def World.issue (w : World) (now : Time) (db : Tables) (i : Issued) : World :=
  ⟨now, db, i :: w.issued⟩

theorem advances_create (hc : Consistent h w) (now : Time) (labId : Nat)
    (hostname pattern : String) {plaintext : String}
    (hdrawn : ∀ k ∈ w.db.tokens.rows, k.tokenHash ≠ h.sha256 plaintext) :
    Advances h w
      (w.issue now ⟨w.db.servers.append ⟨fun id => ⟨id, labId, hostname, true, none⟩, fun _ => rfl⟩,
        w.db.tokens.append (newToken h labId plaintext pattern now)⟩
        ⟨w.db.servers.nextKey, plaintext, false⟩)
      none (some ((newToken h labId plaintext pattern now).1 w.db.tokens.nextKey)) where
  tokens := (grows_refl _).append _
  fresh := fun k hk => Option.some.inj hk ▸ ⟨rfl, hdrawn⟩
  servers := Table.extends_append Kept.refl _ _
  active := by
    intro server hserver
    simp only [World.issue, Table.mem_def, Table.rows_append, List.mem_append,
      List.mem_singleton] at hserver
    rcases hserver with hserver | rfl
    · exact hc.active server hserver
    · rfl
  user := by simp
  issued := by
    refine Or.inr ⟨_, rfl, _, ?_, rfl, rfl, ⟨w.db.servers.nextKey, labId, hostname, true, none⟩,
      ?_, rfl⟩
    · simp [World.issue, Table.mem_def]
    · rw [Table.get?_eq_some_iff]
      exact ⟨by simp [World.issue, Table.mem_def], rfl⟩

theorem advances_regenerate (hc : Consistent h w) (now : Time) {server : Server}
    {plaintext : String} (hserver : w.db.servers.get? serverId = some server)
    (hdrawn : ∀ k ∈ w.db.tokens.rows, k.tokenHash ≠ h.sha256 plaintext) :
    Advances h w
      (w.issue now ⟨w.db.servers, (revokePrior h server w.db.tokens now).append
        (newToken h server.labId plaintext server.hostname now)⟩ ⟨serverId, plaintext, true⟩)
      none (some ((newToken h server.labId plaintext server.hostname now).1
        (revokePrior h server w.db.tokens now).nextKey)) where
  tokens := (grows_revoke h server _ now).append _
  fresh := fun k hk => Option.some.inj hk ▸ ⟨rfl, hdrawn⟩
  servers := Table.extends_refl Kept.refl _
  active := hc.active
  user := by simp
  issued := Or.inr ⟨_, rfl, _, by simp [World.issue, Table.mem_def], rfl, rfl, server, hserver, rfl⟩

theorem advances_phoneHome (hc : Consistent h w) (now : Time) (hash : String) {server : Server}
    {token : EnrollmentToken} (hserver : w.db.servers.get? serverId = some server)
    (htoken : token ∈ w.db.tokens) :
    Advances h w
      { w with
        now := now
        db := ⟨w.db.servers.put { server with agentTokenHash := some hash },
          w.db.tokens.put { token with usedAt := some now, usedByServerId := some serverId }⟩ }
      (some serverId) none where
  tokens := grows_use htoken serverId
  fresh := by simp
  servers := by
    have hold : w.db.servers.get? server.id = some server :=
      Table.get?_key (Table.mem_of_get? hserver)
    exact Table.extends_put Kept.refl hold ⟨rfl, by simp⟩
  active := by
    intro s hs
    rcases Table.mem_put hs with rfl | hs
    · exact hc.active server (Table.mem_of_get? hserver)
    · exact hc.active s hs
  user := by
    intro id hid
    obtain rfl := Option.some.inj hid
    refine ⟨{ server with agentTokenHash := some hash }, ?_, by simp⟩
    have hkey : server.id = serverId := Table.key_of_get? hserver
    subst hkey
    exact Table.get?_put_self hserver
  issued := Or.inl rfl

/-- **A regeneration** for a server that has not phoned home leaves its token the only live one. -/
theorem held_regenerate {server : Server} {plaintext : String}
    (hserver : w.db.servers.get? serverId = some server) (hnone : server.agentTokenHash = none)
    (hscoped : ∀ k ∈ w.db.tokens.rows, k.labId = server.labId → k.Live now →
      k.expectedHostnamePattern.any (h.collates · server.hostname) = true) :
    Held h serverId (w.issue now ⟨w.db.servers, (revokePrior h server w.db.tokens now).append
      (newToken h server.labId plaintext server.hostname now)⟩ ⟨serverId, plaintext, true⟩) := by
  have hlatest : (w.issue now ⟨w.db.servers, (revokePrior h server w.db.tokens now).append
      (newToken h server.labId plaintext server.hostname now)⟩
      ⟨serverId, plaintext, true⟩).latest serverId = some plaintext := by
    simp [World.latest, World.issue]
  constructor
  · intro server' t hserver' ht _ k hk hlab hlive
    obtain rfl := Option.some.inj (hserver.symm.trans hserver')
    obtain rfl := Option.some.inj (hlatest.symm.trans ht)
    simp only [World.issue, Table.mem_def, Table.rows_append, List.mem_append,
      List.mem_singleton] at hk
    rcases hk with hk | rfl
    · obtain ⟨l, hl, rfl⟩ := Table.mem_mapRows.mp hk
      by_cases hrevoked : l.isRevoked h server now = true
      · rw [if_pos hrevoked] at hlive
        exact absurd hlive.2 (Int.lt_irrefl _)
      · -- a token that is still live would have been revoked
        rw [if_neg hrevoked] at hlab hlive
        refine absurd ?_ hrevoked
        simp only [World.issue] at hlive
        simp [EnrollmentToken.isRevoked, hlab, hscoped l hl hlab hlive, hlive.1, hlive.2]
    · rfl
  · intro server' t hserver' _ hphoned
    obtain rfl := Option.some.inj (hserver.symm.trans hserver')
    exact absurd hnone hphoned

/-- **The agent's first connection** spends the token that waited. -/
theorem held_phoneHome (hc : Consistent h w) (hheld : Held h serverId w) (hle : w.now ≤ now)
    {server : Server} {token : EnrollmentToken} {hash : String}
    (hserver : w.db.servers.get? serverId = some server) (hnone : server.agentTokenHash = none)
    (htoken : token ∈ w.db.tokens) (hlab : token.labId = server.labId) (hlive : token.Live now) :
    Held h serverId
      { w with
        now := now
        db := ⟨w.db.servers.put { server with agentTokenHash := some hash },
          w.db.tokens.put { token with usedAt := some now, usedByServerId := some serverId }⟩ } := by
  have hkey : server.id = serverId := Table.key_of_get? hserver
  subst hkey
  have hnow : (w.db.servers.put { server with agentTokenHash := some hash }).get? server.id =
      some { server with agentTokenHash := some hash } := Table.get?_put_self hserver
  constructor
  · intro server' t hserver' _ hnone'
    obtain rfl := Option.some.inj (hnow.symm.trans hserver')
    cases hnone'
  · intro server' t _ ht _ k hk hhash hklive
    have hspent := hheld.waiting server t hserver ht hnone token htoken hlab (hlive.earlier hle)
    rcases Table.mem_put_or hk with rfl | ⟨hk, hne⟩
    · exact absurd hklive.1 (by simp)
    · have hsame : k = token := hc.unique k hk token htoken (hhash.trans hspent.symm)
      exact hne (show k.id = token.id from congrArg EnrollmentToken.id hsame)

/-- **A request** that meets the condition keeps the invariants. -/
theorem held_step (hc : Consistent h w) (hheld : Held h serverId w) (hok : Scoped h serverId w q)
    (hstep : step h w q = some w') : Consistent h w' ∧ Held h serverId w' := by
  obtain ⟨now, request⟩ := q
  rw [step] at hstep
  split at hstep
  · next hguard =>
      obtain ⟨hle, hdrawn⟩ := hguard
      obtain rfl := Option.some.inj hstep
      have hfailed : Consistent h { w with now := now } ∧ Held h serverId { w with now := now } :=
        ⟨⟨hc.unique, hc.user, hc.active, hc.row, hc.distinct⟩, hheld.later hle⟩
      cases request with
      | create labId hostname pattern plaintext =>
          simp only [answer]
          cases hresult : createServer h w.db labId hostname pattern plaintext now with
          | error e => exact hfailed
          | ok result =>
              obtain ⟨db, id⟩ := result
              obtain ⟨hfree, rfl, rfl⟩ := createServer_cases hresult
              have hadv := advances_create hc now labId hostname (patternOr pattern hostname)
                (hdrawn plaintext rfl)
              refine ⟨hadv.consistent hc, hadv.held hc hheld hle ?_ ?_ ?_⟩
              · simp [World.latest, World.issue]
              · exact fun server hserver => Table.get?_append hserver
              · exact fun k hk => Option.some.inj hk ▸ hok hfree
      | regenerate id labId plaintext =>
          simp only [answer]
          cases hresult : regenerateEnrollmentToken h w.db id labId plaintext now with
          | error e => exact hfailed
          | ok result =>
              obtain ⟨db, revoked⟩ := result
              obtain ⟨server, hserver, rfl, hactive, rfl⟩ := regenerate_cases hresult
              have hadv := advances_regenerate hc now hserver (hdrawn plaintext rfl)
              have hcond := hok server hserver rfl hactive
              by_cases hid : id = serverId
              · subst hid
                rw [if_pos rfl] at hcond
                exact ⟨hadv.consistent hc, held_regenerate hserver hcond.1 hcond.2⟩
              · rw [if_neg hid] at hcond
                refine ⟨hadv.consistent hc, hadv.held hc hheld hle ?_ ?_ ?_⟩
                · simp [World.latest, World.issue, hid]
                · exact fun server hserver => hserver
                · exact fun k hk => Option.some.inj hk ▸ hcond
      | phoneHome id plaintextToken salt =>
          simp only [answer]
          cases hresult : authenticateAgent h w.db id plaintextToken salt now with
          | error e => exact hfailed
          | ok db =>
              obtain ⟨server, hserver, ⟨hash, -, -, rfl⟩ | ⟨hnone, token, hfind, hused, hlate, rfl⟩⟩ :=
                authenticateAgent_cases hresult
              · exact hfailed
              · obtain ⟨htoken, hhash, hlab⟩ := hc.find?_eq_some_iff.mp hfind
                have hadv := advances_phoneHome hc now (h.hashpw plaintextToken salt) hserver htoken
                refine ⟨hadv.consistent hc, ?_⟩
                by_cases hid : id = serverId
                · subst hid
                  have hunused := hused.resolve_right (hc.not_used hserver hnone htoken)
                  exact held_phoneHome hc hheld hle hserver hnone htoken hlab ⟨hunused, hlate⟩
                · refine hadv.held hc hheld hle rfl (fun s hs => ?_) (by simp)
                  have hkey : server.id = id := Table.key_of_get? hserver
                  exact (Table.get?_put_ne (by rw [← hkey] at hid; exact hid)).trans hs
  · cases hstep

theorem consistent_start (h : Host) : Consistent h .start := by
  constructor <;> simp [World.start, Table.empty, Table.mem_def]

theorem held_start (h : Host) (serverId : Nat) : Held h serverId .start := by
  constructor <;> simp [World.start]

end Runs

/-- A host on which a hash is the text itself and texts are compared as they are. -/
def plainHost : Host := ⟨id, fun x _ => x, fun x hash => some (decide (x = hash)), fun a b => a = b⟩

end EnrollmentTokens

end CoreLab
