import CoreLab.GroupCancel
import CoreLab.Lib.Transactions
import Mathlib.Data.List.Infix

/-!
# CoreLab.SetupService

The setup wizard: `initialize` counts the labs in its snapshot, and if there are
none inserts the lab, its URLs and the first admin, in one transaction.

* `drafts_own` — what an unfinished request has inserted: its lab and its admin;
* `installed_run` — at most one request installs a lab and the others leave
  nothing, as long as overlapping requests choose one slug.
-/

namespace CoreLab

open Relational Transition Transactions

namespace SetupService

/-! ## slugs -/

/-- `str.lower`, up to the letters outside of ASCII; two of those, the Kelvin sign and a
dotted capital, have one of ASCII among their lower-case letters. -/
def lower (c : Char) : List Char :=
  if c = '\u212a' then ['k'] else if c = 'İ' then ['i', '\u0307'] else [c.toLower]

def lowerText (s : String) : List Char := s.toList.flatMap lower

/-- `re.sub(r"[^a-zA-Z0-9]+", "-", …)`. -/
def hyphenate : List Char → List Char
  | [] => []
  | c :: cs =>
    if c.isAlphanum then c :: hyphenate cs
    else match hyphenate cs with
      | '-' :: rest => '-' :: rest
      | rest => '-' :: rest

/-- `strip("-")`. -/
def stripHyphens (cs : List Char) : List Char :=
  ((cs.dropWhile (· = '-')).reverse.dropWhile (· = '-')).reverse

/-- `derive_slug`; `token` is what `secrets.token_hex(4)` returns. -/
def deriveSlug (labName token : String) : String :=
  let cleaned := stripHyphens (hyphenate (lowerText labName))
  let cleaned := match cleaned with
    | c :: _ => if c.isAlpha then cleaned else "lab-".toList ++ cleaned
    | [] => []
  let cleaned := cleaned.take 50
  if cleaned.length < 2 then "lab-" ++ token else String.ofList cleaned

example : deriveSlug "3D Vision – Group" "00ff00ff" = "lab-3d-vision-group" := by decide +kernel

/-! ## URLs -/

structure UrlEntry where
  url : String
  kind : String
  source : String
  verifiedAt : Option String := none
  lastReachableAt : Option String := none
  primary : Bool := false
deriving DecidableEq, Repr

/-- `VALID_KINDS`. -/
def validKinds : List String :=
  ["lan", "public_ip", "custom_domain", "cloudflare_quick", "cloudflare_named"]

/-- `VALID_SOURCES`. -/
def validSources : List String := ["install_sh_probe", "manual_admin", "tunnel_runtime"]

/-- The end of `_load_seed_urls`: the first entry is primary if none is. -/
def markPrimary : List UrlEntry → List UrlEntry
  | [] => []
  | e :: es => if (e :: es).any (·.primary) then e :: es else { e with primary := true } :: es

/-- `_fallback_seed_url`. -/
def fallbackSeedUrl (backendPublicUrl : String) : List UrlEntry :=
  if backendPublicUrl = "" then []
  else
    let lowered := lowerText backendPublicUrl
    let kind :=
      if "localhost".toList <:+: lowered ∨ "127.0.0.1".toList <:+: lowered then "lan"
      else "public_ip"
    [{ url := backendPublicUrl, kind := kind, source := "install_sh_probe", primary := true }]

/-- The checks of `replace_all`. -/
def replaceable (entries : List UrlEntry) : Bool :=
  entries.all fun e => e.kind ∈ validKinds && e.source ∈ validSources

/-! ## rows -/

structure Lab where
  id : Nat
  name : String
  slug : String
  publicUrls : List UrlEntry := []
deriving DecidableEq, Repr

structure User where
  id : Nat
  labId : Nat
  username : String
  email : String
  displayName : String
  role : UserRole
  passwordHash : Option String
  isActive : Bool
deriving DecidableEq, Repr

/-- Labs stand under their unique slug; users have the entries of two unique indexes. -/
inductive Key where
  | lab (slug : String)
  | user (id : Nat)
  | username (labId : Nat) (username : String)
  | email (labId : Nat) (email : String)
deriving DecidableEq, Repr

inductive Row where
  | lab (l : Lab)
  | user (u : User)
  | entry (id : Nat)
deriving DecidableEq, Repr

abbrev Rows := Dict Key Row

def Row.lab? : Row → Option Lab
  | lab l => some l
  | user _ | entry _ => none

/-- `is_initialized`. -/
def isInitialized (rows : Rows) : Bool := rows.entries.any fun e => e.2.lab?.isSome

/-! ## requests -/

/-- `SetupInitRequest`, with the hash of the password. -/
structure Payload where
  labName : String
  labSlug : Option String
  adminUsername : String
  adminEmail : String
  adminDisplayName : String
  passwordHash : String
deriving DecidableEq, Repr

/-- `payload.lab_slug or derive_slug(payload.lab_name)`. -/
def Payload.slug (p : Payload) (token : String) : String :=
  p.labSlug.getD (deriveSlug p.labName token)

/-- A lab under way: the request, its slug and the keys that the database gives out. -/
structure Founding where
  payload : Payload
  slug : String
  labId : Nat
  userId : Nat
deriving DecidableEq, Repr

namespace Founding

def lab (f : Founding) : Lab := { id := f.labId, name := f.payload.labName, slug := f.slug }

def admin (f : Founding) : User :=
  { id := f.userId, labId := f.labId, username := f.payload.adminUsername
    email := f.payload.adminEmail, displayName := f.payload.adminDisplayName
    role := .labAdmin, passwordHash := some f.payload.passwordHash, isActive := true }

/-- The keys of its rows. -/
def keys (f : Founding) : List Key :=
  [.lab f.slug, .user f.userId, .username f.labId f.payload.adminUsername,
   .email f.labId f.payload.adminEmail]

end Founding

/-- Where a request is; inserting a user writes its index entries after its row. -/
inductive Phase where
  | received (p : Payload)
  | labAdded (f : Founding)
  | urlsReplaced (f : Founding)
  | userAdded (f : Founding)
  | usernameAdded (f : Founding)
  | emailAdded (f : Founding)
  /-- Committed. -/
  | initialized (f : Founding)
  | refused
deriving DecidableEq, Repr

/-- What a request learns: the keys of its rows and a random token; the URLs that
`install.sh` left in Redis. -/
inductive Input where
  | fresh (labId userId : Nat) (token : String)
  | seeds (entries : List UrlEntry)
  | proceed
deriving DecidableEq, Repr

/-- The lab row with its URLs. -/
def setUrls (entries : List UrlEntry) : Row → Row
  | .lab l => .lab { l with publicUrls := entries }
  | r => r

/-- The steps of `initialize`. -/
def next (backendPublicUrl : String) : Phase → Rows → Input → Option (Op Key Row Phase)
  | .received p, rows, .fresh labId userId token =>
    -- `AlreadyInitializedError`
    if isInitialized rows then some (.commit .refused)
    else
      let f : Founding := ⟨p, p.slug token, labId, userId⟩
      some (.insert (.lab f.slug) (.lab f.lab) (.labAdded f))
  | .labAdded f, _, .seeds entries =>
    let seeds := markPrimary entries
    let seeds := if seeds.isEmpty then fallbackSeedUrl backendPublicUrl else seeds
    if seeds.isEmpty then some (.goto (.urlsReplaced f))
    else if replaceable seeds then some (.update (.lab f.slug) (setUrls seeds) (.urlsReplaced f))
    else some .rollback
  | .urlsReplaced f, _, .proceed => some (.insert (.user f.userId) (.user f.admin) (.userAdded f))
  | .userAdded f, _, .proceed =>
    some (.insert (.username f.labId f.payload.adminUsername) (.entry f.userId) (.usernameAdded f))
  | .usernameAdded f, _, .proceed =>
    some (.insert (.email f.labId f.payload.adminEmail) (.entry f.userId) (.emailAdded f))
  | .emailAdded f, _, .proceed => some (.commit (.initialized f))
  | _, _, _ => none

abbrev System := Transactions.System Key Row Phase

abbrev Tx := Transactions.Tx Key Row Phase

def program (backendPublicUrl : String) : Program Key Row Phase Payload Input :=
  ⟨.received, next backendPublicUrl⟩

/-- One step. -/
def step (backendPublicUrl : String) : System → Action Payload Input → Option System :=
  System.step (program backendPublicUrl)

/-! ## the property and its condition -/

/-- The slug of a lab row. -/
def Row.slug? (r : Row) : Option String := r.lab?.map (·.slug)

/-- The slugs of the labs that are there, committed or not. -/
def slugsInSight (sys : System) : List String :=
  (sys.rows.entries ++ sys.txs.flatMap fun tx => tx.written.entries).filterMap (·.2.slug?)

/-- A request that inserts its lab has the slug of every lab that is there by then. -/
def SameSlug (sys : System) : Action Payload Input → Prop
  | .turn i (.fresh _ _ token) => sys.txs[i]?.all (fun tx =>
      match tx.phase with
      | .received p => isInitialized tx.view || (slugsInSight sys).all (· = p.slug token)
      | _ => true) = true
  | _ => True

instance (sys : System) : ∀ a, Decidable (SameSlug sys a)
  | .turn _ (.fresh ..) => inferInstanceAs (Decidable (_ = _))
  | .turn _ (.seeds _) | .turn _ .proceed | .start _ | .kill _ => .isTrue True.intro

/-- The rows of a lab with its first admin are there, and no others are new. -/
structure Adds (rows rows' : Rows) (f : Founding) : Prop where
  lab : ∃ l, rows'.get? (.lab f.slug) = some (.lab l) ∧ l.id = f.labId ∧ l.slug = f.slug
  admin : ∃ u, rows'.get? (.user f.userId) = some (.user u) ∧ u.labId = f.labId ∧
    u.role = .labAdmin ∧ u.isActive = true
  others : ∀ k, k ∉ f.keys → rows'.get? k = rows.get? k

/-- Nothing is installed beside what was there, or one request has installed a lab. -/
inductive Installed (rows : Rows) (sys : System) : Prop where
  | nothing (hrows : sys.rows = rows)
      (hnone : ∀ (i : Nat) (tx : Tx) f, sys.txs[i]? = some tx → tx.phase ≠ .initialized f)
  | one (i : Nat) (tx : Tx) (f : Founding) (hi : sys.txs[i]? = some tx)
      (hphase : tx.phase = .initialized f)
      (hone : ∀ (j : Nat) (u : Tx) g, sys.txs[j]? = some u → u.phase = .initialized g → j = i)
      (hadds : Adds rows sys.rows f)

/-- The start: no request yet, and labs stand under their slugs. -/
def Started (sys : System) : Prop :=
  sys.txs = [] ∧ ∀ e ∈ sys.rows.entries, ∀ slug ∈ e.2.slug?, e.1 = .lab slug

/-! ## what an unfinished request has inserted -/

/-- Its lab, under a lock, and rows under its own keys only. -/
structure HasLab (tx : Tx) (f : Founding) : Prop where
  lab : ∃ l, tx.written.get? (.lab f.slug) = some (.lab l) ∧ l.id = f.labId ∧ l.slug = f.slug
  locked : .lab f.slug ∈ tx.locks
  others : ∀ k, k ∉ f.keys → tx.written.get? k = none
  slugs : ∀ k r, tx.written.get? k = some r → ∀ slug ∈ r.slug?, k = .lab slug

/-- Its admin. -/
def HasAdminRow (tx : Tx) (f : Founding) : Prop :=
  ∃ u, tx.written.get? (.user f.userId) = some (.user u) ∧ u.labId = f.labId ∧
    u.role = .labAdmin ∧ u.isActive = true

/-- The lab that a request is about to install. -/
def Phase.founding? : Phase → Option Founding
  | labAdded f | urlsReplaced f | userAdded f | usernameAdded f | emailAdded f => some f
  | received _ | initialized _ | refused => none

/-- What holds of a request, by its phase. -/
def Drafts (tx : Tx) (_ : Rows) : Prop :=
  match tx.phase with
  | .received _ => tx.written = .empty
  | .labAdded f | .urlsReplaced f => HasLab tx f
  | .userAdded f | .usernameAdded f | .emailAdded f => HasLab tx f ∧ HasAdminRow tx f
  | .initialized _ | .refused => False

section Steps

variable {url : String} {tx tx' : Tx} {f : Founding} {sys sys' : System} {rows : Rows}

/-- The rows of a request go under its own keys. -/
theorem HasLab.insert (h : HasLab tx f) {k : Key} {r : Row} (hk : k ∈ f.keys)
    (hlab : k ≠ .lab f.slug) (hslug : r.slug? = none) (p : Phase) : HasLab (tx.write k r p) f := by
  have hget : ∀ j, (tx.write k r p).written.get? j = if j = k then some r else tx.written.get? j :=
    fun j => Dict.get?_set ..
  refine ⟨?_, List.mem_cons_of_mem k h.locked, fun j hj => ?_, fun j r' hr' slug hs => ?_⟩
  · obtain ⟨l, hl, hids⟩ := h.lab
    exact ⟨l, by rw [hget, if_neg (Ne.symm hlab), hl], hids⟩
  · rw [hget, if_neg (by rintro rfl; exact hj hk)]
    exact h.others j hj
  · rw [hget] at hr'
    split at hr'
    · obtain rfl := Option.some.inj hr'
      rw [hslug] at hs
      cases hs
    · exact h.slugs j r' hr' slug hs

theorem HasAdminRow.insert (h : HasAdminRow tx f) {k : Key} {r : Row} (hk : k ≠ .user f.userId)
    (p : Phase) : HasAdminRow (tx.write k r p) f := by
  obtain ⟨u, hu, hrole⟩ := h
  exact ⟨u, (Dict.get?_set ..).trans ((if_neg (Ne.symm hk)).trans hu), hrole⟩

/-- The first row of a request is its lab. -/
theorem hasLab_first (hempty : tx.written = .empty) (f : Founding) (p : Phase) :
    HasLab (tx.write (.lab f.slug) (.lab f.lab) p) f := by
  have hget : ∀ j, (tx.write (.lab f.slug) (.lab f.lab) p).written.get? j =
      if j = .lab f.slug then some (.lab f.lab) else none := by
    intro j
    rw [Tx.write, Dict.get?_set, hempty, Dict.get?_empty]
  refine ⟨⟨f.lab, by rw [hget, if_pos rfl], rfl, rfl⟩, List.mem_cons_self, fun j hj => ?_,
    fun j r hr slug hs => ?_⟩
  · rw [hget, if_neg (by rintro rfl; exact hj List.mem_cons_self)]
  · rw [hget] at hr
    split at hr
    · next hj =>
        obtain rfl := Option.some.inj hr
        obtain rfl := Option.some.inj hs
        exact hj
    · cases hr

/-- The URLs are set on the lab row. -/
theorem HasLab.setUrls (h : HasLab tx f) {r : Row} (hr : tx.current rows (.lab f.slug) = some r)
    (entries : List UrlEntry) (p : Phase) :
    HasLab (tx.write (.lab f.slug) (SetupService.setUrls entries r) p) f := by
  obtain ⟨l, hl, hid, hslug⟩ := h.lab
  rw [Tx.current, hl, Option.some_or] at hr
  obtain rfl := Option.some.inj hr
  have hget : ∀ j, (tx.write (.lab f.slug) (SetupService.setUrls entries (.lab l)) p).written.get? j =
      if j = .lab f.slug then some (.lab { l with publicUrls := entries }) else tx.written.get? j :=
    fun j => Dict.get?_set ..
  refine ⟨⟨{ l with publicUrls := entries }, by rw [hget, if_pos rfl], hid, hslug⟩,
    List.mem_cons_of_mem _ h.locked, fun j hj => ?_, fun j r' hr' slug hs => ?_⟩
  · rw [hget, if_neg (by rintro rfl; exact hj List.mem_cons_self)]
    exact h.others j hj
  · rw [hget] at hr'
    split at hr'
    · next hj =>
        obtain rfl := Option.some.inj hr'
        obtain rfl := Option.some.inj hs
        rw [hj, ← hslug]
    · exact h.slugs j r' hr' slug hs

/-- **An unfinished request** has inserted its own rows only. -/
theorem drafts_own {input : Input} {op : Op Key Row Phase} (h : Drafts tx rows)
    (hop : next url tx.phase tx.view input = some op) (hafter : tx.after rows op = some tx') :
    Drafts tx' rows := by
  unfold Drafts at h
  cases hphase : tx.phase with
  | received p =>
      simp only [hphase] at h hop
      cases input with
      | fresh labId userId token =>
          simp only [next] at hop
          split at hop
          · obtain rfl := Option.some.inj hop
            cases hafter
          · obtain rfl := Option.some.inj hop
            obtain ⟨-, rfl⟩ := Tx.after_insert hafter
            exact hasLab_first h ⟨p, p.slug token, labId, userId⟩ _
      | seeds entries | proceed => cases hop
  | labAdded f =>
      simp only [hphase] at h hop
      cases input with
      | seeds entries =>
          simp only [next] at hop
          generalize (if (markPrimary entries).isEmpty then fallbackSeedUrl url
            else markPrimary entries) = seeds at hop
          split at hop
          · obtain rfl := Option.some.inj hop
            obtain rfl := Option.some.inj hafter
            exact ⟨h.lab, h.locked, h.others, h.slugs⟩
          · split at hop
            · obtain rfl := Option.some.inj hop
              obtain ⟨r, hr, rfl⟩ := Tx.after_update hafter
              exact h.setUrls hr _ _
            · obtain rfl := Option.some.inj hop
              cases hafter
      | fresh labId userId token | proceed => cases hop
  | urlsReplaced f =>
      simp only [hphase] at h hop
      cases input with
      | proceed =>
          obtain rfl := Option.some.inj hop
          obtain ⟨-, rfl⟩ := Tx.after_insert hafter
          refine ⟨h.insert (by simp [Founding.keys]) (by simp) rfl _, f.admin, ?_, rfl, rfl, rfl⟩
          exact (Dict.get?_set ..).trans (if_pos rfl)
      | fresh labId userId token | seeds entries => cases hop
  | userAdded f =>
      simp only [hphase] at h hop
      cases input with
      | proceed =>
          obtain rfl := Option.some.inj hop
          obtain ⟨-, rfl⟩ := Tx.after_insert hafter
          exact ⟨h.1.insert (by simp [Founding.keys]) (by simp) rfl _, h.2.insert (by simp) _⟩
      | fresh labId userId token | seeds entries => cases hop
  | usernameAdded f =>
      simp only [hphase] at h hop
      cases input with
      | proceed =>
          obtain rfl := Option.some.inj hop
          obtain ⟨-, rfl⟩ := Tx.after_insert hafter
          exact ⟨h.1.insert (by simp [Founding.keys]) (by simp) rfl _, h.2.insert (by simp) _⟩
      | fresh labId userId token | seeds entries => cases hop
  | emailAdded f =>
      simp only [hphase] at hop
      cases input with
      | proceed =>
          obtain rfl := Option.some.inj hop
          cases hafter
      | fresh labId userId token | seeds entries => cases hop
  | initialized f | refused => simp only [hphase] at h

/-! ## one lab -/

/-- A request of the setup is done with a lab, or not. -/
theorem Installed.set {i : Nat} (h : Installed rows sys) (hi : sys.txs[i]? = some tx)
    (hold : ∀ f, tx.phase ≠ .initialized f) (hnew : ∀ f, tx'.phase ≠ .initialized f) :
    Installed rows (sys.set i tx') := by
  have hget := get?_set hi tx'
  cases h with
  | nothing hrows hnone =>
      refine .nothing hrows fun j u g hj => ?_
      rw [System.set, hget] at hj
      split at hj
      · exact Option.some.inj hj ▸ hnew g
      · exact hnone j u g hj
  | one j u f hj hphase hone hadds =>
      have hne : j ≠ i := by
        rintro rfl
        obtain rfl := Option.some.inj (hi.symm.trans hj)
        exact hold f hphase
      refine .one j u f ((hget j).trans ((if_neg hne).trans hj)) hphase (fun l v g hl hg => ?_) hadds
      rw [System.set, hget] at hl
      split at hl
      · obtain rfl := Option.some.inj hl
        exact absurd hg (hnew g)
      · exact hone l v g hl hg

/-- While a request founds a lab there is none yet, and no other request does so. -/
structure Alone (sys : System) : Prop where
  free : ∀ (i : Nat) (tx : Tx), sys.txs[i]? = some tx → tx.live = true →
    tx.phase.founding?.isSome → isInitialized sys.rows = false
  single : ∀ (i j : Nat) (tx u : Tx), sys.txs[i]? = some tx → sys.txs[j]? = some u →
    tx.live = true → u.live = true → tx.phase.founding?.isSome → u.phase.founding?.isSome → i = j

theorem Alone.set {i : Nat} (h : Alone sys) (hi : sys.txs[i]? = some tx)
    (hfree : tx'.live = true → tx'.phase.founding?.isSome → isInitialized sys.rows = false)
    (hsingle : tx'.live = true → tx'.phase.founding?.isSome → ∀ (j : Nat) (u : Tx), j ≠ i →
      sys.txs[j]? = some u → u.live = true → ¬ u.phase.founding?.isSome) :
    Alone (sys.set i tx') := by
  have hget := get?_set hi tx'
  refine ⟨fun j u hj hlive hs => ?_, fun j l u v hj hl hu hv hsu hsv => ?_⟩
  · rw [System.set, hget] at hj
    split at hj
    · obtain rfl := Option.some.inj hj
      exact hfree hlive hs
    · exact h.free j u hj hlive hs
  · rw [System.set, hget] at hj hl
    split at hj <;> split at hl
    · next hji hli => rw [hji, hli]
    · next hji hli =>
        obtain rfl := Option.some.inj hj
        exact absurd hsv (hsingle hu hsu l v hli hl hv)
    · next hji hli =>
        obtain rfl := Option.some.inj hl
        exact absurd hsu (hsingle hv hsv j u hji hj hu)
    · exact h.single j l u v hj hl hu hv hsu hsv

/-- An unfinished request that founds a lab has it among its rows. -/
theorem Drafts.hasLab (h : Drafts tx rows) (hf : tx.phase.founding? = some f) : HasLab tx f := by
  unfold Drafts at h
  cases hphase : tx.phase with
  | received p | initialized g | refused =>
      rw [hphase] at hf
      cases hf
  | labAdded g | urlsReplaced g =>
      simp only [hphase] at h
      rw [hphase] at hf
      exact Option.some.inj hf ▸ h
  | userAdded g | usernameAdded g | emailAdded g =>
      simp only [hphase] at h
      rw [hphase] at hf
      exact Option.some.inj hf ▸ h.1

/-- A request that goes on founds the lab it was founding, or has just inserted one. -/
theorem founding_moves {input : Input} {op : Op Key Row Phase}
    (hop : next url tx.phase tx.view input = some op) (hafter : tx.after rows op = some tx') :
    tx'.phase.founding? = tx.phase.founding? ∨
      ∃ p f token, input = .fresh f.labId f.userId token ∧ tx.phase = .received p ∧
        isInitialized tx.view = false ∧ f.slug = p.slug token ∧
        op = .insert (.lab f.slug) (.lab f.lab) (.labAdded f) := by
  cases hphase : tx.phase with
  | received p =>
      simp only [hphase] at hop
      cases input with
      | fresh labId userId token =>
          simp only [next] at hop
          split at hop
          · obtain rfl := Option.some.inj hop
            cases hafter
          · next hnone =>
              obtain rfl := Option.some.inj hop
              exact Or.inr ⟨p, ⟨p, p.slug token, labId, userId⟩, token, rfl, rfl,
                Bool.eq_false_iff.mpr hnone, rfl, rfl⟩
      | seeds entries | proceed => cases hop
  | labAdded f =>
      simp only [hphase] at hop
      cases input with
      | seeds entries =>
          simp only [next] at hop
          generalize (if (markPrimary entries).isEmpty then fallbackSeedUrl url
            else markPrimary entries) = seeds at hop
          split at hop
          · obtain rfl := Option.some.inj hop
            exact Or.inl (Option.some.inj hafter ▸ rfl)
          · split at hop
            · obtain rfl := Option.some.inj hop
              obtain ⟨r, -, rfl⟩ := Tx.after_update hafter
              exact Or.inl rfl
            · obtain rfl := Option.some.inj hop
              cases hafter
      | fresh labId userId token | proceed => cases hop
  | urlsReplaced f | userAdded f | usernameAdded f =>
      simp only [hphase] at hop
      cases input with
      | proceed =>
          obtain rfl := Option.some.inj hop
          exact Or.inl ((Tx.after_insert hafter).2 ▸ rfl)
      | fresh labId userId token | seeds entries => cases hop
  | emailAdded f =>
      simp only [hphase] at hop
      cases input with
      | proceed =>
          obtain rfl := Option.some.inj hop
          cases hafter
      | fresh labId userId token | seeds entries => cases hop
  | initialized f | refused =>
      simp only [hphase] at hop
      cases input <;> cases hop

/-- A request commits the lab it has founded, or nothing. -/
theorem commit_cases {input : Input} {p : Phase} (h : Drafts tx rows)
    (hop : next url tx.phase tx.view input = some (.commit p)) :
    tx.written = .empty ∧ p = .refused ∨
      ∃ f, tx.phase.founding? = some f ∧ HasAdminRow tx f ∧ p = .initialized f := by
  unfold Drafts at h
  cases hphase : tx.phase with
  | received q =>
      simp only [hphase] at h hop
      cases input with
      | fresh labId userId token =>
          simp only [next] at hop
          split at hop
          · simp only [Option.some.injEq, Op.commit.injEq] at hop
            exact Or.inl ⟨h, hop.symm⟩
          · cases hop
      | seeds entries | proceed => cases hop
  | labAdded f =>
      simp only [hphase] at hop
      cases input with
      | seeds entries =>
          simp only [next] at hop
          generalize (if (markPrimary entries).isEmpty then fallbackSeedUrl url
            else markPrimary entries) = seeds at hop
          split at hop
          · cases hop
          · split at hop <;> cases hop
      | fresh labId userId token | proceed => cases hop
  | urlsReplaced f | userAdded f | usernameAdded f =>
      simp only [hphase] at hop
      cases input <;> cases hop
  | emailAdded f =>
      simp only [hphase] at h hop
      cases input with
      | proceed =>
          simp only [next, Option.some.injEq, Op.commit.injEq] at hop
          exact Or.inr ⟨f, rfl, h.2, hop.symm⟩
      | fresh labId userId token | seeds entries => cases hop
  | initialized f | refused =>
      simp only [hphase] at hop
      cases input <;> cases hop

/-- What holds in every state. -/
structure Safe (rows : Rows) (sys : System) : Prop where
  inv : Inv Drafts sys
  alone : Alone sys
  keyed : ∀ e ∈ sys.rows.entries, ∀ slug ∈ e.2.slug?, e.1 = .lab slug
  installed : Installed rows sys

/-- A request under way is not done. -/
theorem not_initialized (h : Drafts tx rows) (f : Founding) : tx.phase ≠ .initialized f := by
  intro hphase
  simp only [Drafts, hphase] at h

theorem rules (url : String) : Rules (program url) SameSlug Drafts where
  stable _ _ _ _ h := h
  start _ _ _ := rfl
  own _ _ _ _ _ _ _ _ h hop hafter := drafts_own h hop hafter

/-- The lab that is inserted is the only one, if all that are there have its slug. -/
theorem alone_inserted {i : Nat} {p : Payload} {token : String} (h : Safe rows sys)
    (hempty : tx.written = .empty) (hslug : f.slug = p.slug token)
    (hgrants : sys.grants i (.lab f.slug) = true)
    (hfree : tx.current sys.rows (.lab f.slug) = none)
    (hsame : ∀ slug ∈ slugsInSight sys, slug = p.slug token) :
    isInitialized sys.rows = false ∧ ∀ (j : Nat) (u : Tx), j ≠ i → sys.txs[j]? = some u →
      u.live = true → ¬ u.phase.founding?.isSome := by
  rw [Tx.current, hempty, Dict.get?_empty, Option.none_or] at hfree
  constructor
  · -- a committed lab would stand under the slug, which is free
    refine Bool.eq_false_iff.mpr fun hinit => ?_
    obtain ⟨e, he, hlab⟩ := List.any_eq_true.mp hinit
    obtain ⟨l, hl⟩ := Option.isSome_iff_exists.mp hlab
    have hs : e.2.slug? = some l.slug := by rw [Row.slug?, hl, Option.map_some]
    have hsight : l.slug ∈ slugsInSight sys :=
      List.mem_filterMap.mpr ⟨e, List.mem_append_left _ he, hs⟩
    have hkey := h.keyed e he l.slug hs
    rw [hsame _ hsight, ← hslug] at hkey
    rw [Dict.get?_eq_none_iff] at hfree
    exact hfree e he hkey
  · -- a lab under way has locked the slug, which is granted
    intro j u hj hu hlive hs
    obtain ⟨g, hg⟩ := Option.isSome_iff_exists.mp hs
    have hlab := (h.inv.held j u hu hlive).hasLab hg
    obtain ⟨l, hl, -, hlslug⟩ := hlab.lab
    have hsight : g.slug ∈ slugsInSight sys := by
      refine List.mem_filterMap.mpr ⟨(.lab g.slug, .lab l), List.mem_append_right _ ?_, ?_⟩
      · exact List.mem_flatMap.mpr ⟨u, List.mem_of_getElem? hu, Dict.get?_eq_some_iff.mp hl⟩
      · rw [← hlslug]
        rfl
    have hlocked := hlab.locked
    rw [hsame _ hsight, ← hslug] at hlocked
    exact not_mem_of_grants hgrants hj hu hlocked


/-- A commit of a lab, in a state with none. -/
theorem adds_flushed (h : HasLab tx f) (hadmin : HasAdminRow tx f) : Adds rows (tx.flushed rows) f := by
  obtain ⟨l, hl, hids⟩ := h.lab
  obtain ⟨u, hu, hrole⟩ := hadmin
  refine ⟨⟨l, ?_, hids⟩, ⟨u, ?_, hrole⟩, fun k hk => ?_⟩
  · rw [Tx.get?_flushed, hl, Option.some_or]
  · rw [Tx.get?_flushed, hu, Option.some_or]
  · rw [Tx.get?_flushed, h.others k hk, Option.none_or]

/-- The lab that a request has installed is there. -/
theorem isInitialized_of_adds {rows' : Rows} (h : Adds rows rows' f) : isInitialized rows' = true := by
  obtain ⟨l, hl, -⟩ := h.lab
  exact List.any_eq_true.mpr ⟨_, Dict.get?_eq_some_iff.mp hl, rfl⟩

/-- A request that starts founds nothing yet. -/
theorem Alone.start {p : Payload} (h : Alone sys) :
    Alone { sys with txs := sys.txs ++ [{ phase := .received p, snapshot := sys.rows }] } := by
  refine ⟨fun i tx hi hlive hs => ?_, fun i j tx u hi hj hl hu hs hs' => ?_⟩
  · rcases get?_start hi with hi | rfl
    · exact h.free i tx hi hlive hs
    · cases hs
  · rcases get?_start hi with hi | rfl
    · rcases get?_start hj with hj | rfl
      · exact h.single i j tx u hi hj hl hu hs hs'
      · cases hs'
    · cases hs

theorem Installed.start {p : Payload} (h : Installed rows sys) :
    Installed rows { sys with txs := sys.txs ++ [{ phase := .received p, snapshot := sys.rows }] } := by
  cases h with
  | nothing hrows hnone =>
      refine .nothing hrows fun i tx f hi => ?_
      rcases get?_start hi with hi | rfl
      · exact hnone i tx f hi
      · exact nofun
  | one i tx f hi hphase hone hadds =>
      have hlt : i < sys.txs.length := (List.getElem?_eq_some_iff.mp hi).1
      refine .one i tx f ((List.getElem?_append_left hlt).trans hi) hphase (fun j u g hj hg => ?_) hadds
      rcases get?_start hj with hj | rfl
      · exact hone j u g hj hg
      · cases hg

/-- The commit of a lab: nobody else founds one, and none was installed. -/
theorem Alone.commit {i : Nat} {rows' : Rows} {p : Phase} (h : Alone sys) (hi : sys.txs[i]? = some tx)
    (hlive : tx.live = true) (hf : tx.phase.founding?.isSome) :
    Alone { rows := rows', txs := sys.txs.set i (tx.ended p) } := by
  have hget := get?_set hi (tx.ended p)
  have hnobody : ∀ (j : Nat) (u : Tx), (sys.txs.set i (tx.ended p))[j]? = some u → u.live = true →
      ¬ u.phase.founding?.isSome := by
    intro j u hj hul hus
    rw [hget] at hj
    split at hj
    · obtain rfl := Option.some.inj hj
      cases hul
    · next hne => exact hne (h.single j i u tx hj hi hul hlive hus hf)
  exact ⟨fun j u hj hul hus => absurd hus (hnobody j u hj hul),
    fun j _ u _ hj _ hul _ hus => absurd hus (hnobody j u hj hul)⟩

theorem Installed.commit {i : Nat} (h : Installed rows sys) (hi : sys.txs[i]? = some tx)
    (hfree : isInitialized sys.rows = false) (hlab : HasLab tx f) (hadmin : HasAdminRow tx f) :
    Installed rows
      { rows := tx.flushed sys.rows, txs := sys.txs.set i (tx.ended (.initialized f)) } := by
  have hget := get?_set hi (tx.ended (.initialized f))
  cases h with
  | nothing hrows hnone =>
      refine .one i (tx.ended (.initialized f)) f ((hget i).trans (if_pos rfl)) rfl
        (fun j u g hj hg => ?_) (hrows ▸ adds_flushed hlab hadmin)
      rw [hget] at hj
      split at hj
      · next hji => exact hji
      · exact absurd hg (hnone j u g hj)
  | one j u g hj hphase hone hadds =>
      rw [isInitialized_of_adds hadds] at hfree
      cases hfree

/-- A lab that is committed stands under its slug. -/
theorem keyed_flushed (h : ∀ e ∈ rows.entries, ∀ slug ∈ e.2.slug?, e.1 = .lab slug)
    (hlab : HasLab tx f) (e : Key × Row) (he : e ∈ (tx.flushed rows).entries) (slug : String)
    (hs : slug ∈ e.2.slug?) : e.1 = .lab slug := by
  have hrow := Dict.get?_eq_some_iff.mpr (show (e.1, e.2) ∈ _ from he)
  rw [Tx.get?_flushed] at hrow
  cases hw : tx.written.get? e.1 with
  | some r =>
      rw [hw, Option.some_or, Option.some.injEq] at hrow
      exact hlab.slugs e.1 r hw slug (hrow ▸ hs)
  | none =>
      rw [hw, Option.none_or] at hrow
      exact h (e.1, e.2) (Dict.get?_eq_some_iff.mp hrow) slug hs

/-- **A request founds its lab alone**, and commits it alone. -/
theorem safe_step {a : Action Payload Input} (h : Safe rows sys) (hok : SameSlug sys a)
    (hstep : step url sys a = some sys') : Safe rows sys' := by
  have hinv : Inv Drafts sys' := inv_step (rules url) h.inv hok hstep
  cases step_cases hstep with
  | start request => exact ⟨hinv, h.alone.start, h.keyed, h.installed.start⟩
  | moves hi hlive hop hwaits hafter =>
      next i input tx tx' op =>
      have hdrafts := h.inv.held i tx hi hlive
      have hlive' : tx'.live = true := (frame_after hafter).2.trans hlive
      have hnew : Drafts tx' sys.rows :=
        hinv.held i tx' ((get?_set hi tx' i).trans (if_pos rfl)) hlive'
      have hinstalled := h.installed.set hi (not_initialized hdrafts) (not_initialized hnew)
      refine ⟨hinv, ?_, h.keyed, hinstalled⟩
      rcases founding_moves hop hafter with hsame | ⟨p, f, token, rfl, hphase, hnone, hslug, rfl⟩
      · refine h.alone.set hi (fun _ hs => ?_) fun _ hs j u hj hu hul hus => ?_
        · exact h.alone.free i tx hi hlive (hsame ▸ hs)
        · exact hj (h.alone.single j i u tx hu hi hul hlive hus (hsame ▸ hs))
      · have hempty : tx.written = .empty := by
          unfold Drafts at hdrafts
          simpa only [hphase] using hdrafts
        have hgrants : sys.grants i (.lab f.slug) = true := by
          simpa [System.waits, Op.insert] using hwaits
        have hsame : ∀ slug ∈ slugsInSight sys, slug = p.slug token := by
          simpa [SameSlug, hi, hphase, hnone] using hok
        obtain ⟨hfree, hsingle⟩ :=
          alone_inserted h hempty hslug hgrants (Tx.after_insert hafter).1 hsame
        exact h.alone.set hi (fun _ _ => hfree) fun _ _ j u hj hu hul => hsingle j u hj hu hul
  | ends hi hlive =>
      next i tx =>
      have hphase : ∀ f, tx.phase ≠ .initialized f := not_initialized (h.inv.held i tx hi hlive)
      -- a transaction that has ended is not alive
      exact ⟨hinv, h.alone.set hi (fun hl => by cases hl) (fun hl => by cases hl), h.keyed,
        h.installed.set hi hphase hphase⟩
  | commits hi hlive hop =>
      next i input tx p =>
      have hdrafts := h.inv.held i tx hi hlive
      rcases commit_cases hdrafts hop with ⟨hempty, rfl⟩ | ⟨f, hf, hadmin, rfl⟩
      · -- a refusal
        have hrows : tx.flushed sys.rows = sys.rows := by rw [Tx.flushed, hempty]; rfl
        rw [hrows] at hinv ⊢
        exact ⟨hinv, h.alone.set hi (fun hl => by cases hl) (fun hl => by cases hl), h.keyed,
          h.installed.set hi (not_initialized hdrafts) fun f hf => by cases hf⟩
      · have hlab := hdrafts.hasLab hf
        have hsome : tx.phase.founding?.isSome := by rw [hf]; rfl
        exact ⟨hinv, h.alone.commit hi hlive hsome, keyed_flushed h.keyed hlab,
          h.installed.commit hi (h.alone.free i tx hi hlive hsome) hlab hadmin⟩

end Steps

/-- **One lab per installation**: in every interleaving in which overlapping requests
choose one slug, at most one of them installs a lab with its admin, and the others
leave nothing. -/
theorem installed_run (url : String) {sys : System} {as : List (Action Payload Input)}
    (hstart : Started sys) (hok : Meets (step url) SameSlug sys as) :
    Along (step url) (fun _ _ sys' => Installed sys.rows sys') sys as := by
  have hnone := not_getElem?_of_nil hstart.1
  have hinit : Safe sys.rows sys := ⟨.start hstart.1,
    ⟨fun i tx hi => absurd hi (hnone i tx), fun i _ tx _ hi => absurd hi (hnone i tx)⟩, hstart.2,
    .nothing rfl fun i tx _ hi => absurd hi (hnone i tx)⟩
  exact along_of_invariant
    (fun _ _ _ hs hok ht => ⟨safe_step hs hok ht, (safe_step hs hok ht).installed⟩) hinit hok

/-- An installation without a lab. -/
def fresh : System := { rows := .empty }

/-- A request for a lab with the given slug. -/
def asksFor (slug : String) : Payload :=
  { labName := "Lab", labSlug := some slug, adminUsername := "root", adminEmail := "root@lab.test"
    adminDisplayName := "Root", passwordHash := "$2b$12$" }

/-- The steps of request `i` after its insertion of the lab. -/
def restOf (i : Nat) : List (Action Payload Input) :=
  [.turn i (.seeds []), .turn i .proceed, .turn i .proceed, .turn i .proceed, .turn i .proceed]

/-- Two requests for one slug: the second one finds it taken. -/
def sameSlugTwice : List (Action Payload Input) :=
  [.start (asksFor "lab"), .start (asksFor "lab"), .turn 0 (.fresh 1 1 "0")] ++ restOf 0 ++
    [.turn 1 (.fresh 2 2 "0")]

theorem installed_run_sameSlug :
    (exec (step "http://localhost") fresh sameSlugTwice).map (fun sys => sys.rows.entries.map (·.1)) =
      some [.lab "lab", .user 1, .username 1 "root", .email 1 "root@lab.test"] ∧
    Along (step "http://localhost") (fun _ _ sys' => Installed fresh.rows sys') fresh sameSlugTwice :=
  ⟨by decide +kernel,
    installed_run "http://localhost" ⟨rfl, fun _ he => absurd he List.not_mem_nil⟩ (by decide +kernel)⟩

/-- Two requests for two slugs. -/
def twoSlugs : List (Action Payload Input) :=
  [.start (asksFor "alpha"), .start (asksFor "beta"), .turn 0 (.fresh 1 1 "0"),
   .turn 1 (.fresh 2 2 "0")] ++ restOf 0 ++ (restOf 1).dropLast

def halfWay : System := (exec (step "http://localhost") fresh twoSlugs).get (by decide +kernel)

def twoLabs : System :=
  (step "http://localhost" halfWay (.turn 1 .proceed)).get (by decide +kernel)

theorem not_installed :
    ¬ ∀ (url : String) (sys : System) (as : List (Action Payload Input)), Started sys →
      Along (step url) (fun _ _ sys' => Installed sys.rows sys') sys as := by
  intro h
  have halong := h "http://localhost" fresh (twoSlugs ++ [.turn 1 .proceed])
    ⟨rfl, fun _ he => absurd he List.not_mem_nil⟩
  have hinstalled : Installed fresh.rows twoLabs :=
    halong.step_of_exec (Option.some_get _).symm (Option.some_get _).symm
  have hphases : twoLabs.txs.map (·.phase) = [.initialized ⟨asksFor "alpha", "alpha", 1, 1⟩,
      .initialized ⟨asksFor "beta", "beta", 2, 2⟩] := by decide +kernel
  have hget : ∀ (i : Nat) (f : Founding), (twoLabs.txs.map (·.phase))[i]? = some (.initialized f) →
      ∃ tx : Tx, twoLabs.txs[i]? = some tx ∧ tx.phase = .initialized f := by
    intro i f hi
    rw [List.getElem?_map] at hi
    exact Option.map_eq_some_iff.mp hi
  obtain ⟨tx, htx, hphase⟩ := hget 0 ⟨asksFor "alpha", "alpha", 1, 1⟩ (by rw [hphases]; rfl)
  obtain ⟨u, hu, hphase'⟩ := hget 1 ⟨asksFor "beta", "beta", 2, 2⟩ (by rw [hphases]; rfl)
  cases hinstalled with
  | nothing hrows hnone => exact hnone 0 tx _ htx hphase
  | one i v f hi hv hone hadds =>
      exact absurd ((hone 0 tx _ htx hphase).trans (hone 1 u _ hu hphase').symm) (by decide)

end SetupService

end CoreLab
