import CoreLab.Access

/-!
# CoreLab.AccessRuns

What holds of account links and server admin grants in every interleaving of the requests that write
them.

* `plan_allowed`, `plan_disable` — what a request decides on its snapshot;
* `Work` — what a transaction has written of it so far;
* `governed_run` — one active row for each user and resource, given by whoever may give it;
* `overlapped_run` — who is disabled keeps an access only if it was under way meanwhile, or was given
  by an admin.
-/

namespace CoreLab

open Transition Transactions

namespace Access

open LastAdmin (User Kind)

/-! ## what a request decides -/

section Plan

variable {site : Site} {rows : Rows} {r : Request} {edits : List Edit} {e : Edit} {current : User}
  {actorUserId userId : Nat} {resource : Resource} {ref : Ref} {a : Right}

theorem user?_eq_some {u : User} : user? rows userId = some u ↔
    rows.get? (.user userId) = some (.user u) := by
  unfold user?
  split
  · next v hv => rw [hv, Option.some.injEq, Option.some.injEq, Row.user.injEq]
  · next hnone =>
      refine ⟨fun h => ?_, fun h => absurd h (hnone u)⟩
      cases h

theorem right?_eq_some : right? rows ref = some a ↔ rows.get? (.right ref) = some (.right a) := by
  unfold right?
  split
  · next b hb => rw [hb, Option.some.injEq, Option.some.injEq, Row.right.injEq]
  · next hnone =>
      refine ⟨fun h => ?_, fun h => absurd h (hnone a)⟩
      cases h

theorem mem_rights : (ref, a) ∈ rights rows ↔ rows.get? (.right ref) = some (.right a) := by
  rw [rights, List.mem_filterMap, Dict.get?_eq_some_iff]
  constructor
  · rintro ⟨⟨k, row⟩, hmem, h⟩
    unfold rightOf at h
    split at h
    · next heq =>
        obtain ⟨rfl, rfl⟩ := Prod.mk.inj (Option.some.inj h)
        exact heq ▸ hmem
    · cases h
  · exact fun h => ⟨_, h, rfl⟩

theorem mem_activeOf {store : Store} : (ref, a) ∈ activeOf rows store userId ↔
    rows.get? (.right ref) = some (.right a) ∧ ref.store = store ∧ a.userId = userId ∧
      a.isActive = true := by
  simp [activeOf, mem_rights, and_assoc]

theorem existing_eq_some (h : existing rows userId resource = some (ref, a)) :
    rows.get? (.right ref) = some (.right a) ∧ a.isActive = true := by
  have hfound := List.find?_some h
  simp only [Bool.and_eq_true] at hfound
  exact ⟨mem_rights.mp (List.mem_of_find?_eq_some h), hfound.2⟩

/-- What an edit requires of its request, and of the rows that this has seen. -/
def Allowed (site : Site) (r : Request) (rows : Rows) : Edit → Prop
  | .create u => u.isActive = true
  | .user _ (.changeRole _) => True
  | .user id .disable => ∃ actorUserId, r = .user actorUserId (.disableUser id)
  | .user id .reactivate => ∃ actorUserId, r = .user actorUserId (.reactivateUser id)
  | .insert a => Authorised site rows a ∧ a.isActive = true ∧ a.Signed
  | .revoke ref _ _ => ActiveAt rows ref

/-- A user verifies an account for himself. -/
theorem allowed_verified {physicalAccountId : Nat} {source : LinkSource}
    (hcurrent : user? rows actorUserId = some current) (hactive : current.isActive = true)
    (hsource : source ≠ .adminDeclared) : Allowed site r rows (.insert
      { userId := actorUserId, resource := .account physicalAccountId, source := some source
        byUserId := actorUserId }) := by
  refine ⟨⟨current, hcurrent, hactive, ?_⟩, rfl, rfl, rfl⟩
  cases source with
  | adminDeclared => exact absurd rfl hsource
  | sshChallenge | passwordPam | adminPreparedThenSsh => rfl

theorem allowed_of_establish {physicalAccountId : Nat} {source : LinkSource}
    (hcurrent : user? rows actorUserId = some current) (hactive : current.isActive = true)
    (hsource : source ≠ .adminDeclared)
    (h : establish rows actorUserId physicalAccountId source = some edits) (he : e ∈ edits) :
    Allowed site r rows e := by
  unfold establish at h
  split at h
  · cases h
  · obtain rfl := Option.some.inj h
    obtain rfl := List.mem_singleton.mp he
    exact allowed_verified hcurrent hactive hsource

theorem allowed_of_upgrade {physicalAccountId : Nat}
    (hcurrent : user? rows actorUserId = some current) (hactive : current.isActive = true)
    (h : upgradeAdminDeclaredToSsh rows actorUserId physicalAccountId = some edits)
    (he : e ∈ edits) : Allowed site r rows e := by
  unfold upgradeAdminDeclaredToSsh at h
  split at h
  · cases h
  · next ref old hfound =>
      simp only [Option.ite_none_right_eq_some, Option.some.injEq] at h
      obtain ⟨-, rfl⟩ := h
      rcases List.mem_pair.mp he with rfl | rfl
      · exact ⟨old, existing_eq_some hfound⟩
      · exact allowed_verified hcurrent hactive LinkSource.noConfusion

theorem allowed_of_declare {physicalAccountId ownerUserId : Nat}
    (hcurrent : user? rows actorUserId = some current) (hactive : current.isActive = true)
    (hadmin : isServerAdmin rows actorUserId current (site.serverOf physicalAccountId) = true)
    (hlab : site.labOf (site.serverOf physicalAccountId) = current.labId)
    (h : adminDeclareLink rows actorUserId physicalAccountId ownerUserId = some edits)
    (he : e ∈ edits) : Allowed site r rows e := by
  unfold adminDeclareLink at h
  split at h
  · cases h
  · obtain rfl := Option.some.inj h
    obtain rfl := List.mem_singleton.mp he
    exact ⟨⟨current, hcurrent, hactive, hadmin, hlab⟩, rfl, rfl, rfl⟩

theorem allowed_of_cascade (he : e ∈ cascadeRevokeAccess rows actorUserId userId) :
    Allowed site r rows e := by
  rcases List.mem_append.mp he with he | he <;> obtain ⟨⟨ref, a⟩, hmem, rfl⟩ := List.mem_map.mp he
  all_goals
    obtain ⟨ha, -, -, hactive⟩ := mem_activeOf.mp hmem
    exact ⟨a, ha, hactive⟩

/-- **What a request writes it may write**, as far as it sees. -/
theorem plan_allowed (h : Plans site r rows e) : Allowed site r rows e := by
  obtain ⟨edits, h, he⟩ := h
  cases r with
  | register labId role =>
      obtain rfl := Option.some.inj h
      obtain rfl := List.mem_singleton.mp he
      exact rfl
  | user actorUserId call =>
      simp only [plan, Option.bind_eq_bind, Option.bind_eq_some_iff,
        Option.ite_none_right_eq_some] at h
      obtain ⟨current, hcurrent, hactive, h⟩ := h
      cases call with
      | verifyChallenge physicalAccountId =>
          exact allowed_of_establish hcurrent hactive LinkSource.noConfusion h he
      | tryPassword serverId physicalAccountId =>
          simp only [planOf, Option.ite_none_right_eq_some] at h
          exact allowed_of_establish hcurrent hactive LinkSource.noConfusion h.2 he
      | upgradeViaChallenge linkId physicalAccountId =>
          simp only [planOf, Option.bind_eq_bind, Option.bind_eq_some_iff,
            Option.ite_none_right_eq_some] at h
          obtain ⟨link, -, -, h⟩ := h
          exact allowed_of_upgrade hcurrent hactive h he
      | declareOwner serverId physicalAccountId ownerUserId =>
          simp only [planOf, Option.ite_none_right_eq_some] at h
          obtain ⟨⟨hadmin, hlab, rfl, -⟩, h⟩ := h
          exact allowed_of_declare hcurrent hactive hadmin hlab h he
      | revokeLink linkId reason =>
          simp only [planOf, Option.bind_eq_bind, Option.bind_eq_some_iff,
            Option.ite_none_right_eq_some, Option.some.injEq] at h
          obtain ⟨link, hlink, ⟨-, -, hon⟩, rfl⟩ := h
          obtain rfl := List.mem_singleton.mp he
          exact ⟨link, right?_eq_some.mp hlink, hon⟩
      | grantAdmin serverId userId =>
          simp only [planOf, Option.ite_none_right_eq_some, Option.some.injEq] at h
          obtain ⟨⟨hrole, hlab, -⟩, rfl⟩ := h
          obtain rfl := List.mem_singleton.mp he
          exact ⟨⟨current, hcurrent, hactive, hrole, hlab⟩, rfl, rfl, rfl⟩
      | revokeAdmin serverId userId =>
          simp only [planOf, Option.bind_eq_bind, Option.bind_eq_some_iff,
            Option.ite_none_right_eq_some, Option.some.injEq] at h
          obtain ⟨⟨ref, grant⟩, hgrant, -, rfl⟩ := h
          obtain rfl := List.mem_singleton.mp he
          exact ⟨grant, existing_eq_some hgrant⟩
      | changeRole userId role =>
          simp only [planOf, Option.bind_eq_bind, Option.bind_eq_some_iff, Option.some.injEq] at h
          obtain ⟨u, -, rfl⟩ := h
          split at he
          · cases he
          · obtain rfl := List.mem_singleton.mp he
            exact trivial
      | disableUser userId =>
          simp only [planOf, Option.bind_eq_bind, Option.bind_eq_some_iff, Option.some.injEq] at h
          obtain ⟨u, -, rfl⟩ := h
          rcases List.mem_append.mp he with he | he
          · split at he
            · obtain rfl := List.mem_singleton.mp he
              exact ⟨actorUserId, rfl⟩
            · cases he
          · exact allowed_of_cascade he
      | reactivateUser userId =>
          simp only [planOf, Option.bind_eq_bind, Option.bind_eq_some_iff, Option.some.injEq] at h
          obtain ⟨u, -, rfl⟩ := h
          split at he
          · cases he
          · obtain rfl := List.mem_singleton.mp he
            exact ⟨actorUserId, rfl⟩

/-- **A disabling revokes what it sees** of the user's access. -/
theorem plan_disable (h : plan site (.user actorUserId (.disableUser userId)) rows = some edits)
    (ha : rows.get? (.right ref) = some (.right a)) (huser : a.userId = userId)
    (hactive : a.isActive = true) : ∃ reason, .revoke ref actorUserId reason ∈ edits := by
  simp only [plan, planOf, Option.bind_eq_bind, Option.bind_eq_some_iff,
    Option.ite_none_right_eq_some, Option.some.injEq] at h
  obtain ⟨current, -, -, u, -, rfl⟩ := h
  cases hstore : ref.store with
  | accountLink =>
      have hmem := mem_activeOf.mpr ⟨ha, hstore, huser, hactive⟩
      refine ⟨some .userDisabled, List.mem_append_right _ (List.mem_append_left _ ?_)⟩
      exact List.mem_map.mpr ⟨(ref, a), hmem, rfl⟩
  | serverAdminGrant =>
      have hmem := mem_activeOf.mpr ⟨ha, hstore, huser, hactive⟩
      refine ⟨none, List.mem_append_right _ (List.mem_append_right _ ?_)⟩
      exact List.mem_map.mpr ⟨(ref, a), hmem, rfl⟩

/-- A reactivation writes the user only. -/
theorem plan_reactivate (h : Plans site (.user actorUserId (.reactivateUser userId)) rows e) :
    e = .user userId .reactivate := by
  obtain ⟨edits, h, he⟩ := h
  simp only [plan, planOf, Option.bind_eq_bind, Option.bind_eq_some_iff,
    Option.ite_none_right_eq_some, Option.some.injEq] at h
  obtain ⟨current, -, -, u, -, rfl⟩ := h
  split at he
  · cases he
  · exact List.mem_singleton.mp he

end Plan

/-! ## how rows go on -/

section Rows

variable {a b c : Right} {x y z : Row} {site : Site} {rows : Rows}

theorem Continues.refl (a : Right) : Continues a a := ⟨rfl, rfl, rfl, rfl, id⟩

theorem Continues.trans (h : Continues a b) (h' : Continues b c) : Continues a c :=
  ⟨h'.userId.trans h.userId, h'.resource.trans h.resource, h'.source.trans h.source,
    h'.byUserId.trans h.byUserId, fun hc => h.active (h'.active hc)⟩

theorem continues_revoked (a : Right) (byUserId : Nat) (reason : Option RevokeReason) (now : Time) :
    Continues a (a.revoked byUserId reason now) :=
  ⟨rfl, rfl, rfl, rfl, fun h => by cases h⟩

theorem Authorised.mono (h : Authorised site rows a) (hc : Continues a b) :
    Authorised site rows b := by
  unfold Authorised
  rw [hc.userId, hc.resource, hc.source, hc.byUserId]
  exact h

/-- What a later version of a row may be. -/
def Follows : Row → Row → Prop
  | .user _, .user _ => True
  | .right a, .right b => Continues a b
  | .entry _, .entry _ => True
  | _, _ => False

theorem follows_refl (x : Row) : Follows x x := by
  cases x with
  | user u | entry holder => trivial
  | right a => exact .refl a

theorem follows_trans (x y z : Row) (h : Follows x y) (h' : Follows y z) : Follows x z := by
  cases x <;> cases y <;> cases z <;>
    first
    | trivial
    | exact h.elim
    | exact h'.elim
    | exact Continues.trans h h'

/-- Each row is under a key of its kind. -/
def Fits : Key → Row → Prop
  | .user _, .user _ => True
  | .right ref, .right a => a.resource.store = ref.store
  | .entry _ _, .entry _ => True
  | _, _ => False

def Typed (rows : Rows) : Prop := ∀ k x, rows.get? k = some x → Fits k x

/-- The unique indexes hold the active rows. -/
def Entries (rows : Rows) : Prop :=
  ∀ ref a, rows.get? (.right ref) = some (.right a) → a.isActive = true →
    rows.get? (.entry a.userId a.resource) = some (.entry (some ref))

theorem Typed.right (h : Typed rows) {ref : Ref} (hx : rows.get? (.right ref) = some x) :
    ∃ a, x = .right a ∧ a.resource.store = ref.store := by
  have hfits := h _ _ hx
  cases x with
  | right a => exact ⟨a, rfl, hfits⟩
  | user u | entry holder => exact hfits.elim

theorem Typed.user (h : Typed rows) {id : Nat} (hx : rows.get? (.user id) = some x) :
    ∃ u, x = .user u := by
  have hfits := h _ _ hx
  cases x with
  | user u => exact ⟨u, rfl⟩
  | right a | entry holder => exact hfits.elim

theorem Typed.entry (h : Typed rows) {userId : Nat} {resource : Resource}
    (hx : rows.get? (.entry userId resource) = some x) : ∃ holder, x = .entry holder := by
  have hfits := h _ _ hx
  cases x with
  | entry holder => exact ⟨holder, rfl⟩
  | user u | right a => exact hfits.elim

end Rows

/-! ## what a transaction has written -/

section Work

variable {site : Site} {r : Request} {rest : List Edit} {entering : Option Ref} {tx tx' : Tx}
  {rows rows' : Rows} {ref : Ref} {a : Right} {x : Row} {p : Phase}

/-- The transaction has revoked the row. -/
def Gone (tx : Tx) (ref : Ref) : Prop :=
  ∃ a, tx.written.get? (.right ref) = some (.right a) ∧ a.isActive = false

/-- The row was inserted by the request, or revoked by it. -/
def Derived (site : Site) (r : Request) (seen rows : Rows) (ref : Ref) (a : Right) : Prop :=
  (∃ c byUserId reason time, rows.get? (.right ref) = some (.right c) ∧
    Plans site r seen (.revoke ref byUserId reason) ∧ a = c.revoked byUserId reason time) ∨
  rows.get? (.right ref) = none ∧
    ∃ b, Plans site r seen (.insert b) ∧ b.resource.store = ref.store ∧ Continues b a

/-- The user is active or not as the row says, or as the request says. -/
structure Turned (site : Site) (r : Request) (seen rows : Rows) (id : Nat) (u : User) : Prop where
  off : u.isActive = false → (∃ c, user? rows id = some c ∧ c.isActive = false) ∨
    Plans site r seen (.user id .disable)
  on : ∀ c, user? rows id = some c → c.isActive = false → u.isActive = true →
    Plans site r seen (.user id .reactivate)

/-- A transaction with `rest` still to do; the index entry of `entering` is missing yet. -/
structure Work (site : Site) (r : Request) (rest : List Edit) (entering : Option Ref) (tx : Tx)
    (rows : Rows) : Prop where
  planned : ∃ did, plan site r tx.snapshot = some (did ++ rest) ∧
    ∀ ref byUserId reason, .revoke ref byUserId reason ∈ did → Gone tx ref
  covered : ∀ k, tx.written.get? k ≠ none → k ∈ tx.locks
  rights : ∀ ref x, tx.written.get? (.right ref) = some x →
    ∃ a, x = .right a ∧ a.Signed ∧ Derived site r tx.snapshot rows ref a
  users : ∀ id x, tx.written.get? (.user id) = some x →
    ∃ u, x = .user u ∧ Turned site r tx.snapshot rows id u
  entries : ∀ userId resource x, tx.written.get? (.entry userId resource) = some x →
    ∃ holder, x = .entry holder ∧ ∀ ref,
      rows.get? (.entry userId resource) = some (.entry (some ref)) → holder = some ref ∨ Gone tx ref
  entered : ∀ ref a, tx.written.get? (.right ref) = some (.right a) → a.isActive = true →
    entering ≠ some ref →
      tx.written.get? (.entry a.userId a.resource) = some (.entry (some ref))

theorem Derived.congr {seen : Rows} (h : Derived site r seen rows ref a)
    (hrows : rows'.get? (.right ref) = rows.get? (.right ref)) :
    Derived site r seen rows' ref a := by
  unfold Derived
  rwa [hrows]

theorem Turned.refl {id : Nat} {u : User} (h : user? rows id = some u) (seen : Rows) :
    Turned site r seen rows id u where
  off hoff := .inl ⟨u, h, hoff⟩
  on c hc hoff hon := by
    obtain rfl := Option.some.inj (h.symm.trans hc)
    rw [hon] at hoff
    cases hoff

theorem Turned.congr {seen : Rows} {id : Nat} {u : User} (h : Turned site r seen rows id u)
    (hrows : rows'.get? (.user id) = rows.get? (.user id)) : Turned site r seen rows' id u := by
  have huser : user? rows' id = user? rows id := by simp only [user?, hrows]
  exact ⟨fun hoff => huser ▸ h.off hoff, fun c hc => h.on c (huser ▸ hc)⟩

/-- What the request does to a user. -/
theorem Turned.apply {seen : Rows} {id : Nat} {u : User} {kind : Kind}
    (h : Turned site r seen rows id u) (hplans : Plans site r seen (.user id kind)) :
    Turned site r seen rows id (kind.apply u) := by
  cases kind with
  | changeRole role => exact ⟨h.off, h.on⟩
  | disable => exact ⟨fun _ => .inr hplans, nofun⟩
  | reactivate => exact ⟨nofun, fun _ _ _ _ => hplans⟩

theorem get?_write (tx : Tx) (k j : Key) (x : Row) (p : Phase) :
    (tx.write k x p).written.get? j = if j = k then some x else tx.written.get? j :=
  Dict.get?_set ..

/-- A transaction that has only read. -/
theorem work_of_empty {edits : List Edit} (hempty : tx.written = .empty)
    (hplan : plan site r tx.snapshot = some edits) : Work site r edits none tx rows where
  planned := ⟨[], hplan, fun _ _ _ h => by cases h⟩
  covered k hk := absurd (by rw [hempty]; rfl) hk
  rights ref x hx := by
    rw [hempty] at hx
    cases hx
  users id x hx := by
    rw [hempty] at hx
    cases hx
  entries userId resource x hx := by
    rw [hempty] at hx
    cases hx
  entered ref a hx := by
    rw [hempty] at hx
    cases hx

theorem Work.stable (h : Work site r rest entering tx rows)
    (hrows : ∀ k ∈ tx.locks, rows'.get? k = rows.get? k) : Work site r rest entering tx rows' := by
  have hcovered : ∀ k x, tx.written.get? k = some x → rows'.get? k = rows.get? k := by
    intro k x hx
    exact hrows k (h.covered k (by rw [hx]; exact Option.some_ne_none x))
  refine ⟨h.planned, h.covered, fun ref x hx => ?_, fun id x hx => ?_,
    fun userId resource x hx => ?_, h.entered⟩
  · obtain ⟨a, rfl, hsigned, hderived⟩ := h.rights ref x hx
    exact ⟨a, rfl, hsigned, hderived.congr (hcovered _ _ hx)⟩
  · obtain ⟨u, rfl, hturned⟩ := h.users id x hx
    exact ⟨u, rfl, hturned.congr (hcovered _ _ hx)⟩
  · rw [hcovered _ _ hx]
    exact h.entries userId resource x hx

theorem Gone.write {k : Key} (h : Gone tx ref)
    (hk : k = .right ref → ∃ a, x = .right a ∧ a.isActive = false) : Gone (tx.write k x p) ref := by
  by_cases heq : k = .right ref
  · obtain ⟨a, rfl, ha⟩ := hk heq
    exact ⟨a, by rw [get?_write, if_pos heq.symm], ha⟩
  · obtain ⟨a, hw, ha⟩ := h
    exact ⟨a, by rw [get?_write, if_neg (Ne.symm heq), hw], ha⟩

theorem Gone.write_user {id : Nat} (h : Gone tx ref) : Gone (tx.write (.user id) x p) ref :=
  h.write fun hk => by cases hk

theorem Gone.write_entry {userId : Nat} {resource : Resource} (h : Gone tx ref) :
    Gone (tx.write (.entry userId resource) x p) ref :=
  h.write fun hk => by cases hk

/-- The version of a user that an update works on. -/
theorem Work.current_user (h : Work site r rest entering tx rows) (htyped : Typed rows) {id : Nat}
    (hcur : tx.current rows (.user id) = some x) :
    ∃ u, x = .user u ∧ Turned site r tx.snapshot rows id u := by
  rw [Tx.current] at hcur
  cases hw : tx.written.get? (.user id) with
  | some w =>
      rw [hw, Option.some_or] at hcur
      obtain rfl := Option.some.inj hcur
      exact h.users id w hw
  | none =>
      rw [hw, Option.none_or] at hcur
      obtain ⟨u, rfl⟩ := htyped.user hcur
      exact ⟨u, rfl, .refl (user?_eq_some.mpr hcur) tx.snapshot⟩

/-- A step that writes a user. -/
theorem Work.setUser {id : Nat} {edit : Edit} {u : User}
    (h : Work site r (edit :: rest) none tx rows)
    (hedit : ∀ ref byUserId reason, edit ≠ .revoke ref byUserId reason)
    (hturned : Turned site r tx.snapshot rows id u) :
    Work site r rest none (tx.write (.user id) (.user u) p) rows := by
  obtain ⟨did, hplan, hdid⟩ := h.planned
  refine ⟨⟨did ++ [edit], ?_, fun ref byUserId reason hmem => ?_⟩,
    fun k hk => covered_write h.covered k hk, fun ref x hx => ?_, fun id' x hx => ?_,
    fun userId resource x hx => ?_, fun ref a hx ha he => ?_⟩
  · rw [List.append_assoc]
    exact hplan
  · rcases List.mem_append.mp hmem with hmem | hmem
    · exact (hdid ref byUserId reason hmem).write_user
    · exact absurd (List.mem_singleton.mp hmem).symm (hedit ref byUserId reason)
  · rw [get?_write, if_neg Key.noConfusion] at hx
    exact h.rights ref x hx
  · rw [get?_write] at hx
    split at hx
    · next hid =>
        obtain rfl := Key.user.inj hid
        obtain rfl := Option.some.inj hx
        exact ⟨u, rfl, hturned⟩
    · exact h.users id' x hx
  · rw [get?_write, if_neg Key.noConfusion] at hx
    obtain ⟨holder, rfl, hholder⟩ := h.entries userId resource x hx
    exact ⟨holder, rfl, fun ref href => (hholder ref href).imp_right Gone.write_user⟩
  · rw [get?_write, if_neg Key.noConfusion] at hx ⊢
    exact h.entered ref a hx ha he

/-- What comes next was planned. -/
theorem Work.plans {edit : Edit} (h : Work site r (edit :: rest) entering tx rows) :
    Plans site r tx.snapshot edit := by
  obtain ⟨did, hplan, -⟩ := h.planned
  exact ⟨_, hplan, List.mem_append_right did List.mem_cons_self⟩

theorem Work.writeUser {id : Nat} {kind : Kind} (h : Work site r (.user id kind :: rest) none tx rows)
    (htyped : Typed rows) (hcur : tx.current rows (.user id) = some x) :
    Work site r rest none (tx.write (.user id) (onUser kind.apply x) p) rows := by
  obtain ⟨u, rfl, hturned⟩ := h.current_user htyped hcur
  exact h.setUser (fun _ _ _ => Edit.noConfusion) (hturned.apply h.plans)

theorem Work.createUser {id : Nat} {u : User} (h : Work site r (.create u :: rest) none tx rows)
    (hfresh : tx.current rows (.user id) = none) :
    Work site r rest none (tx.write (.user id) (.user u) p) rows := by
  have hon : u.isActive = true := plan_allowed h.plans
  rw [Tx.current, Option.or_eq_none_iff] at hfresh
  refine h.setUser (fun _ _ _ => Edit.noConfusion) ⟨fun hoff => ?_, fun c hc => ?_⟩
  · rw [hon] at hoff
    cases hoff
  · rw [user?_eq_some, hfresh.2] at hc
    cases hc

theorem Work.insert {id : Nat} (h : Work site r (.insert a :: rest) none tx rows)
    (hfresh : tx.current rows (.right ⟨a.resource.store, id⟩) = none) :
    Work site r rest (some ⟨a.resource.store, id⟩)
      (tx.write (.right ⟨a.resource.store, id⟩) (.right a) p) rows := by
  obtain ⟨did, hplan, hdid⟩ := h.planned
  rw [Tx.current, Option.or_eq_none_iff] at hfresh
  have hgone : ∀ ref, Gone tx ref →
      Gone (tx.write (.right ⟨a.resource.store, id⟩) (.right a) p) ref := by
    intro ref hgone
    refine hgone.write fun hk => ?_
    obtain ⟨b, hb, -⟩ := hgone
    rw [← hk, hfresh.1] at hb
    cases hb
  refine ⟨⟨did ++ [.insert a], ?_, fun ref byUserId reason hmem => ?_⟩,
    fun k hk => covered_write h.covered k hk, fun ref x hx => ?_, fun id' x hx => ?_,
    fun userId resource x hx => ?_, fun ref b hx hb he => ?_⟩
  · rw [List.append_assoc]
    exact hplan
  · simp only [List.mem_append, List.mem_singleton, reduceCtorEq, or_false] at hmem
    exact hgone ref (hdid ref byUserId reason hmem)
  · rw [get?_write] at hx
    split at hx
    · next href =>
        obtain rfl := Key.right.inj href
        obtain rfl := Option.some.inj hx
        exact ⟨a, rfl, (plan_allowed h.plans).2.2, .inr ⟨hfresh.2, a, h.plans, rfl, .refl a⟩⟩
    · exact h.rights ref x hx
  · rw [get?_write, if_neg Key.noConfusion] at hx
    exact h.users id' x hx
  · rw [get?_write, if_neg Key.noConfusion] at hx
    obtain ⟨holder, rfl, hholder⟩ := h.entries userId resource x hx
    exact ⟨holder, rfl, fun ref href => (hholder ref href).imp_right (hgone ref)⟩
  · rw [get?_write] at hx
    rw [get?_write, if_neg Key.noConfusion]
    split at hx
    · next href => exact absurd (congrArg some (Key.right.inj href).symm) he
    · exact h.entered ref b hx hb (by simp)

/-- An index entry is taken only where it is free. -/
theorem enter_eq_some {o : Option Row} (h : enter ref o = some x) :
    x = .entry (some ref) ∧ (o = none ∨ o = some (.entry none)) := by
  unfold enter at h
  split at h
  · exact ⟨(Option.some.inj h).symm, .inl rfl⟩
  · exact ⟨(Option.some.inj h).symm, .inr rfl⟩
  · cases h

theorem Work.enter (h : Work site r rest (some ref) tx rows)
    (ha : tx.written.get? (.right ref) = some (.right a))
    (hx : enter ref (tx.current rows (.entry a.userId a.resource)) = some x) :
    Work site r rest none (tx.write (.entry a.userId a.resource) x p) rows := by
  obtain ⟨did, hplan, hdid⟩ := h.planned
  obtain ⟨rfl, hfree⟩ := enter_eq_some hx
  -- no row that is still active holds the entry
  have hwritten : ∀ holder, tx.written.get? (.entry a.userId a.resource) = some (.entry holder) →
      holder = none := by
    intro holder hw
    rw [Tx.current, hw, Option.some_or] at hfree
    rcases hfree with hfree | hfree
    · cases hfree
    · exact Row.entry.inj (Option.some.inj hfree)
  refine ⟨⟨did, hplan, fun ref byUserId reason hmem => (hdid ref byUserId reason hmem).write_entry⟩,
    fun k hk => covered_write h.covered k hk, fun ref x hx => ?_, fun id x hx => ?_,
    fun userId resource x hx => ?_, fun ref' b hb hactive _ => ?_⟩
  · rw [get?_write, if_neg Key.noConfusion] at hx
    exact h.rights ref x hx
  · rw [get?_write, if_neg Key.noConfusion] at hx
    exact h.users id x hx
  · rw [get?_write] at hx
    split at hx
    · next hkey =>
        obtain ⟨rfl, rfl⟩ := Key.entry.inj hkey
        obtain rfl := Option.some.inj hx
        refine ⟨some ref, rfl, fun ref' hrows => .inr ?_⟩
        cases hw : tx.written.get? (.entry a.userId a.resource) with
        | none =>
            rw [Tx.current, hw, Option.none_or, hrows] at hfree
            rcases hfree with hfree | hfree <;> cases hfree
        | some w =>
            obtain ⟨holder, rfl, hholder⟩ := h.entries _ _ w hw
            rcases hholder ref' hrows with heq | hgone
            · rw [hwritten holder hw] at heq
              cases heq
            · exact hgone.write_entry
    · obtain ⟨holder, rfl, hholder⟩ := h.entries userId resource x hx
      exact ⟨holder, rfl, fun ref href => (hholder ref href).imp_right Gone.write_entry⟩
  · rw [get?_write, if_neg Key.noConfusion] at hb
    rw [get?_write]
    by_cases href : ref' = ref
    · subst href
      obtain rfl := Row.right.inj (Option.some.inj (ha.symm.trans hb))
      rw [if_pos rfl]
    · have hold := h.entered ref' b hb hactive fun heq => href (Option.some.inj heq).symm
      split
      · next hkey =>
          rw [hkey] at hold
          cases hwritten _ hold
      · exact hold

theorem Work.revoke {byUserId : Nat} {reason : Option RevokeReason} {now : Time}
    (h : Work site r (.revoke ref byUserId reason :: rest) none tx rows)
    (hcur : tx.current rows (.right ref) = some (.right a)) :
    Work site r rest none (tx.write (.right ref) (.right (a.revoked byUserId reason now)) p) rows ∧
      Gone (tx.write (.right ref) (.right (a.revoked byUserId reason now)) p) ref := by
  obtain ⟨did, hplan, hdid⟩ := h.planned
  have hnew : Gone (tx.write (.right ref) (.right (a.revoked byUserId reason now)) p) ref :=
    ⟨_, by rw [get?_write, if_pos rfl], rfl⟩
  have hgone : ∀ ref', Gone tx ref' →
      Gone (tx.write (.right ref) (.right (a.revoked byUserId reason now)) p) ref' :=
    fun ref' hgone => hgone.write fun _ => ⟨_, rfl, rfl⟩
  refine ⟨⟨⟨did ++ [.revoke ref byUserId reason], ?_, fun ref' byUserId' reason' hmem => ?_⟩,
    fun k hk => covered_write h.covered k hk, fun ref' x hx => ?_, fun id x hx => ?_,
    fun userId resource x hx => ?_, fun ref' b hb hactive _ => ?_⟩, hnew⟩
  · rw [List.append_assoc]
    exact hplan
  · simp only [List.mem_append, List.mem_singleton, Edit.revoke.injEq] at hmem
    rcases hmem with hmem | ⟨rfl, -, -⟩
    · exact hgone ref' (hdid ref' byUserId' reason' hmem)
    · exact hnew
  · rw [get?_write] at hx
    split at hx
    · next hkey =>
        obtain rfl := Key.right.inj hkey
        obtain rfl := Option.some.inj hx
        refine ⟨_, rfl, ⟨rfl, rfl⟩, ?_⟩
        rw [Tx.current] at hcur
        cases hw : tx.written.get? (.right ref') with
        | some w =>
            rw [hw, Option.some_or] at hcur
            obtain rfl := Option.some.inj hcur
            obtain ⟨a', heq, -, hderived⟩ := h.rights ref' _ hw
            obtain rfl := Row.right.inj heq
            rcases hderived with ⟨c, _, _, _, hc, -, rfl⟩ | ⟨hnone, b, hb, hstore, hcont⟩
            · exact .inl ⟨c, byUserId, reason, now, hc, h.plans, rfl⟩
            · exact .inr ⟨hnone, b, hb, hstore, hcont.trans (continues_revoked a ..)⟩
        | none =>
            rw [hw, Option.none_or] at hcur
            exact .inl ⟨a, byUserId, reason, now, hcur, h.plans, rfl⟩
    · exact h.rights ref' x hx
  · rw [get?_write, if_neg Key.noConfusion] at hx
    exact h.users id x hx
  · rw [get?_write, if_neg Key.noConfusion] at hx
    obtain ⟨holder, rfl, hholder⟩ := h.entries userId resource x hx
    exact ⟨holder, rfl, fun ref' href => (hholder ref' href).imp_right (hgone ref')⟩
  · rw [get?_write] at hb
    rw [get?_write, if_neg Key.noConfusion]
    split at hb
    · obtain rfl := Row.right.inj (Option.some.inj hb)
      cases hactive
    · exact h.entered ref' b hb hactive (by simp)

/-- An index entry is given up by the row that holds it. -/
theorem leave_entry (ref : Ref) (holder : Option Ref) :
    leave ref (.entry holder) = .entry (if holder = some ref then none else holder) := by
  cases holder with
  | none => rfl
  | some h => by_cases heq : h = ref <;> simp [leave, heq]

theorem Work.leave {userId : Nat} {resource : Resource} (h : Work site r rest none tx rows)
    (hgone : Gone tx ref) (htyped : Typed rows)
    (hcur : tx.current rows (.entry userId resource) = some x) :
    Work site r rest none (tx.write (.entry userId resource) (leave ref x) p) rows := by
  obtain ⟨did, hplan, hdid⟩ := h.planned
  -- the entry, and what becomes of the row that holds it
  have hentry : ∃ holder, x = .entry holder ∧ ∀ ref',
      rows.get? (.entry userId resource) = some (.entry (some ref')) →
        holder = some ref' ∨ Gone tx ref' := by
    rw [Tx.current] at hcur
    cases hw : tx.written.get? (.entry userId resource) with
    | some w =>
        rw [hw, Option.some_or] at hcur
        obtain rfl := Option.some.inj hcur
        exact h.entries userId resource w hw
    | none =>
        rw [hw, Option.none_or] at hcur
        obtain ⟨holder, rfl⟩ := htyped.entry hcur
        refine ⟨holder, rfl, fun ref' hrows => .inl ?_⟩
        exact Row.entry.inj (Option.some.inj (hcur.symm.trans hrows))
  obtain ⟨holder, rfl, hholder⟩ := hentry
  rw [leave_entry]
  refine ⟨⟨did, hplan, fun ref byUserId reason hmem => (hdid ref byUserId reason hmem).write_entry⟩,
    fun k hk => covered_write h.covered k hk, fun ref x hx => ?_, fun id x hx => ?_,
    fun userId' resource' x hx => ?_, fun ref' b hb hactive he => ?_⟩
  · rw [get?_write, if_neg Key.noConfusion] at hx
    exact h.rights ref x hx
  · rw [get?_write, if_neg Key.noConfusion] at hx
    exact h.users id x hx
  · rw [get?_write] at hx
    split at hx
    · next hkey =>
        obtain ⟨rfl, rfl⟩ := Key.entry.inj hkey
        obtain rfl := Option.some.inj hx
        refine ⟨_, rfl, fun ref' hrows => ?_⟩
        rcases hholder ref' hrows with rfl | hgone'
        · by_cases href : ref' = ref
          · subst href
            exact .inr hgone.write_entry
          · exact .inl (if_neg fun heq => href (Option.some.inj heq))
        · exact .inr hgone'.write_entry
    · obtain ⟨holder, rfl, hholder⟩ := h.entries userId' resource' x hx
      exact ⟨holder, rfl, fun ref href => (hholder ref href).imp_right Gone.write_entry⟩
  · rw [get?_write, if_neg Key.noConfusion] at hb
    have hold := h.entered ref' b hb hactive he
    rw [get?_write]
    split
    · next hkey =>
        obtain ⟨rfl, rfl⟩ := Key.entry.inj hkey
        rw [Tx.current, hold, Option.some_or] at hcur
        obtain rfl := Row.entry.inj (Option.some.inj hcur)
        have hne : ref' ≠ ref := by
          rintro rfl
          obtain ⟨b', hb', hoff⟩ := hgone
          obtain rfl := Row.right.inj (Option.some.inj (hb.symm.trans hb'))
          rw [hactive] at hoff
          cases hoff
        rw [if_neg fun heq => hne (Option.some.inj heq)]
    · exact hold

/-- What holds of a transaction, by its phase. -/
def Protects (site : Site) (tx : Tx) (rows : Rows) : Prop :=
  match tx.phase with
  | .received _ => tx.written = .empty
  | .doing r edits => Work site r edits none tx rows
  | .entering r ref a edits =>
    Work site r edits (some ref) tx rows ∧ tx.written.get? (.right ref) = some (.right a)
  | .updating r ref was byUserId reason edits =>
    Work site r (.revoke ref byUserId reason :: edits) none tx rows ∧ .right ref ∈ tx.locks ∧
      tx.current rows (.right ref) = some (.right was)
  | .leaving r ref _ _ edits => Work site r edits none tx rows ∧ Gone tx ref
  | .stale => True
  | .done _ | .refused => False

theorem protects_stable (hrows : ∀ k ∈ tx.locks, rows'.get? k = rows.get? k)
    (h : Protects site tx rows) : Protects site tx rows' := by
  unfold Protects at h ⊢
  cases hphase : tx.phase with
  | received r =>
      simp only [hphase] at h
      exact h
  | doing r edits =>
      simp only [hphase] at h
      exact h.stable hrows
  | entering r ref a edits =>
      simp only [hphase] at h
      exact ⟨h.1.stable hrows, h.2⟩
  | updating r ref was byUserId reason edits =>
      simp only [hphase] at h
      refine ⟨h.1.stable hrows, h.2.1, ?_⟩
      rw [Tx.current, hrows _ h.2.1]
      exact h.2.2
  | leaving r ref userId resource edits =>
      simp only [hphase] at h
      exact ⟨h.1.stable hrows, h.2⟩
  | stale => trivial
  | done r | refused => simp only [hphase] at h

theorem view_of_empty (h : tx.written = .empty) : tx.view = tx.snapshot := by
  rw [Tx.view, h]
  rfl

theorem flushed_of_empty (h : tx.written = .empty) : tx.flushed rows = rows := by
  rw [Tx.flushed, h]
  rfl

/-- The edits of a request are carried out one by one. -/
theorem Work.doing {r : Request} {edits : List Edit} {input : Input} {op : Op Key Row Phase}
    (htyped : Typed rows) (h : Work site r edits none tx rows)
    (hop : next site (.doing r edits) tx.view input = some op) (hafter : tx.after rows op = some tx') :
    Protects site tx' rows := by
  cases edits with
  | nil =>
      cases input with
      | fresh id | now time | refuse => cases hop
      | proceed =>
          obtain rfl := Option.some.inj hop
          cases hafter
  | cons edit edits =>
      cases edit with
      | create u =>
          cases input with
          | proceed | now time | refuse => cases hop
          | fresh id =>
              obtain rfl := Option.some.inj hop
              obtain ⟨hnone, rfl⟩ := Tx.after_insert hafter
              exact h.createUser hnone
      | user id kind =>
          cases input with
          | fresh id | now time | refuse => cases hop
          | proceed =>
              obtain rfl := Option.some.inj hop
              obtain ⟨x, hx, rfl⟩ := Tx.after_update hafter
              exact h.writeUser htyped hx
      | insert a =>
          cases input with
          | proceed | now time | refuse => cases hop
          | fresh id =>
              obtain rfl := Option.some.inj hop
              obtain ⟨hnone, rfl⟩ := Tx.after_insert hafter
              exact ⟨h.insert hnone, by rw [get?_write, if_pos rfl]⟩
      | revoke ref byUserId reason =>
          cases input with
          | fresh id | now time | refuse => cases hop
          | proceed =>
              obtain rfl := Option.some.inj hop
              obtain rfl := Option.some.inj hafter
              cases hcur : (tx.current rows (.right ref)).filter fun _ => true with
              | none => trivial
              | some x =>
                  cases x with
                  | right was =>
                      refine ⟨?_, List.mem_cons_self, (Option.filter_eq_some_iff.mp hcur).1⟩
                      exact ⟨h.planned, fun k hk => List.mem_cons_of_mem _ (h.covered k hk),
                        h.rights, h.users, h.entries, h.entered⟩
                  | user u | entry holder => trivial

/-- **A transaction does what it has planned.** -/
theorem protects_own {input : Input} {op : Op Key Row Phase} (htyped : Typed rows)
    (h : Protects site tx rows) (hop : next site tx.phase tx.view input = some op)
    (hafter : tx.after rows op = some tx') : Protects site tx' rows := by
  unfold Protects at h
  cases hphase : tx.phase with
  | received r =>
      simp only [hphase] at h hop
      cases input with
      | fresh id | now time => cases hop
      | refuse =>
          obtain rfl := Option.some.inj hop
          cases hafter
      | proceed =>
          obtain rfl := Option.some.inj hop
          rw [view_of_empty h] at hafter
          cases hplan : plan site r tx.snapshot with
          | none =>
              rw [hplan] at hafter
              cases hafter
          | some edits =>
              rw [hplan] at hafter
              obtain rfl := Option.some.inj hafter
              exact work_of_empty h hplan
  | doing r edits =>
      simp only [hphase] at h hop
      exact h.doing htyped hop hafter
  | entering r ref a edits =>
      simp only [hphase] at h hop
      cases input with
      | fresh id | now time | refuse => cases hop
      | proceed =>
          obtain rfl := Option.some.inj hop
          obtain ⟨x, hx, rfl⟩ := Option.map_eq_some_iff.mp hafter
          exact h.1.enter h.2 hx
  | updating r ref was byUserId reason edits =>
      simp only [hphase] at h hop
      cases input with
      | fresh id | proceed | refuse => cases hop
      | now time =>
          obtain rfl := Option.some.inj hop
          obtain ⟨x, hx, rfl⟩ := Tx.after_update hafter
          obtain rfl := Option.some.inj (h.2.2.symm.trans hx)
          by_cases hactive : was.isActive = true
          · simp only [if_pos hactive]
            exact h.1.revoke h.2.2
          · simp only [if_neg hactive]
            exact (h.1.revoke h.2.2).1
  | leaving r ref userId resource edits =>
      simp only [hphase] at h hop
      cases input with
      | fresh id | now time | refuse => cases hop
      | proceed =>
          obtain rfl := Option.some.inj hop
          obtain ⟨x, hx, rfl⟩ := Tx.after_update hafter
          exact h.1.leave h.2 htyped hx
  | stale =>
      simp only [hphase] at hop
      cases input with
      | fresh id | now time | refuse => cases hop
      | proceed =>
          obtain rfl := Option.some.inj hop
          cases hafter
  | done r | refused => simp only [hphase] at h

theorem rules (site : Site) : Rules (program site) (fun sys _ => Typed sys.rows) (Protects site) where
  stable _ _ _ hrows h := protects_stable hrows h
  start _ _ _ := rfl
  own _ _ _ _ _ _ _ htyped h hop hafter := protects_own htyped h hop hafter

/-- Every write is of a row that goes on, or of a new one. -/
theorem follows_write {q : Phase} {input : Input} {k : Key} {f : Option Row → Option Row}
    (h : next site q rows input = some (.write k f p)) (y w : Row) (hw : f (some y) = some w) :
    Follows y w := by
  unfold next at h
  split at h
  · next r =>
      cases hplan : plan site r rows with
      | none =>
          rw [hplan] at h
          cases h
      | some edits =>
          rw [hplan] at h
          cases h
  · cases h
  · cases h
  · obtain ⟨-, rfl, -⟩ := Op.write.inj (Option.some.inj h)
    cases hw
  · next r id kind edits =>
      obtain ⟨-, rfl, -⟩ := Op.write.inj (Option.some.inj h)
      obtain rfl := Option.some.inj hw
      cases y with
      | user u | entry holder => trivial
      | right a => exact .refl a
  · obtain ⟨-, rfl, -⟩ := Op.write.inj (Option.some.inj h)
    cases hw
  · obtain ⟨-, rfl, -⟩ := Op.write.inj (Option.some.inj h)
    obtain ⟨rfl, hy | hy⟩ := enter_eq_some hw
    · cases hy
    · obtain rfl := Option.some.inj hy
      trivial
  · cases h
  · obtain ⟨-, rfl, -⟩ := Op.write.inj (Option.some.inj h)
    obtain rfl := Option.some.inj hw
    cases y with
    | user u | entry holder => trivial
    | right a => exact continues_revoked a _ _ _
  · obtain ⟨-, rfl, -⟩ := Op.write.inj (Option.some.inj h)
    obtain rfl := Option.some.inj hw
    cases y with
    | user u => trivial
    | right a => exact .refl a
    | entry holder =>
        rw [leave_entry]
        trivial
  · cases h
  · cases h

/-! ## commits -/

/-- A transaction commits without a write, or when all is done. -/
theorem commit_cases {input : Input} (h : Protects site tx rows)
    (hop : next site tx.phase tx.view input = some (.commit p)) :
    tx.written = .empty ∧ p = .refused ∨ ∃ r, p = .done r ∧ Work site r [] none tx rows := by
  unfold Protects at h
  cases hphase : tx.phase with
  | received r =>
      simp only [hphase] at h hop
      cases input with
      | fresh id | now time => cases hop
      | refuse =>
          cases hop
          exact .inl ⟨h, rfl⟩
      | proceed =>
          cases hplan : plan site r tx.view with
          | none =>
              simp only [next, hplan, begin] at hop
              cases hop
              exact .inl ⟨h, rfl⟩
          | some edits =>
              simp only [next, hplan, begin] at hop
              cases hop
  | doing r edits =>
      simp only [hphase] at h hop
      match edits, input with
      | [], .proceed =>
          cases hop
          exact .inr ⟨r, rfl, h⟩
      | [], .refuse | [], .fresh _ | [], .now _ => cases hop
      | .create _ :: _, .proceed | .create _ :: _, .refuse | .create _ :: _, .fresh _
      | .create _ :: _, .now _ => cases hop
      | .user _ _ :: _, .proceed | .user _ _ :: _, .refuse | .user _ _ :: _, .fresh _
      | .user _ _ :: _, .now _ => cases hop
      | .insert _ :: _, .proceed | .insert _ :: _, .refuse | .insert _ :: _, .fresh _
      | .insert _ :: _, .now _ => cases hop
      | .revoke _ _ _ :: _, .proceed | .revoke _ _ _ :: _, .refuse | .revoke _ _ _ :: _, .fresh _
      | .revoke _ _ _ :: _, .now _ => cases hop
  | entering r ref a edits | updating r ref was byUserId reason edits
  | leaving r ref userId resource edits | stale =>
      simp only [hphase] at hop
      cases input <;> cases hop
  | done r | refused => simp only [hphase] at h

/-- A right after the commit is as it was, or as the transaction has written it. -/
theorem Work.flushed_right (h : Work site r rest entering tx rows) (htyped : Typed rows)
    (hx : (tx.flushed rows).get? (.right ref) = some x) : ∃ a, x = .right a ∧
      (rows.get? (.right ref) = some (.right a) ∨
        a.Signed ∧ Derived site r tx.snapshot rows ref a) := by
  rw [Tx.get?_flushed] at hx
  cases hw : tx.written.get? (.right ref) with
  | some w =>
      rw [hw, Option.some_or] at hx
      obtain rfl := Option.some.inj hx
      obtain ⟨a, rfl, hwritten⟩ := h.rights ref w hw
      exact ⟨a, rfl, .inr hwritten⟩
  | none =>
      rw [hw, Option.none_or] at hx
      obtain ⟨a, rfl, -⟩ := htyped.right hx
      exact ⟨a, rfl, .inl hx⟩

/-- A right after the commit goes on, or is new. -/
theorem Work.right_cases (h : Work site r rest entering tx rows) (htyped : Typed rows)
    (ha : (tx.flushed rows).get? (.right ref) = some (.right a)) :
    (∃ c, rows.get? (.right ref) = some (.right c) ∧ Continues c a) ∨
      rows.get? (.right ref) = none ∧
        ∃ b, Plans site r tx.snapshot (.insert b) ∧ b.resource.store = ref.store ∧ Continues b a := by
  obtain ⟨a', heq, hold | ⟨-, ⟨c, _, _, _, hc, -, rfl⟩ | hnew⟩⟩ := h.flushed_right htyped ha
  · obtain rfl := Row.right.inj heq
    exact .inl ⟨a, hold, .refl a⟩
  · obtain rfl := Row.right.inj heq
    exact .inl ⟨c, hc, continues_revoked c ..⟩
  · obtain rfl := Row.right.inj heq
    exact .inr hnew

theorem Work.typed_flushed (h : Work site r rest entering tx rows) (htyped : Typed rows) :
    Typed (tx.flushed rows) := by
  intro k x hx
  cases k with
  | right ref =>
      obtain ⟨a, rfl, -⟩ := h.flushed_right htyped hx
      rcases h.right_cases htyped hx with ⟨c, hc, hcont⟩ | ⟨-, b, -, hstore, hcont⟩
      · obtain ⟨c', heq, hstore⟩ := htyped.right hc
        obtain rfl := Row.right.inj heq
        exact (congrArg Resource.store hcont.resource).trans hstore
      · exact (congrArg Resource.store hcont.resource).trans hstore
  | user id =>
      rw [Tx.get?_flushed] at hx
      cases hw : tx.written.get? (.user id) with
      | some w =>
          rw [hw, Option.some_or] at hx
          obtain rfl := Option.some.inj hx
          obtain ⟨u, rfl, -⟩ := h.users id w hw
          trivial
      | none =>
          rw [hw, Option.none_or] at hx
          exact htyped _ _ hx
  | entry userId resource =>
      rw [Tx.get?_flushed] at hx
      cases hw : tx.written.get? (.entry userId resource) with
      | some w =>
          rw [hw, Option.some_or] at hx
          obtain rfl := Option.some.inj hx
          obtain ⟨holder, rfl, -⟩ := h.entries userId resource w hw
          trivial
      | none =>
          rw [hw, Option.none_or] at hx
          exact htyped _ _ hx

/-- **The unique indexes hold** after a commit. -/
theorem Work.entries_flushed (h : Work site r rest none tx rows) (hentries : Entries rows) :
    Entries (tx.flushed rows) := by
  intro ref a ha hactive
  rw [Tx.get?_flushed] at ha ⊢
  cases hw : tx.written.get? (.right ref) with
  | some w =>
      rw [hw, Option.some_or] at ha
      obtain rfl := Option.some.inj ha
      rw [h.entered ref a hw hactive (by simp), Option.some_or]
  | none =>
      rw [hw, Option.none_or] at ha
      have hold := hentries ref a ha hactive
      cases hentry : tx.written.get? (.entry a.userId a.resource) with
      | none => rw [Option.none_or, hold]
      | some e =>
          obtain ⟨holder, rfl, hholder⟩ := h.entries _ _ e hentry
          rcases hholder ref hold with rfl | ⟨b, hb, -⟩
          · rw [Option.some_or]
          · rw [hw] at hb
            cases hb

end Work

/-! ## every run -/

section Runs

variable {site : Site} {sys sys' : System} {tx tx' : Tx} {i : Nat} {ref : Ref} {a b : Right}
  {r : Request}

structure Safe (site : Site) (sys : System) : Prop where
  inv : Inv (Protects site) sys
  follows : Extends Follows sys
  typed : Typed sys.rows
  entries : Entries sys.rows
  made : ∀ ref a, sys.rows.get? (.right ref) = some (.right a) → ∃ tx ∈ sys.txs, MadeBy site ref a tx
  signed : ∀ ref a, sys.rows.get? (.right ref) = some (.right a) → a.Signed
  off : ∀ id u, user? sys.rows id = some u → u.isActive = false → Off sys.txs id
  revoked : ∀ tx ∈ sys.txs, ∀ ref a, tx.snapshot.get? (.right ref) = some (.right a) →
    Disabled tx a.userId → RevokedAt sys.rows ref

theorem MadeBy.mono (h : MadeBy site ref a tx) (hc : Continues a b) : MadeBy site ref b tx where
  planned := by
    obtain ⟨r, d, hphase, hd, hcont⟩ := h.planned
    exact ⟨r, d, hphase, hd, hcont.trans hc⟩
  absent := h.absent
  authorised := h.authorised.mono hc

/-- A transaction that is under way has not committed. -/
theorem Protects.not_done {rows : Rows} (h : Protects site tx rows) (r : Request) :
    tx.phase ≠ .done r := by
  intro hdone
  simp only [Protects, hdone] at h

/-- A transaction that is over stays as it is. -/
theorem mem_set_of_done (h : Inv (Protects site) sys) (hi : sys.txs[i]? = some tx)
    (hlive : tx.live = true) {u : Tx} (hu : u ∈ sys.txs) (hdone : u.phase = .done r) (v : Tx) :
    u ∈ sys.txs.set i v := by
  obtain ⟨j, hj⟩ := List.mem_iff_getElem?.mp hu
  have hne : j ≠ i := by
    rintro rfl
    obtain rfl := Option.some.inj (hi.symm.trans hj)
    exact (h.held j tx hi hlive).not_done r hdone
  refine List.mem_iff_getElem?.mpr ⟨j, ?_⟩
  rw [List.getElem?_set_ne (Ne.symm hne), hj]

theorem Off.set {userId : Nat} (h : Off sys.txs userId) (hinv : Inv (Protects site) sys)
    (hi : sys.txs[i]? = some tx) (hlive : tx.live = true) (hsnapshot : tx'.snapshot = tx.snapshot) :
    Off (sys.txs.set i tx') userId := by
  rcases h with ⟨d, hd, actorUserId, hphase⟩ | hnever
  · exact .inl ⟨d, mem_set_of_done hinv hi hlive hd hphase tx', actorUserId, hphase⟩
  · refine .inr fun u hu => ?_
    rcases List.mem_or_eq_of_mem_set hu with hold | rfl
    · exact hnever u hold
    · rw [ActiveIn, hsnapshot]
      exact hnever tx (List.mem_of_getElem? hi)

/-- What is not committed no transaction has seen. -/
theorem not_seen (h : Extends Follows sys) {k : Key} (hk : sys.rows.get? k = none) {u : Tx}
    (hu : u ∈ sys.txs) : u.snapshot.get? k = none := by
  cases hs : u.snapshot.get? k with
  | none => rfl
  | some x =>
      obtain ⟨j, hj⟩ := List.mem_iff_getElem?.mp hu
      obtain ⟨y, hy, -⟩ := h.snapshot j u hj k x hs
      rw [hk] at hy
      cases hy

/-- The committed row that a seen one has become. -/
theorem seen_right (h : Safe site sys) {u : Tx} (hu : u ∈ sys.txs) {x : Row}
    (hx : u.snapshot.get? (.right ref) = some x) : ∃ a b, x = .right a ∧
      sys.rows.get? (.right ref) = some (.right b) ∧ Continues a b := by
  obtain ⟨j, hj⟩ := List.mem_iff_getElem?.mp hu
  obtain ⟨y, hy, hfollows⟩ := h.follows.snapshot j u hj _ x hx
  obtain ⟨b, rfl, -⟩ := h.typed.right hy
  cases x with
  | right a => exact ⟨a, b, rfl, hy, hfollows⟩
  | user v | entry holder => exact hfollows.elim

theorem Work.user_flushed {rest : List Edit} {entering : Option Ref} {rows : Rows}
    (h : Work site r rest entering tx rows) {id : Nat} {u : User}
    (hu : user? (tx.flushed rows) id = some u) : Turned site r tx.snapshot rows id u := by
  rw [user?_eq_some, Tx.get?_flushed] at hu
  cases hw : tx.written.get? (.user id) with
  | some w =>
      rw [hw, Option.some_or] at hu
      obtain rfl := Option.some.inj hu
      obtain ⟨v, heq, hturned⟩ := h.users id _ hw
      obtain rfl := Row.user.inj heq
      exact hturned
  | none =>
      rw [hw, Option.none_or] at hu
      exact .refl (user?_eq_some.mpr hu) tx.snapshot

/-- The state after a transaction has committed. -/
abbrev committed (sys : System) (i : Nat) (tx : Tx) (r : Request) : System :=
  { rows := tx.flushed sys.rows, txs := sys.txs.set i (tx.ended (.done r)) }

theorem mem_committed (hi : sys.txs[i]? = some tx) : tx.ended (.done r) ∈ (committed sys i tx r).txs :=
  List.mem_set (List.getElem?_eq_some_iff.mp hi).1 _

/-- Revoked rows stay so. -/
theorem RevokedAt.flushed (h : RevokedAt sys.rows ref) (hfollows : Extends Follows sys)
    (hi : sys.txs[i]? = some tx) : RevokedAt (tx.flushed sys.rows) ref := by
  obtain ⟨b, hb, hoff⟩ := h
  obtain ⟨x, hx, hgoes⟩ := hfollows.flushed follows_refl hi hb
  cases x with
  | right c =>
      refine ⟨c, hx, Bool.eq_false_iff.mpr fun hon => ?_⟩
      rw [hgoes.active hon] at hoff
      cases hoff
  | user u | entry holder => exact hgoes.elim

/-- **Whatever a disabling has seen it revokes.** -/
theorem Safe.revoked_disabled (h : Safe site sys) (hi : sys.txs[i]? = some tx)
    {actorUserId : Nat} (ha : tx.snapshot.get? (.right ref) = some (.right a))
    (hwork : Work site (.user actorUserId (.disableUser a.userId)) [] none tx sys.rows) :
    RevokedAt (tx.flushed sys.rows) ref := by
  by_cases hactive : a.isActive = true
  · obtain ⟨did, hplan, hdid⟩ := hwork.planned
    rw [List.append_nil] at hplan
    obtain ⟨reason, hrevoke⟩ := plan_disable hplan ha rfl hactive
    obtain ⟨b, hb, hoff⟩ := hdid ref actorUserId reason hrevoke
    exact ⟨b, by rw [Tx.get?_flushed, hb, Option.some_or], hoff⟩
  · -- it was revoked before
    obtain ⟨a', b, heq, hb, hcont⟩ := seen_right h (List.mem_of_getElem? hi) ha
    obtain rfl := Row.right.inj heq
    have hoff : b.isActive = false := Bool.eq_false_iff.mpr fun hon => hactive (hcont.active hon)
    exact RevokedAt.flushed ⟨b, hb, hoff⟩ h.follows hi

theorem Safe.revoked_committed (h : Safe site sys) (hi : sys.txs[i]? = some tx)
    (hwork : Work site r [] none tx sys.rows) {u : Tx} (hu : u ∈ (committed sys i tx r).txs)
    (ha : u.snapshot.get? (.right ref) = some (.right a)) (hdisabled : Disabled u a.userId) :
    RevokedAt (committed sys i tx r).rows ref := by
  rcases List.mem_or_eq_of_mem_set hu with hold | rfl
  · exact (h.revoked u hold ref a ha hdisabled).flushed h.follows hi
  · obtain ⟨actorUserId, hphase⟩ := hdisabled
    obtain rfl := Phase.done.inj hphase
    exact h.revoked_disabled hi ha hwork

theorem Safe.off_committed (h : Safe site sys) (hi : sys.txs[i]? = some tx) (hlive : tx.live = true)
    (hwork : Work site r [] none tx sys.rows) {id : Nat} {u : User}
    (hu : user? (tx.flushed sys.rows) id = some u) (hoff : u.isActive = false) :
    Off (committed sys i tx r).txs id := by
  rcases (hwork.user_flushed hu).off hoff with ⟨c, hc, hoff⟩ | hplans
  · exact (h.off id c hc hoff).set h.inv hi hlive rfl
  · obtain ⟨actorUserId, rfl⟩ := plan_allowed hplans
    exact .inl ⟨_, mem_committed hi, actorUserId, rfl⟩

/-- Whoever has made a row of the new state. -/
theorem Safe.made_committed (h : Safe site sys) (hi : sys.txs[i]? = some tx) (hlive : tx.live = true)
    (hwork : Work site r [] none tx sys.rows)
    (ha : (tx.flushed sys.rows).get? (.right ref) = some (.right a)) :
    ∃ u ∈ (committed sys i tx r).txs, MadeBy site ref a u := by
  rcases hwork.right_cases h.typed ha with ⟨c, hc, hcont⟩ | ⟨hnone, b, hb, -, hcont⟩
  · obtain ⟨u, hu, hmade⟩ := h.made ref c hc
    obtain ⟨q, b, hq, -⟩ := hmade.planned
    exact ⟨u, mem_set_of_done h.inv hi hlive hu hq _, hmade.mono hcont⟩
  · have hnew : tx.snapshot.get? (.right ref) = none :=
      not_seen h.follows hnone (List.mem_of_getElem? hi)
    exact ⟨_, mem_committed hi, ⟨r, b, rfl, hb, hcont⟩, hnew, (plan_allowed hb).1.mono hcont⟩

theorem Safe.signed_committed (h : Safe site sys) (hwork : Work site r [] none tx sys.rows)
    (ha : (tx.flushed sys.rows).get? (.right ref) = some (.right a)) : a.Signed := by
  obtain ⟨a', heq, hold | ⟨hsigned, -⟩⟩ := hwork.flushed_right h.typed ha
  · obtain rfl := Row.right.inj heq
    exact h.signed ref a hold
  · obtain rfl := Row.right.inj heq
    exact hsigned

theorem Safe.quiet (h : Safe site sys) (hinv : Inv (Protects site) (sys.set i tx'))
    (hfollows : Extends Follows (sys.set i tx')) (hi : sys.txs[i]? = some tx)
    (hlive : tx.live = true) (hsnapshot : tx'.snapshot = tx.snapshot)
    (hphase : ∀ r, tx'.phase ≠ .done r) : Safe site (sys.set i tx') where
  inv := hinv
  follows := hfollows
  typed := h.typed
  entries := h.entries
  made ref a ha := by
    obtain ⟨u, hu, hmade⟩ := h.made ref a ha
    obtain ⟨q, b, hq, -⟩ := hmade.planned
    exact ⟨u, mem_set_of_done h.inv hi hlive hu hq tx', hmade⟩
  signed := h.signed
  off id u hu hoff := (h.off id u hu hoff).set h.inv hi hlive hsnapshot
  revoked u hu ref a ha hdisabled := by
    rcases List.mem_or_eq_of_mem_set hu with hold | rfl
    · exact h.revoked u hold ref a ha hdisabled
    · obtain ⟨actorUserId, hdone⟩ := hdisabled
      exact absurd hdone (hphase _)

theorem safe_step {act : Action Request Input} (h : Safe site sys)
    (hstep : step site sys act = some sys') : Safe site sys' := by
  have hinv : Inv (Protects site) sys' := inv_step (rules site) h.inv h.typed hstep
  have hfollows : Extends Follows sys' := extends_step follows_refl follows_trans
    (fun _ _ _ _ _ _ hop => follows_write hop) h.inv h.follows hstep
  cases step_cases hstep with
  | start request =>
      refine ⟨hinv, hfollows, h.typed, h.entries, fun ref a ha => ?_, h.signed,
        fun id u hu hoff => ?_, fun v hv ref a ha hdisabled => ?_⟩
      · obtain ⟨v, hv, hmade⟩ := h.made ref a ha
        exact ⟨v, List.mem_append_left _ hv, hmade⟩
      · rcases h.off id u hu hoff with ⟨d, hd, hdisabled⟩ | hnever
        · exact .inl ⟨d, List.mem_append_left _ hd, hdisabled⟩
        · refine .inr fun v hv => ?_
          rcases List.mem_append.mp hv with hold | hnew
          · exact hnever v hold
          · rw [List.mem_singleton.mp hnew]
            rintro ⟨w, hw, hon⟩
            obtain rfl := Option.some.inj (hu.symm.trans hw)
            rw [hon] at hoff
            cases hoff
      · rcases List.mem_append.mp hv with hold | hnew
        · exact h.revoked v hold ref a ha hdisabled
        · obtain ⟨actorUserId, hdone⟩ := hdisabled
          rw [List.mem_singleton.mp hnew] at hdone
          cases hdone
  | moves hi hlive hop hwaits hafter =>
      next i input tx tx' op =>
      have hframe := frame_after hafter
      have hi' : (sys.set i tx').txs[i]? = some tx' := by rw [System.set, get?_set hi, if_pos rfl]
      have hheld := hinv.held i tx' hi' (hframe.2.trans hlive)
      exact h.quiet hinv hfollows hi hlive hframe.1 hheld.not_done
  | ends hi hlive =>
      exact h.quiet hinv hfollows hi hlive rfl (h.inv.held _ _ hi hlive).not_done
  | commits hi hlive hop =>
      next i input tx p =>
      rcases commit_cases (h.inv.held i tx hi hlive) hop with ⟨hempty, rfl⟩ | ⟨r, rfl, hwork⟩
      · rw [flushed_of_empty hempty] at hinv hfollows ⊢
        exact h.quiet hinv hfollows hi hlive rfl fun _ => Phase.noConfusion
      · exact ⟨hinv, hfollows, hwork.typed_flushed h.typed, hwork.entries_flushed h.entries,
          fun ref a ha => h.made_committed hi hlive hwork ha,
          fun ref a ha => h.signed_committed hwork ha,
          fun id u hu hoff => h.off_committed hi hlive hwork hu hoff,
          fun u hu ref a ha hdisabled => h.revoked_committed hi hwork hu ha hdisabled⟩

/-- Only users are there at the start. -/
theorem get?_start (users : Dict Nat User) {k : Key} {x : Row}
    (h : (start users).rows.get? k = some x) : ∃ id u, k = .user id ∧ x = .user u := by
  cases k with
  | user id =>
      rcases Dict.mem_of_get?_foldl_set h with ⟨e, -, hx⟩ | hx
      · exact ⟨id, e.2, rfl, hx.symm⟩
      · cases hx
  | right ref | entry userId resource =>
      rw [start, Dict.get?_foldl_set_of_ne fun e _ => Key.noConfusion] at h
      cases h

theorem safe_start (site : Site) (users : Dict Nat User) : Safe site (start users) where
  inv := .start rfl
  follows := .start rfl
  typed k x hx := by
    obtain ⟨id, u, rfl, rfl⟩ := get?_start users hx
    trivial
  entries ref a ha := by
    obtain ⟨id, u, hk, -⟩ := get?_start users ha
    cases hk
  made ref a ha := by
    obtain ⟨id, u, hk, -⟩ := get?_start users ha
    cases hk
  signed ref a ha := by
    obtain ⟨id, u, hk, -⟩ := get?_start users ha
    cases hk
  off id u _ _ := .inr fun tx htx => by cases htx
  revoked tx htx := by cases htx

theorem Safe.governed (h : Safe site sys) : Governed site sys where
  unique ref ref' a b ha hb hactive hactive' huser hresource := by
    have hentry := h.entries ref a ha hactive
    rw [huser, hresource, h.entries ref' b hb hactive'] at hentry
    exact (Option.some.inj (Row.entry.inj (Option.some.inj hentry))).symm
  made := h.made
  signed := h.signed

/-- What a commit does to a row. -/
theorem Safe.keeps_committed (h : Safe site sys) (hi : sys.txs[i]? = some tx) (hlive : tx.live = true)
    (hwork : Work site r [] none tx sys.rows) : Keeps site sys (committed sys i tx r) := by
  intro ref a ha
  obtain ⟨x, hx, -⟩ := h.follows.flushed follows_refl hi ha
  obtain ⟨b, rfl, hold | ⟨-, ⟨c, byUserId, reason, time, hc, hplans, rfl⟩ | ⟨hnone, -⟩⟩⟩ :=
    hwork.flushed_right h.typed hx
  · exact ⟨b, hx, .inl (Row.right.inj (Option.some.inj (hold.symm.trans ha)))⟩
  · obtain rfl := Row.right.inj (Option.some.inj (hc.symm.trans ha))
    have hi' : (committed sys i tx r).txs[i]? = some (tx.ended (.done r)) := by
      rw [get?_set hi, if_pos rfl]
    exact ⟨_, hx, .inr ⟨tx, r, byUserId, reason, time, ⟨i, hi, hlive, hi'⟩, plan_allowed hplans,
      hplans, rfl⟩⟩
  · rw [hnone] at ha
    cases ha

theorem keeps_step {act : Action Request Input} (h : Safe site sys)
    (hstep : step site sys act = some sys') : Keeps site sys sys' := by
  cases step_cases hstep with
  | start request => exact fun ref a ha => ⟨a, ha, .inl rfl⟩
  | moves hi hlive hop hwaits hafter => exact fun ref a ha => ⟨a, ha, .inl rfl⟩
  | ends hi hlive => exact fun ref a ha => ⟨a, ha, .inl rfl⟩
  | commits hi hlive hop =>
      next i input tx p =>
      rcases commit_cases (h.inv.held i tx hi hlive) hop with ⟨hempty, rfl⟩ | ⟨r, rfl, hwork⟩
      · rw [flushed_of_empty hempty]
        exact fun ref a ha => ⟨a, ha, .inl rfl⟩
      · exact h.keeps_committed hi hlive hwork

/-- **Access is governed.**  However the requests interleave, fail or are rolled back: a user has one
active row for an account or a server, each row was inserted by a request that was allowed to as far
as it saw, and a row changes only where a request commits that has seen it active and revokes it. -/
theorem governed_run (site : Site) (users : Dict Nat User) (acts : List (Action Request Input)) :
    Along (step site) (fun sys _ sys' => Governed site sys' ∧ Keeps site sys sys') (start users) acts :=
  along_of_keeps (I := Safe site)
    (fun _ _ _ h hs => ⟨safe_step h hs, (safe_step h hs).governed, keeps_step h hs⟩)
    (safe_start site users) acts

/-- Two revocations of a link overlap: both commit, and the second signs it anew. -/
def signedTwice : List (Action Request Input) :=
  [.start (.user 2 (.verifyChallenge 7)), .turn 0 .proceed, .turn 0 (.fresh 3), .turn 0 .proceed,
   .turn 0 .proceed, .start (.user 2 (.revokeLink 3 .self)),
   .start (.user 1 (.revokeLink 3 .adminForce)), .turn 1 .proceed, .turn 1 .proceed,
   .turn 1 (.now 60), .turn 1 .proceed, .turn 1 .proceed, .turn 2 .proceed, .turn 2 .proceed,
   .turn 2 (.now 61), .turn 2 .proceed]

example : ((exec (step ⟨fun _ => 5, fun _ => 1⟩)
      (start ((Dict.empty.set 1 ⟨1, .labAdmin, true⟩).set 2 ⟨1, .user, true⟩)) signedTwice).bind
    (right? ·.rows ⟨.accountLink, 3⟩)).map (fun a => (a.revokedByUserId, a.revokeReason)) =
      some (some 1, some .adminForce) := by
  decide +kernel

/-- Who gave an access to himself was active when the request began. -/
theorem MadeBy.activeIn (h : MadeBy site ref a tx) (hself : a.byUserId = a.userId) :
    ActiveIn tx a.userId := by
  obtain ⟨giver, hgiver, hactive, -⟩ := h.authorised
  exact ⟨giver, hself ▸ hgiver, hactive⟩

theorem Safe.overlapped (h : Safe site sys) {u : User}
    (ha : sys.rows.get? (.right ref) = some (.right a)) (hactive : a.isActive = true)
    (hu : user? sys.rows a.userId = some u) (hoff : u.isActive = false) :
    Overlapped site sys ref a where
  made := by
    obtain ⟨tx, htx, hmade⟩ := h.made ref a ha
    exact ⟨tx, htx, hmade, hmade.activeIn⟩
  disabled := h.off a.userId u hu hoff
  unseen tx htx hdisabled := by
    cases hs : tx.snapshot.get? (.right ref) with
    | none => rfl
    | some x =>
        obtain ⟨s, b, rfl, hb, hcont⟩ := seen_right h htx hs
        obtain rfl := Row.right.inj (Option.some.inj (hb.symm.trans ha))
        rw [hcont.userId] at hdisabled
        obtain ⟨c, hc, hrevoked⟩ := h.revoked tx htx ref s hs hdisabled
        obtain rfl := Row.right.inj (Option.some.inj (hc.symm.trans ha))
        rw [hactive] at hrevoked
        cases hrevoked

/-- A commit that reactivates a user writes no right. -/
theorem Work.rights_reactivated (h : Work site r [] none tx sys.rows) {id : Nat} {u u' : User}
    (hu : user? sys.rows id = some u) (hoff : u.isActive = false)
    (hu' : user? (tx.flushed sys.rows) id = some u') (hon : u'.isActive = true) (ref : Ref) :
    (tx.flushed sys.rows).get? (.right ref) = sys.rows.get? (.right ref) := by
  obtain ⟨actorUserId, rfl⟩ := plan_allowed ((h.user_flushed hu').on u hu hoff hon)
  rw [Tx.get?_flushed]
  cases hw : tx.written.get? (.right ref) with
  | none => rw [Option.none_or]
  | some x =>
      obtain ⟨a, rfl, -, ⟨c, _, _, _, -, hplans, -⟩ | ⟨-, b, hplans, -⟩⟩ := h.rights ref x hw
      · cases plan_reactivate hplans
      · cases plan_reactivate hplans

theorem reactivated_step {act : Action Request Input} (h : Safe site sys)
    (hstep : step site sys act = some sys') {id : Nat} {u u' : User}
    (hu : user? sys.rows id = some u) (hoff : u.isActive = false)
    (hu' : user? sys'.rows id = some u') (hon : u'.isActive = true) (ref : Ref) :
    sys'.rows.get? (.right ref) = sys.rows.get? (.right ref) := by
  cases step_cases hstep with
  | start request => rfl
  | moves hi hlive hop hwaits hafter => rfl
  | ends hi hlive => rfl
  | commits hi hlive hop =>
      next i input tx p =>
      rcases commit_cases (h.inv.held i tx hi hlive) hop with ⟨hempty, rfl⟩ | ⟨r, rfl, hwork⟩
      · rw [flushed_of_empty hempty]
      · exact hwork.rights_reactivated hu hoff hu' hon ref

/-- **Disabling takes access away.**  In every interleaving, whatever a disabling has seen of the
user's access is revoked from then on, and so a disabled user has no active row but those that no
disabling could see; one that he established himself goes back to a request that began while he was
active.  Reactivation brings none back. -/
theorem overlapped_run (site : Site) (users : Dict Nat User) (acts : List (Action Request Input)) :
    Along (step site) (fun sys _ sys' => Cascades site sys sys') (start users) acts :=
  along_of_keeps (I := Safe site)
    (fun _ _ _ h hs => ⟨safe_step h hs, (safe_step h hs).revoked,
      fun _ _ _ ha hactive hu hoff => (safe_step h hs).overlapped ha hactive hu hoff,
      fun _ _ _ hu hoff hu' hon => reactivated_step h hs hu hoff hu' hon⟩)
    (safe_start site users) acts

/-- User 2 is disabled while the agent checks his signature. -/
def underWay : List (Action Request Input) :=
  [.start (.user 2 (.verifyChallenge 7)), .start (.user 1 (.disableUser 2)), .turn 1 .proceed,
   .turn 1 .proceed, .turn 1 .proceed, .turn 0 .proceed, .turn 0 (.fresh 3), .turn 0 .proceed,
   .turn 0 .proceed]

example : (exec (step ⟨fun _ => 5, fun _ => 1⟩)
      (start ((Dict.empty.set 1 ⟨1, .labAdmin, true⟩).set 2 ⟨1, .user, true⟩)) underWay).map
    (fun sys => ((user? sys.rows 2).map (·.isActive),
      (right? sys.rows ⟨.accountLink, 3⟩).map (·.isActive))) = some (some false, some true) := by
  decide +kernel

end Runs

end Access

end CoreLab
