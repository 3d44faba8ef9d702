import CoreLab.GroupCancel
import CoreLab.Lib.Transactions

/-!
# CoreLab.LastAdmin

Changing roles, disabling and reactivating users, each in a transaction of its
own: the target is read from the snapshot, and where it looks like an active admin
there, the active admins are counted under locks before it is written.

* `protects_own` — a transaction that counted holds an admin that stays;
* `admin_run` — the lab keeps an active admin, as long as no one that was
  promoted meanwhile is disabled without a count.
-/

namespace CoreLab

open Relational Transition Transactions

namespace LastAdmin

/-- The columns of `user` that count here. -/
structure User where
  labId : Nat
  role : UserRole
  isActive : Bool
deriving DecidableEq, Repr

/-- The rows that `_ensure_at_least_one_active_admin` selects. -/
def User.isActiveAdmin (labId : Nat) (u : User) : Bool :=
  u.labId = labId && u.role = .labAdmin && u.isActive

/-- The three requests. -/
inductive Kind where
  | changeRole (role : UserRole)
  | disable
  | reactivate
deriving DecidableEq, Repr

/-- The column that is written. -/
def Kind.apply : Kind → User → User
  | changeRole role, u => { u with role := role }
  | disable, u => { u with isActive := false }
  | reactivate, u => { u with isActive := true }

/-- The admins are counted before the user is written. -/
def Kind.counts : Kind → User → Bool
  | changeRole role, u => u.role = .labAdmin && role ≠ .labAdmin
  | disable, u => u.isActive && u.role = .labAdmin
  | reactivate, _ => false

/-- Nobody may change the own role or disable oneself. -/
def Kind.refusesSelf : Kind → Bool
  | changeRole _ | disable => true
  | reactivate => false

structure Request where
  kind : Kind
  actorUserId : Nat
  userId : Nat
deriving DecidableEq, Repr

/-- Where a request is. -/
inductive Phase where
  | received (r : Request)
  /-- In the locking query of `_ensure_at_least_one_active_admin`. -/
  | counting (r : Request) (labId : Nat) (visited found : List Nat)
  | counted (r : Request) (labId : Nat) (found : List Nat)
  /-- About to flush; `remaining` are the locked admins, if they were counted. -/
  | writing (r : Request) (labId : Nat) (remaining : List Nat)
  | written (r : Request) (labId : Nat) (remaining : List Nat)
  /-- Committed. -/
  | done (r : Request)
  | refused
deriving DecidableEq, Repr

/-- What a request learns: the row that its query visits, or nothing. -/
abbrev Input := Option Nat

abbrev System := Transactions.System Nat User Phase

/-- `get_current_user`, `require_role` and the service function up to the guard. -/
def receive (r : Request) (users : Dict Nat User) : Op Nat User Phase :=
  match users.get? r.actorUserId, users.get? r.userId with
  | some actor, some user =>
    if !actor.isActive || actor.role ≠ .labAdmin then .commit .refused
    else if r.kind.refusesSelf && r.actorUserId = r.userId then .commit .refused
    else if user.labId ≠ actor.labId then .commit .refused
    else if r.kind.counts user then .goto (.counting r actor.labId [] [])
    -- an assignment that changes nothing is not flushed
    else if r.kind.apply user = user then .commit (.done r)
    else .goto (.writing r actor.labId [])
  | _, _ => .commit .refused

/-- The steps of `change_role`, `disable_user` and `reactivate_user`. -/
def next : Phase → Dict Nat User → Input → Option (Op Nat User Phase)
  | .received r, users, none => some (receive r users)
  | .counting r labId visited found, _, some id =>
    if id ∈ visited then none
    else some <| .lock id (·.isActiveAdmin labId) fun
      | none => .counting r labId (id :: visited) found
      | some _ => .counting r labId (id :: visited) (found ++ [id])
  | .counting r labId visited found, _, none => some (.endScan visited (.counted r labId found))
  | .counted r labId found, _, none =>
    let remaining := found.filter (· ≠ r.userId)
    -- `LastAdminError`
    if remaining.isEmpty then some (.commit .refused) else some (.goto (.writing r labId remaining))
  | .writing r labId remaining, _, none =>
    some (.update r.userId r.kind.apply (.written r labId remaining))
  | .written r _ _, _, none => some (.commit (.done r))
  | _, _, _ => none

def program : Program Nat User Phase Request Input := ⟨.received, next⟩

/-- One step. -/
def step : System → Action Request Input → Option System := System.step program

/-! ## the property and its condition -/

/-- The lab has an active admin. -/
def HasAdmin (labId : Nat) (users : Dict Nat User) : Prop :=
  ∃ id u, users.get? id = some u ∧ u.isActiveAdmin labId = true

/-- The write takes no active admin away. -/
def keepsAdmin (kind : Kind) (u : User) : Bool :=
  !u.isActiveAdmin u.labId || (kind.apply u).isActiveAdmin u.labId

/-- A request that skipped the count takes no active admin away. -/
def noticed (sys : System) : Action Request Input → Bool
  | .turn i _ => sys.txs[i]?.all fun tx =>
    match tx.phase with
    | .writing r _ [] => (sys.rows.get? r.userId).all (keepsAdmin r.kind)
    | _ => true
  | .start _ | .kill _ => true

/-! ## what a transaction holds -/

abbrev Tx := Transactions.Tx Nat User Phase

/-- Nothing is written yet. -/
def Clean (tx : Tx) : Prop := ∀ id, tx.written.get? id = none

/-- The target is of the lab, as the transaction has read it. -/
def OfLab (tx : Tx) (r : Request) (labId : Nat) : Prop :=
  ∃ u, tx.snapshot.get? r.userId = some u ∧ u.labId = labId

/-- Active admins of the lab, under locks. -/
def Locked (tx : Tx) (users : Dict Nat User) (labId : Nat) (found : List Nat) : Prop :=
  ∀ id ∈ found, id ∈ tx.locks ∧ ∃ u, users.get? id = some u ∧ u.isActiveAdmin labId = true

/-- What a transaction has written: its target only, which stays an active admin if no
other ones are locked. -/
structure Wrote (tx : Tx) (users : Dict Nat User) (r : Request) (remaining : List Nat) : Prop where
  target : ∀ id, tx.written.get? id ≠ none → id = r.userId
  locked : r.userId ∈ tx.locks
  kept : remaining = [] → ∀ u w, users.get? r.userId = some u → tx.written.get? r.userId = some w →
    u.isActiveAdmin u.labId = true → w.isActiveAdmin u.labId = true

/-- What holds of a transaction, by its phase. -/
def Protects (tx : Tx) (users : Dict Nat User) : Prop :=
  match tx.phase with
  | .received _ => Clean tx
  | .counting r labId _ found | .counted r labId found =>
    Clean tx ∧ OfLab tx r labId ∧ Locked tx users labId found
  | .writing r labId remaining =>
    Clean tx ∧ OfLab tx r labId ∧ Locked tx users labId remaining ∧ r.userId ∉ remaining
  | .written r labId remaining =>
    Wrote tx users r remaining ∧ OfLab tx r labId ∧ Locked tx users labId remaining ∧
      r.userId ∉ remaining
  | .done _ | .refused => False

section Steps

variable {tx : Tx} {users users' : Dict Nat User} {r : Request} {labId : Nat} {found : List Nat}

theorem Locked.stable (h : Locked tx users labId found)
    (hrows : ∀ id ∈ tx.locks, users'.get? id = users.get? id) : Locked tx users' labId found := by
  intro id hid
  obtain ⟨hlock, u, hu, hadmin⟩ := h id hid
  exact ⟨hlock, u, (hrows id hlock).trans hu, hadmin⟩

theorem Wrote.stable (h : Wrote tx users r found)
    (hrows : ∀ id ∈ tx.locks, users'.get? id = users.get? id) : Wrote tx users' r found :=
  ⟨h.target, h.locked, fun hnone u w hu hw =>
    h.kept hnone u w ((hrows r.userId h.locked).symm.trans hu) hw⟩

/-- What a transaction holds depends on the rows it has locked. -/
theorem protects_stable (hrows : ∀ id ∈ tx.locks, users'.get? id = users.get? id)
    (h : Protects tx users) : Protects tx users' := by
  unfold Protects at h ⊢
  cases hphase : tx.phase with
  | received r => simpa only [hphase] using h
  | counting r labId visited found =>
      simp only [hphase] at h
      exact ⟨h.1, h.2.1, h.2.2.stable hrows⟩
  | counted r labId found =>
      simp only [hphase] at h
      exact ⟨h.1, h.2.1, h.2.2.stable hrows⟩
  | writing r labId remaining =>
      simp only [hphase] at h
      exact ⟨h.1, h.2.1, h.2.2.1.stable hrows, h.2.2.2⟩
  | written r labId remaining =>
      simp only [hphase] at h
      exact ⟨h.1.stable hrows, h.2.1, h.2.2.1.stable hrows, h.2.2.2⟩
  | done r | refused => simp only [hphase] at h

/-- Nothing is written before the target is. -/
theorem view_of_clean (h : Clean tx) (id : Nat) : tx.view.get? id = tx.snapshot.get? id := by
  rw [Tx.get?_view, h id, Option.none_or]

theorem current_of_clean (h : Clean tx) (id : Nat) : tx.current users id = users.get? id := by
  rw [Tx.current, h id, Option.none_or]

/-- What the guards of a request decide. -/
theorem receive_cases {op : Op Nat User Phase} (h : receive r users = op) :
    op = .commit .refused ∨ op = .commit (.done r) ∨
      ∃ labId, (∃ u, users.get? r.userId = some u ∧ u.labId = labId) ∧
        (op = .goto (.counting r labId [] []) ∨ op = .goto (.writing r labId [])) := by
  unfold receive at h
  split at h
  · next actor user hactor huser =>
      split at h
      · exact Or.inl h.symm
      · split at h
        · exact Or.inl h.symm
        · split at h
          · exact Or.inl h.symm
          · next hlab =>
              rw [not_not] at hlab
              split at h
              · exact Or.inr (Or.inr ⟨_, ⟨user, huser, hlab⟩, Or.inl h.symm⟩)
              · split at h
                · exact Or.inr (Or.inl h.symm)
                · exact Or.inr (Or.inr ⟨_, ⟨user, huser, hlab⟩, Or.inr h.symm⟩)
  · exact Or.inl h.symm

/-- The visit of a row keeps what was found, and adds the row if it is an active admin. -/
theorem Locked.visit (h : Locked tx users labId found) (hclean : Clean tx) {id : Nat} {u : User}
    (hu : (tx.current users id).filter (·.isActiveAdmin labId) = some u) (p : Phase) :
    Locked (tx.lock id p) users labId (found ++ [id]) := by
  rw [current_of_clean hclean, Option.filter_eq_some_iff] at hu
  intro k hk
  rcases List.mem_append.mp hk with hold | hnew
  · obtain ⟨hlock, hadmin⟩ := h k hold
    exact ⟨List.mem_cons_of_mem id hlock, hadmin⟩
  · obtain rfl := List.mem_singleton.mp hnew
    exact ⟨List.mem_cons_self, u, hu⟩

/-- The flush of the target. -/
theorem wrote_update (hclean : Clean tx) {u : User} (hu : users.get? r.userId = some u)
    (hkept : found = [] → keepsAdmin r.kind u = true) (p : Phase) :
    Wrote (tx.write r.userId (r.kind.apply u) p) users r found := by
  have hget : ∀ id, (tx.write r.userId (r.kind.apply u) p).written.get? id =
      if id = r.userId then some (r.kind.apply u) else none := by
    intro id
    rw [Tx.write, Dict.get?_set, hclean id]
  refine ⟨fun id hid => ?_, List.mem_cons_self, fun hnone v w hv hw hadmin => ?_⟩
  · by_contra hne
    rw [hget, if_neg hne] at hid
    exact hid rfl
  · rw [hget, if_pos rfl] at hw
    obtain rfl := Option.some.inj hw
    obtain rfl := Option.some.inj (hu.symm.trans hv)
    have hkeeps := hkept hnone
    rw [keepsAdmin, hadmin] at hkeeps
    simpa using hkeeps

/-- **A transaction protects the lab** by what it has locked. -/
theorem protects_own {sys : System} {i : Nat} {input : Input} {tx' : Tx} {op : Op Nat User Phase}
    (hi : sys.txs[i]? = some tx) (hok : noticed sys (.turn i input) = true)
    (h : Protects tx sys.rows) (hop : next tx.phase tx.view input = some op)
    (hafter : tx.after sys.rows op = some tx') : Protects tx' sys.rows := by
  unfold Protects at h
  cases hphase : tx.phase with
  | received r =>
      simp only [hphase] at h hop
      cases input with
      | some id => cases hop
      | none =>
          rcases receive_cases (Option.some.inj hop) with rfl | rfl | ⟨labId, hlab, rfl | rfl⟩
          · cases hafter
          · cases hafter
          all_goals
            obtain rfl := Option.some.inj hafter
            rw [view_of_clean h] at hlab
          · exact ⟨h, hlab, fun id hid => absurd hid List.not_mem_nil⟩
          · exact ⟨h, hlab, fun id hid => absurd hid List.not_mem_nil, List.not_mem_nil⟩
  | counting r labId visited found =>
      simp only [hphase] at h hop
      obtain ⟨hclean, hlab, hlocked⟩ := h
      cases input with
      | none =>
          obtain rfl := Option.some.inj hop
          obtain rfl := Option.some.inj hafter
          exact ⟨hclean, hlab, hlocked⟩
      | some id =>
          simp only [next, Option.ite_none_left_eq_some, Option.some.injEq] at hop
          obtain ⟨-, rfl⟩ := hop
          obtain rfl := Option.some.inj hafter
          split
          · exact ⟨hclean, hlab, hlocked⟩
          · next u hu => exact ⟨hclean, hlab, hlocked.visit hclean hu _⟩
  | counted r labId found =>
      simp only [hphase] at h hop
      obtain ⟨hclean, hlab, hlocked⟩ := h
      cases input with
      | some id => cases hop
      | none =>
          simp only [next] at hop
          split at hop
          · obtain rfl := Option.some.inj hop
            cases hafter
          · obtain rfl := Option.some.inj hop
            obtain rfl := Option.some.inj hafter
            refine ⟨hclean, hlab, fun id hid => hlocked id (List.mem_filter.mp hid).1, fun hself => ?_⟩
            simpa using (List.mem_filter.mp hself).2
  | writing r labId remaining =>
      simp only [hphase] at h hop
      obtain ⟨hclean, hlab, hlocked, hself⟩ := h
      cases input with
      | some id => cases hop
      | none =>
          obtain rfl := Option.some.inj hop
          obtain ⟨u, hu, rfl⟩ := Tx.after_update hafter
          rw [current_of_clean hclean] at hu
          refine ⟨wrote_update hclean hu ?_ _, hlab, fun id hid => ?_, hself⟩
          · rintro rfl
            simpa [noticed, hi, hphase, hu] using hok
          · obtain ⟨hlock, hadmin⟩ := hlocked id hid
            exact ⟨List.mem_cons_of_mem _ hlock, hadmin⟩
  | written r labId remaining =>
      simp only [hphase] at hop
      cases input with
      | some id => cases hop
      | none =>
          obtain rfl := Option.some.inj hop
          cases hafter
  | done r | refused => simp only [hphase] at h

/-! ## the lab keeps an admin -/

theorem hasAdmin_of_clean (hclean : Clean tx) (h : HasAdmin labId users) :
    HasAdmin labId (tx.flushed users) := by
  obtain ⟨id, u, hu, hadmin⟩ := h
  exact ⟨id, u, by rw [Tx.get?_flushed, hclean id, Option.none_or, hu], hadmin⟩

/-- A commit leaves an active admin. -/
theorem hasAdmin_flushed (h : Protects tx users)
    (hlabs : ∀ id u, tx.snapshot.get? id = some u →
      ∃ u', users.get? id = some u' ∧ u.labId = u'.labId)
    (hadmin : HasAdmin labId users) : HasAdmin labId (tx.flushed users) := by
  unfold Protects at h
  cases hphase : tx.phase with
  | received r =>
      simp only [hphase] at h
      exact hasAdmin_of_clean h hadmin
  | counting r l visited found | counted r l found | writing r l remaining =>
      simp only [hphase] at h
      exact hasAdmin_of_clean h.1 hadmin
  | written r l remaining =>
      simp only [hphase] at h
      obtain ⟨hwrote, ⟨u₀, hu₀, hlab⟩, hlocked, hself⟩ := h
      have hother : ∀ id, id ≠ r.userId → (tx.flushed users).get? id = users.get? id := by
        intro id hne
        have hnone : tx.written.get? id = none := by
          by_contra hsome
          exact hne (hwrote.target id hsome)
        rw [Tx.get?_flushed, hnone, Option.none_or]
      obtain ⟨id, u, hu, hu'⟩ := hadmin
      by_cases hid : id = r.userId
      · subst hid
        -- the target is the admin at hand: either another one is locked, or it stays one
        have hsame : u.labId = labId := by
          simp only [User.isActiveAdmin, Bool.and_eq_true, decide_eq_true_eq] at hu'
          exact hu'.1.1
        obtain ⟨u₁, hu₁, hlab₁⟩ := hlabs _ _ hu₀
        obtain rfl := Option.some.inj (hu.symm.trans hu₁)
        cases hremaining : remaining with
        | cons other rest =>
            obtain ⟨-, v, hv, hadmin⟩ := hlocked other (hremaining ▸ List.mem_cons_self)
            have hne : other ≠ r.userId := by
              rintro rfl
              exact hself (hremaining ▸ List.mem_cons_self)
            refine ⟨other, v, (hother other hne).trans hv, ?_⟩
            rw [← hsame, ← hlab₁, hlab]
            exact hadmin
        | nil =>
            cases hw : tx.written.get? r.userId with
            | none => exact ⟨_, u, by rw [Tx.get?_flushed, hw, Option.none_or, hu], hu'⟩
            | some w =>
                refine ⟨_, w, by rw [Tx.get?_flushed, hw, Option.some_or], ?_⟩
                rw [← hsame]
                exact hwrote.kept hremaining u w hu hw (hsame ▸ hu')
      · exact ⟨id, u, (hother id hid).trans hu, hu'⟩
  | done r | refused => simp only [hphase] at h

/-- The condition on a step. -/
def Noticed (sys : System) (a : Action Request Input) : Prop := noticed sys a = true

instance (sys : System) (a : Action Request Input) : Decidable (Noticed sys a) :=
  inferInstanceAs (Decidable (_ = _))

theorem rules : Rules program Noticed Protects where
  stable _ _ _ hrows h := protects_stable hrows h
  start _ _ _ := fun _ => rfl
  own _ _ _ _ _ _ hi hok h hop hafter := protects_own hi hok h hop hafter

/-- An update leaves the lab of its user. -/
theorem labId_write {phase p : Phase} {users : Dict Nat User} {input : Input} {k : Nat}
    {f : Option User → Option User} (h : next phase users input = some (.write k f p)) (u w : User)
    (hw : f (some u) = some w) : u.labId = w.labId := by
  cases phase with
  | writing r labId remaining =>
      cases input with
      | some id => cases h
      | none =>
          simp only [next, Op.update, Option.some.injEq, Op.write.injEq] at h
          obtain ⟨-, rfl, -⟩ := h
          rw [← Option.some.inj hw]
          cases r.kind <;> rfl
  | received r =>
      cases input with
      | some id => cases h
      | none => rcases receive_cases (Option.some.inj h) with heq | heq | ⟨_, _, heq | heq⟩ <;> cases heq
  | counting r labId visited found =>
      cases input with
      | none => cases h
      | some id =>
          simp only [next, Option.ite_none_left_eq_some, Option.some.injEq] at h
          cases h.2
  | counted r labId found =>
      cases input with
      | some id => cases h
      | none =>
          simp only [next] at h
          split at h <;> cases h
  | written r labId remaining | done r | refused => cases input <;> cases h

/-- What holds in every state: the locks, the labs of the users, and an active admin. -/
structure Safe (labId : Nat) (sys : System) : Prop where
  inv : Inv Protects sys
  labs : Extends (fun u u' : User => u.labId = u'.labId) sys
  admin : HasAdmin labId sys.rows

theorem safe_step {sys sys' : System} {a : Action Request Input} (h : Safe labId sys)
    (hok : Noticed sys a) (hstep : step sys a = some sys') : Safe labId sys' := by
  refine ⟨inv_step rules h.inv hok hstep, ?_, ?_⟩
  · exact extends_step (fun _ => rfl) (fun _ _ _ hab hbc => hab.trans hbc)
      (fun _ _ _ _ _ _ hop => labId_write hop) h.inv h.labs hstep
  · cases step_cases hstep with
    | start request | moves hi hlive hop hwaits hafter | ends hi hlive => exact h.admin
    | commits hi hlive hop =>
        exact hasAdmin_flushed (h.inv.held _ _ hi hlive) (h.labs.snapshot _ _ hi) h.admin

end Steps

/-- **The last admin stays**: a lab with an active admin keeps one in every
interleaving in which nobody is disabled uncounted who is an active admin by then. -/
theorem admin_run {labId : Nat} {sys : System} {as : List (Action Request Input)}
    (hstart : sys.txs = []) (hadmin : HasAdmin labId sys.rows) (hok : Meets step Noticed sys as) :
    Along step (fun _ _ sys' => HasAdmin labId sys'.rows) sys as := by
  have hinit : Safe labId sys := ⟨.start hstart, .start hstart, hadmin⟩
  exact along_of_invariant
    (fun _ _ _ hs hok ht => ⟨safe_step hs hok ht, (safe_step hs hok ht).admin⟩) hinit hok

/-- User 1 is the only admin of lab 1. -/
def oneAdmin : System :=
  { rows := (Dict.empty.set 1 ⟨1, .labAdmin, true⟩).set 2 ⟨1, .user, true⟩ }

/-- User 2 is promoted, then disables user 1. -/
def takenOver : List (Action Request Input) :=
  [.start ⟨.changeRole .labAdmin, 1, 2⟩, .turn 0 none, .turn 0 none, .turn 0 none,
   .start ⟨.disable, 2, 1⟩, .turn 1 none, .turn 1 (some 1), .turn 1 (some 2), .turn 1 none,
   .turn 1 none, .turn 1 none, .turn 1 none]

theorem admin_run_takenOver :
    (exec step oneAdmin takenOver).map (fun sys => sys.rows.entries.map fun e =>
        (e.2.role, e.2.isActive)) = some [(.labAdmin, false), (.labAdmin, true)] ∧
    Along step (fun _ _ sys' => HasAdmin 1 sys'.rows) oneAdmin takenOver :=
  ⟨by decide +kernel, admin_run rfl ⟨1, ⟨1, .labAdmin, true⟩, by decide, by decide⟩
    (by decide +kernel)⟩

/-- A request to disable user 2 has read that it is no admin, before all that. -/
def readBefore : List (Action Request Input) :=
  [.start ⟨.disable, 1, 2⟩, .turn 0 none, .start ⟨.changeRole .labAdmin, 1, 2⟩, .turn 1 none,
   .turn 1 none, .turn 1 none, .start ⟨.disable, 2, 1⟩, .turn 2 none, .turn 2 (some 1),
   .turn 2 (some 2), .turn 2 none, .turn 2 none, .turn 2 none, .turn 2 none, .turn 0 none]

def nearlyNone : System := (exec step oneAdmin readBefore).get (by decide +kernel)

theorem not_admin :
    ¬ ∀ (labId : Nat) (sys : System) (as : List (Action Request Input)), sys.txs = [] →
      HasAdmin labId sys.rows → Along step (fun _ _ sys' => HasAdmin labId sys'.rows) sys as := by
  intro h
  have halong := h 1 oneAdmin (readBefore ++ [.turn 0 none]) rfl
    ⟨1, ⟨1, .labAdmin, true⟩, by decide, by decide⟩
  have hstep : step nearlyNone (.turn 0 none) =
      some ((step nearlyNone (.turn 0 none)).get (by decide +kernel)) := (Option.some_get _).symm
  have hadmin : HasAdmin 1 _ := halong.step_of_exec (Option.some_get _).symm hstep
  obtain ⟨id, u, hu, hadmin⟩ := hadmin
  have hall : ∀ e ∈ ((step nearlyNone (.turn 0 none)).get (by decide +kernel)).rows.entries,
      e.2.isActiveAdmin 1 = false := by decide +kernel
  rw [hall (id, u) (Dict.get?_eq_some_iff.mp hu)] at hadmin
  cases hadmin

end LastAdmin

end CoreLab
