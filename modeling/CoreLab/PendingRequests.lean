import CoreLab.AccountLinkRequests
import CoreLab.Lib.Transactions

/-!
# CoreLab.PendingRequests

The requests for account links, each transaction beside the others.  `create_request` looks for a
pending request of the user and the account in its snapshot, and inserts one if there is none; no
index keeps two of them apart.  The decisions lock the row that they write.

* `pending_locked` — a decision leaves its request no longer pending;
* `fresh_own` — what a transaction has checked and written;
* `single_iff` — an interleaving keeps one pending request for a user and an account exactly if
  no request commits over another one.
-/

namespace CoreLab

open Relational Transition Transactions
open AccountLinkRequests Loops

namespace PendingRequests

/-! ## requests -/

/-- The arguments of `create_request`. -/
structure Creation where
  requesterUserId : Nat
  physicalAccountId : Nat
  requestNote : Option String
  labId : Nat
deriving DecidableEq, Repr

/-- The decisions about a request. -/
inductive Decision where
  | approve (decisionNote : Option String) (adminUserId labId : Nat)
  | deny (decisionNote : Option String) (adminUserId labId : Nat)
  | withdraw (requesterUserId labId : Nat)
deriving DecidableEq, Repr

inductive Request where
  | create (c : Creation)
  | decide (requestId : Nat) (d : Decision)
deriving DecidableEq, Repr

/-- Where a transaction is. -/
inductive Phase where
  | received (r : Request)
  | checked (c : Creation)
  | inserted (c : Creation) (requestId : Nat)
  /-- After the locking query of `_load_request_in_lab`. -/
  | loaded (d : Decision) (row : Option AccountLinkRequest)
  | decided (requestId : Nat)
  /-- Committed. -/
  | created (requestId : Nat)
  | done
  | refused
deriving DecidableEq, Repr

/-- What a transaction sees of the other tables, the clock, the digests of keys, and how its call of
the agent ends. -/
structure Others where
  digest : AuthorizedKeys.Digest
  db : Db
  sshKeys : Table SshPublicKey
  entries : EntryTable
  hosts : Hosts
  now : Time
  outcome : RpcOutcome

/-- What a transaction learns; the key of a new row comes from the database. -/
inductive Input where
  | proceed
  | sees (o : Others)
  | fresh (requestId : Nat)

/-- The rows of a session. -/
def Others.rows (o : Others) (requests : Table AccountLinkRequest) : Rows :=
  ⟨o.db, o.sshKeys, requests, o.entries⟩

/-- The service, on the row that it has locked. -/
def Decision.run (d : Decision) (o : Others) (row : AccountLinkRequest) : Except ServiceError Rows :=
  let rows := o.rows (.single row)
  match d with
  | .approve decisionNote adminUserId labId =>
    (approveRequest o.digest rows o.hosts row.id decisionNote adminUserId labId o.now o.outcome).2
  | .deny decisionNote adminUserId labId =>
    denyRequest rows row.id decisionNote adminUserId labId o.now
  | .withdraw requesterUserId labId => withdrawRequest rows row.id requesterUserId labId o.now

/-- A pending request of a user for an account. -/
def isPendingOf (requesterUserId physicalAccountId : Nat) (r : AccountLinkRequest) : Bool :=
  r.requesterUserId = requesterUserId && r.physicalAccountId = physicalAccountId &&
    r.status = .pending

abbrev Requests := Dict Nat AccountLinkRequest

/-- The rows that the second query of `create_request` selects. -/
def pendingOf (requests : Requests) (requesterUserId physicalAccountId : Nat) :
    List AccountLinkRequest :=
  (requests.entries.map (·.2)).filter (isPendingOf requesterUserId physicalAccountId)

/-- `create_request`, up to its flush. -/
def check (c : Creation) (o : Others) (requests : Requests) : Op Nat AccountLinkRequest Phase :=
  match createRequest (o.rows .empty) c.requesterUserId c.physicalAccountId c.requestNote c.labId with
  | .error _ => .commit .refused
  | .ok _ =>
    match pendingOf requests c.requesterUserId c.physicalAccountId with
    | [] => .goto (.checked c)
    -- `DuplicatePendingError`
    | [_] => .commit .refused
    -- `MultipleResultsFound`
    | _ => .rollback

/-- The rest of a decision, up to its flush. -/
def settle (d : Decision) (o : Others) (row : AccountLinkRequest) : Op Nat AccountLinkRequest Phase :=
  match d.run o row with
  | .ok rows => .write row.id (fun _ => rows.requests.get? row.id) (.decided row.id)
  | .error .integrityError | .error (.agentRpc _) => .rollback
  | .error _ => .commit .refused

/-- The steps of the four services. -/
def next : Phase → Requests → Input → Option (Op Nat AccountLinkRequest Phase)
  | .received (.create c), requests, .sees o => some (check c o requests)
  | .checked c, _, .fresh requestId =>
    let row := (newRequest c.requesterUserId c.physicalAccountId c.requestNote).1 requestId
    some (.insert requestId row (.inserted c requestId))
  | .inserted _ requestId, _, .proceed => some (.commit (.created requestId))
  | .received (.decide requestId d), _, .proceed =>
    some (.lock requestId (fun _ => true) (.loaded d))
  -- `RequestNotFoundError`
  | .loaded _ none, _, .proceed => some (.commit .refused)
  | .loaded d (some row), _, .sees o => some (settle d o row)
  | .decided _, _, .proceed => some (.commit .done)
  | _, _, _ => none

def program : Program Nat AccountLinkRequest Phase Request Input := ⟨.received, next⟩

abbrev System := Transactions.System Nat AccountLinkRequest Phase

abbrev Tx := Transactions.Tx Nat AccountLinkRequest Phase

/-- One step. -/
def step : System → Action Request Input → Option System := System.step program

/-! ## the property and its condition -/

/-- No user has two pending requests for an account. -/
def Single (requests : Requests) : Prop :=
  ∀ requesterUserId physicalAccountId,
    (pendingOf requests requesterUserId physicalAccountId).length ≤ 1

/-- So it is in the committed rows, and in those that a lookup of a transaction sees. -/
structure Singles (sys : System) : Prop where
  rows : Single sys.rows
  snapshots : ∀ tx ∈ sys.txs, Single tx.snapshot

/-- The transaction of a `create_request` that a step commits. -/
def creates (sys : System) : Action Request Input → Option (Tx × Creation)
  | .turn i .proceed => sys.txs[i]?.bind fun tx =>
    match tx.live, tx.phase with
    | true, .inserted c _ => some (tx, c)
    | _, _ => none
  | _ => none

/-- A `create_request` commits while each pending request of its user for its account is one
that its snapshot had. -/
def NoneMeanwhile (sys : System) (a : Action Request Input) : Prop :=
  ∀ p ∈ creates sys a,
    ∀ r ∈ pendingOf sys.rows p.2.requesterUserId p.2.physicalAccountId,
      r ∈ pendingOf p.1.snapshot p.2.requesterUserId p.2.physicalAccountId

instance (sys : System) (a : Action Request Input) : Decidable (NoneMeanwhile sys a) :=
  inferInstanceAs (Decidable (∀ p ∈ creates sys a, _))

/-! ## one pending request -/

section Steps

variable {requests requests' : Requests} {tx tx' : Tx} {c : Creation} {d : Decision} {o : Others}
  {row : AccountLinkRequest} {userId paId requestId : Nat}

theorem mem_pendingOf {r : AccountLinkRequest} : r ∈ pendingOf requests userId paId ↔
    (∃ k, requests.get? k = some r) ∧ isPendingOf userId paId r = true := by
  rw [pendingOf, List.mem_filter, List.mem_map]
  simp [Dict.get?_eq_some_iff]

/-- There is one row at most exactly if two of them are under one key. -/
theorem length_pendingOf_le_iff : (pendingOf requests userId paId).length ≤ 1 ↔
    ∀ k r l s, requests.get? k = some r → isPendingOf userId paId r = true →
      requests.get? l = some s → isPendingOf userId paId s = true → k = l := by
  have hlength : (pendingOf requests userId paId).length =
      (requests.entries.filter fun e => isPendingOf userId paId e.2).length := by
    rw [pendingOf, List.filter_map, List.length_map]
    rfl
  have hkeys : ((requests.entries.filter fun e => isPendingOf userId paId e.2).map (·.1)).Nodup :=
    requests.nodup.sublist (List.filter_sublist.map _)
  have hmem : ∀ k r, (k, r) ∈ (requests.entries.filter fun e => isPendingOf userId paId e.2) ↔
      requests.get? k = some r ∧ isPendingOf userId paId r = true := by
    intro k r
    rw [List.mem_filter, Dict.get?_eq_some_iff]
  rw [hlength]
  generalize (requests.entries.filter fun e => isPendingOf userId paId e.2) = found at hkeys hmem
  match found with
  | [] => simpa using fun k r l s hr hpr => absurd ((hmem k r).mpr ⟨hr, hpr⟩) List.not_mem_nil
  | [e] =>
      refine iff_of_true le_rfl fun k r l s hr hpr hs hps => ?_
      have hk := List.mem_singleton.mp ((hmem k r).mpr ⟨hr, hpr⟩)
      have hl := List.mem_singleton.mp ((hmem l s).mpr ⟨hs, hps⟩)
      exact congrArg Prod.fst (hk.trans hl.symm)
  | e :: f :: rest =>
      refine iff_of_false (by simp) fun hone => ?_
      obtain ⟨he, hpe⟩ := (hmem e.1 e.2).mp List.mem_cons_self
      obtain ⟨hf, hpf⟩ := (hmem f.1 f.2).mp (List.mem_cons_of_mem _ List.mem_cons_self)
      have hsame := hone e.1 e.2 f.1 f.2 he hpe hf hpf
      simp [hsame] at hkeys

/-- Rows that are no longer pending, or gone, leave the others apart. -/
theorem Single.of_pending (h : Single requests)
    (hrows : ∀ k r, requests'.get? k = some r → r.status = .pending → requests.get? k = some r) :
    Single requests' := by
  intro userId paId
  have hstatus : ∀ r, isPendingOf userId paId r = true → r.status = .pending := by
    intro r hr
    simp only [isPendingOf, Bool.and_eq_true, decide_eq_true_eq] at hr
    exact hr.2
  have hone := length_pendingOf_le_iff.mp (h userId paId)
  exact length_pendingOf_le_iff.mpr fun k r l s hr hpr hs hps =>
    hone k r l s (hrows k r hr (hstatus r hpr)) hpr (hrows l s hs (hstatus s hps)) hps

/-- One pending request more keeps them apart exactly if it is the first of its user for its
account. -/
theorem single_insert_iff (h : Single requests) {r : AccountLinkRequest}
    (hpending : isPendingOf userId paId r = true) (hfresh : requests.get? requestId = none)
    (hrows : ∀ k, requests'.get? k = if k = requestId then some r else requests.get? k) :
    Single requests' ↔ pendingOf requests userId paId = [] := by
  constructor
  · intro hsingle
    rw [List.eq_nil_iff_forall_not_mem]
    intro s hs
    obtain ⟨⟨k, hk⟩, hps⟩ := mem_pendingOf.mp hs
    have hne : k ≠ requestId := by
      rintro rfl
      rw [hfresh] at hk
      cases hk
    have hk' : requests'.get? k = some s := by rw [hrows, if_neg hne, hk]
    have hnew : requests'.get? requestId = some r := by rw [hrows, if_pos rfl]
    exact hne (length_pendingOf_le_iff.mp (hsingle userId paId) k s requestId r hk' hps hnew hpending)
  · intro hnil u a
    have hpair : ∀ r, isPendingOf userId paId r = true → isPendingOf u a r = true →
        ∀ s, isPendingOf u a s = true → isPendingOf userId paId s = true := by
      intro r hr hr' s hs
      simp only [isPendingOf, Bool.and_eq_true, decide_eq_true_eq] at hr hr' hs ⊢
      exact ⟨⟨hs.1.1.trans (hr'.1.1.symm.trans hr.1.1), hs.1.2.trans (hr'.1.2.symm.trans hr.1.2)⟩,
        hs.2⟩
    have hnone : ∀ k s, requests.get? k = some s → ¬ isPendingOf userId paId s = true := by
      intro k s hk hs
      have hmem : s ∈ pendingOf requests userId paId := mem_pendingOf.mpr ⟨⟨k, hk⟩, hs⟩
      rw [hnil] at hmem
      cases hmem
    rw [length_pendingOf_le_iff]
    intro k s l v hk hs hl hv
    rw [hrows] at hk hl
    split at hk <;> split at hl
    · next hk' hl' => rw [hk', hl']
    · obtain rfl := Option.some.inj hk
      exact absurd (hpair _ hpending hs v hv) (hnone l v hl)
    · obtain rfl := Option.some.inj hl
      exact absurd (hpair _ hpending hv s hs) (hnone k s hk)
    · exact length_pendingOf_le_iff.mp (h u a) k s l v hk hs hl hv

/-! ## what a transaction has written -/

theorem loaded_single {pa : PhysicalAccount} {labId : Nat} {loaded : AccountLinkRequest}
    (h : loadRequestInLab (o.rows (.single row)) row.id labId = .ok (loaded, pa)) : loaded = row := by
  unfold loadRequestInLab at h
  split at h
  · cases h
  · next r hr =>
      have hrow : r = row := List.mem_singleton.mp (Table.mem_of_get? hr)
      dsimp only at h
      split at h
      · cases h
      · split at h
        · cases h
        · exact (Prod.mk.inj (Except.ok.inj h)).1.symm.trans hrow

/-- What a decision makes of its row. -/
theorem exists_put {rows : Rows} {status : RequestStatus} (row : AccountLinkRequest)
    (decidedByUserId : Option Nat) (now : Time) (decisionNote : Option String)
    (hstatus : status ≠ .pending) : ∃ decided : AccountLinkRequest,
      decided.id = row.id ∧ decided.status ≠ .pending ∧
        (AccountLinkRequests.decide rows row status decidedByUserId now decisionNote).requests =
          rows.requests.put decided :=
  ⟨{ row with status := status, decidedByUserId := decidedByUserId, decidedAt := some now
              decisionNote := decisionNote }, rfl, hstatus, rfl⟩

/-- The rows after a decision: the one that was locked, with a status of its own. -/
theorem exists_run {rows : Rows} (h : d.run o row = .ok rows) : ∃ decided : AccountLinkRequest,
    decided.id = row.id ∧ decided.status ≠ .pending ∧
      rows.requests = (Table.single row).put decided := by
  cases d with
  | approve decisionNote adminUserId labId =>
      have hok : (approveRequest o.digest (o.rows (.single row)) o.hosts row.id decisionNote adminUserId
        labId o.now o.outcome).2 = .ok rows := h
      cases hload : loadPush (o.rows (.single row)) row.id labId .pending "pending can be approved" with
      | error e =>
          rw [approveRequest, hload] at hok
          cases hok
      | ok p =>
          obtain ⟨loaded, pa, key⟩ := p
          obtain ⟨result, hresult, hcases⟩ := approveRequest_cases o.digest o.hosts decisionNote
            adminUserId o.now o.outcome hload
          obtain ⟨⟨r, pa'⟩, hrequest, hrest⟩ := bind_eq_ok_iff.mp hload
          obtain ⟨-, -, hrest⟩ := bind_eq_ok_iff.mp hrest
          obtain ⟨key', -, hrest⟩ := bind_eq_ok_iff.mp hrest
          obtain rfl : r = loaded := (Prod.mk.inj (Except.ok.inj hrest)).1
          obtain rfl := loaded_single hrequest
          rw [hresult] at hok
          obtain rfl : result = .ok rows := hok
          rcases hcases with ⟨-, ⟨-, herror⟩ | ⟨entries, -, hrows⟩⟩ | ⟨-, herror | hrows⟩
          · cases herror
          · rw [Except.ok.inj hrows]
            exact exists_put _ _ _ _ RequestStatus.noConfusion
          · cases herror
          · rw [Except.ok.inj hrows]
            exact exists_put _ _ _ _ RequestStatus.noConfusion
  | deny decisionNote adminUserId labId =>
      obtain ⟨⟨loaded, pa⟩, hload, hrest⟩ := bind_eq_ok_iff.mp h
      obtain ⟨-, -, hrest⟩ := bind_eq_ok_iff.mp hrest
      obtain rfl := loaded_single hload
      rw [← Except.ok.inj hrest]
      exact exists_put _ _ _ _ RequestStatus.noConfusion
  | withdraw requesterUserId labId =>
      obtain ⟨⟨loaded, pa⟩, hload, hrest⟩ := bind_eq_ok_iff.mp h
      obtain ⟨-, -, hrest⟩ := bind_eq_ok_iff.mp hrest
      obtain ⟨-, -, hrest⟩ := bind_eq_ok_iff.mp hrest
      obtain rfl := loaded_single hload
      rw [← Except.ok.inj hrest]
      exact exists_put _ _ _ _ RequestStatus.noConfusion

/-- **A decision** leaves the row that it has locked no longer pending. -/
theorem not_pending_of_run {rows : Rows} (h : d.run o row = .ok rows) {r : AccountLinkRequest}
    (hr : rows.requests.get? row.id = some r) : r.status ≠ .pending := by
  obtain ⟨decided, hid, hstatus, hrequests⟩ := exists_run h
  rw [hrequests, Table.get?_put] at hr
  have hkey : Keyed.key decided = row.id := hid
  rw [if_pos hkey] at hr
  obtain ⟨-, -, rfl⟩ := Option.map_eq_some_iff.mp hr
  exact hstatus

/-- What a `create_request` has inserted, after its check. -/
structure Inserted (tx : Tx) (requests : Requests) (c : Creation) (requestId : Nat) : Prop where
  row : ∃ r, tx.written.get? requestId = some r ∧
    isPendingOf c.requesterUserId c.physicalAccountId r = true
  only : ∀ k, k ≠ requestId → tx.written.get? k = none
  locked : requestId ∈ tx.locks
  fresh : requests.get? requestId = none
  checked : pendingOf tx.snapshot c.requesterUserId c.physicalAccountId = []

/-- What holds of a transaction, by its phase. -/
def Holds (tx : Tx) (requests : Requests) : Prop :=
  match tx.phase with
  | .received _ | .loaded _ _ => tx.written = .empty
  | .checked c =>
    tx.written = .empty ∧ pendingOf tx.snapshot c.requesterUserId c.physicalAccountId = []
  | .inserted c requestId => Inserted tx requests c requestId
  | .decided _ => ∀ k r, tx.written.get? k = some r → r.status ≠ .pending
  | .created _ | .done | .refused => False

theorem holds_stable (hrows : ∀ k ∈ tx.locks, requests'.get? k = requests.get? k)
    (h : Holds tx requests) : Holds tx requests' := by
  unfold Holds at h ⊢
  cases hphase : tx.phase with
  | inserted c requestId =>
      simp only [hphase] at h
      exact ⟨h.row, h.only, h.locked, (hrows requestId h.locked).trans h.fresh, h.checked⟩
  | received r | checked c | loaded d row | decided requestId => simpa only [hphase] using h
  | created requestId | done | refused => simp only [hphase] at h

theorem view_of_empty (h : tx.written = .empty) : tx.view = tx.snapshot := by
  rw [Tx.view, h]
  rfl

theorem current_of_empty (h : tx.written = .empty) (k : Nat) :
    tx.current requests k = requests.get? k := by
  rw [Tx.current, h, Dict.get?_empty, Option.none_or]

/-- How a check ends. -/
theorem check_cases (c : Creation) (o : Others) (requests : Requests) :
    check c o requests = .commit .refused ∨ check c o requests = .rollback ∨
      check c o requests = .goto (.checked c) ∧
        pendingOf requests c.requesterUserId c.physicalAccountId = [] := by
  unfold check
  split
  · exact .inl rfl
  · split
    · next hnil => exact .inr (.inr ⟨rfl, hnil⟩)
    · exact .inl rfl
    · exact .inr (.inl rfl)

/-- How a decision ends. -/
theorem settle_cases (d : Decision) (o : Others) (row : AccountLinkRequest) :
    settle d o row = .commit .refused ∨ settle d o row = .rollback ∨
      ∃ rows, d.run o row = .ok rows ∧
        settle d o row = .write row.id (fun _ => rows.requests.get? row.id) (.decided row.id) := by
  unfold settle
  split
  · next rows hrun => exact .inr (.inr ⟨rows, hrun, rfl⟩)
  · exact .inr (.inl rfl)
  · exact .inr (.inl rfl)
  · exact .inl rfl

/-- **A transaction** inserts after its check, and writes what it has decided. -/
theorem holds_own {input : Input} {op : Op Nat AccountLinkRequest Phase} (h : Holds tx requests)
    (hop : next tx.phase tx.view input = some op) (hafter : tx.after requests op = some tx') :
    Holds tx' requests := by
  unfold Holds at h
  cases hphase : tx.phase with
  | received r =>
      simp only [hphase] at h hop
      cases r with
      | create c =>
          cases input with
          | sees o =>
              obtain rfl := Option.some.inj hop
              rcases check_cases c o tx.view with heq | heq | ⟨heq, hnil⟩ <;> rw [heq] at hafter
              · cases hafter
              · cases hafter
              · obtain rfl := Option.some.inj hafter
                rw [view_of_empty h] at hnil
                exact ⟨h, hnil⟩
          | proceed | fresh requestId => cases hop
      | decide requestId d =>
          cases input with
          | proceed =>
              obtain rfl := Option.some.inj hop
              obtain rfl := Option.some.inj hafter
              split <;> exact h
          | sees o | fresh requestId => cases hop
  | checked c =>
      simp only [hphase] at h hop
      obtain ⟨hempty, hnil⟩ := h
      cases input with
      | fresh requestId =>
          obtain rfl := Option.some.inj hop
          obtain ⟨hfresh, rfl⟩ := Tx.after_insert hafter
          rw [current_of_empty hempty] at hfresh
          have hget : ∀ k r p, (tx.write requestId r p).written.get? k =
              if k = requestId then some r else none := by
            intro k r p
            rw [Tx.write, Dict.get?_set, hempty, Dict.get?_empty]
          refine ⟨⟨_, by rw [hget, if_pos rfl], ?_⟩, fun k hk => by rw [hget, if_neg hk],
            List.mem_cons_self, hfresh, hnil⟩
          simp [isPendingOf, newRequest]
      | proceed | sees o => cases hop
  | loaded d row =>
      simp only [hphase] at h hop
      cases row with
      | none =>
          cases input with
          | proceed =>
              obtain rfl := Option.some.inj hop
              cases hafter
          | sees o | fresh requestId => cases hop
      | some row =>
          cases input with
          | sees o =>
              obtain rfl := Option.some.inj hop
              rcases settle_cases d o row with heq | heq | ⟨rows, hrun, heq⟩ <;> rw [heq] at hafter
              · cases hafter
              · cases hafter
              · obtain ⟨written, hwritten, rfl⟩ := Option.map_eq_some_iff.mp hafter
                intro k r hr
                rw [Tx.write, Dict.get?_set, h, Dict.get?_empty] at hr
                split at hr
                · obtain rfl := Option.some.inj hr
                  exact not_pending_of_run hrun hwritten
                · cases hr
          | proceed | fresh requestId => cases hop
  | inserted c requestId | decided requestId =>
      simp only [hphase] at hop
      cases input with
      | proceed =>
          obtain rfl := Option.some.inj hop
          cases hafter
      | sees o | fresh requestId => cases hop
  | created requestId | done | refused => simp only [hphase] at h

theorem rules : Rules program (fun _ _ => True) Holds where
  stable _ _ _ hrows h := holds_stable hrows h
  start _ _ _ := rfl
  own _ _ _ _ _ _ _ _ h hop hafter := holds_own h hop hafter

/-! ## every step -/

variable {sys sys' : System} {a : Action Request Input}

/-- What holds in every state. -/
structure Safe (sys : System) : Prop where
  inv : Inv Holds sys
  singles : Singles sys

/-- The snapshots are committed states. -/
theorem snapshots_step (h : Singles sys) (hstep : step sys a = some sys') :
    ∀ tx ∈ sys'.txs, Single tx.snapshot := by
  intro u hu
  rcases snapshot_step hstep hu with heq | ⟨tx, htx, heq⟩
  · exact heq ▸ h.rows
  · exact heq ▸ h.snapshots tx htx

theorem creates_eq_some {c : Creation} (h : creates sys a = some (tx, c)) :
    ∃ i requestId, a = .turn i .proceed ∧ sys.txs[i]? = some tx ∧ tx.live = true ∧
      tx.phase = .inserted c requestId := by
  unfold creates at h
  split at h
  · next i =>
      obtain ⟨u, hi, h⟩ := Option.bind_eq_some_iff.mp h
      split at h
      · next c' requestId hlive hphase =>
          obtain ⟨rfl, rfl⟩ := Prod.mk.inj (Option.some.inj h)
          exact ⟨i, requestId, rfl, hi, hlive, hphase⟩
      · cases h
  · cases h

/-- The commit of a `create_request`. -/
theorem step_of_creates {c : Creation} (h : creates sys a = some (tx, c)) :
    ∃ i requestId, sys.txs[i]? = some tx ∧ tx.live = true ∧ tx.phase = .inserted c requestId ∧
      step sys a = some { rows := tx.flushed sys.rows,
                          txs := sys.txs.set i (tx.ended (.created requestId)) } := by
  obtain ⟨i, requestId, rfl, hi, hlive, hphase⟩ := creates_eq_some h
  refine ⟨i, requestId, hi, hlive, hphase, ?_⟩
  rw [step, System.step, hi]
  simp [hlive, program, next, hphase, System.perform, System.waits]

/-- Other steps commit no request that is pending. -/
theorem single_rows (h : Safe sys) (hnone : creates sys a = none) (hstep : step sys a = some sys') :
    Single sys'.rows := by
  cases step_cases hstep with
  | start request | moves hi hlive hop hwaits hafter | ends hi hlive => exact h.singles.rows
  | commits hi hlive hop =>
      next i input tx p =>
      have hholds := h.inv.held i tx hi hlive
      unfold Holds at hholds
      refine h.singles.rows.of_pending fun k r hr hpending => ?_
      rw [Tx.get?_flushed] at hr
      cases hwritten : tx.written.get? k with
      | none => rwa [hwritten, Option.none_or] at hr
      | some w =>
          rw [hwritten, Option.some_or] at hr
          obtain rfl := Option.some.inj hr
          cases hphase : tx.phase with
          | received _ | loaded _ _ =>
              simp only [hphase] at hholds
              rw [hholds] at hwritten
              cases hwritten
          | checked c =>
              simp only [hphase] at hholds
              rw [hholds.1] at hwritten
              cases hwritten
          | inserted c requestId =>
              simp only [program, hphase] at hop
              cases input with
              | proceed => simp [creates, hi, hlive, hphase] at hnone
              | sees o | fresh requestId => cases hop
          | decided requestId =>
              simp only [hphase] at hholds
              exact absurd hpending (hholds k w hwritten)
          | created requestId | done | refused => simp only [hphase] at hholds

/-- **One step** leaves two pending requests exactly if it commits one over another. -/
theorem singles_iff (h : Safe sys) (hstep : step sys a = some sys') :
    Singles sys' ↔ NoneMeanwhile sys a := by
  have hsnapshots := snapshots_step h.singles hstep
  cases hcreates : creates sys a with
  | none =>
      refine iff_of_true ⟨single_rows h hcreates hstep, hsnapshots⟩ fun p hp => ?_
      rw [hcreates] at hp
      cases hp
  | some p =>
      obtain ⟨tx, c⟩ := p
      obtain ⟨i, requestId, hi, hlive, hphase, hcommit⟩ := step_of_creates hcreates
      obtain rfl := Option.some.inj (hstep.symm.trans hcommit)
      have hinserted : Inserted tx sys.rows c requestId := by
        have hholds := h.inv.held i tx hi hlive
        unfold Holds at hholds
        simpa only [hphase] using hholds
      obtain ⟨r, hr, hpending⟩ := hinserted.row
      have hrows : ∀ k, (tx.flushed sys.rows).get? k =
          if k = requestId then some r else sys.rows.get? k := by
        intro k
        rw [Tx.get?_flushed]
        split
        · next hk => rw [hk, hr, Option.some_or]
        · next hk => rw [hinserted.only k hk, Option.none_or]
      have hsingle := single_insert_iff h.singles.rows hpending hinserted.fresh hrows
      have hmeanwhile : NoneMeanwhile sys a ↔
          pendingOf sys.rows c.requesterUserId c.physicalAccountId = [] := by
        rw [List.eq_nil_iff_forall_not_mem]
        simp [NoneMeanwhile, hcreates, hinserted.checked]
      rw [hmeanwhile, ← hsingle]
      exact ⟨Singles.rows, fun hrows => ⟨hrows, hsnapshots⟩⟩

end Steps

/-- **One pending request**: an interleaving keeps at most one of each user for each account,
in the committed rows and for every lookup, exactly if each `create_request` commits while no
other one of its user and account has become pending since its snapshot. -/
theorem singles_run {sys : System} (htxs : sys.txs = []) (hsingle : Single sys.rows)
    (as : List (Action Request Input)) :
    Along step (fun _ _ sys' => Singles sys') sys as ↔ Meets step NoneMeanwhile sys as := by
  have hinit : Safe sys :=
    ⟨.start htxs, hsingle, fun tx htx => by rw [htxs] at htx; cases htx⟩
  refine along_iff_meets_of_keeps (fun _ _ _ => singles_iff) (fun s a t hs ht hsingles => ?_)
    (fun s a hstep p hp => ?_) hinit
  · exact ⟨inv_step rules hs.inv True.intro ht, hsingles⟩
  · obtain ⟨_, _, -, -, -, hcommit⟩ := step_of_creates hp
    rw [hstep] at hcommit
    cases hcommit

/-- Account 5 is on the lab's server, and nothing else is known. -/
def oneAccount : Others where
  digest := AuthorizedKeys.sampleDigest
  db := { Db.empty with
    servers := .single
      { id := 7, labId := 1, maxReservationHours := none, approvedAt := some 0, isActive := true }
    physicalAccounts := .single { id := 5, serverId := 7, linuxUsername := "alice", isActive := true } }
  sshKeys := .empty
  entries := .empty
  hosts := ⟨fun _ => .empty, []⟩
  now := 0
  outcome := .offline

def nothing : System := { rows := .empty }

/-- A request of user 41 for it. -/
def asks : Request := .create ⟨41, 5, none, 1⟩

/-- One request, its withdrawal, and another one. -/
def oneByOne : List (Action Request Input) :=
  [.start asks, .turn 0 (.sees oneAccount), .turn 0 (.fresh 1), .turn 0 .proceed,
   .start (.decide 1 (.withdraw 41 1)), .turn 1 .proceed, .turn 1 (.sees oneAccount),
   .turn 1 .proceed, .start asks, .turn 2 (.sees oneAccount), .turn 2 (.fresh 2), .turn 2 .proceed]

theorem single_nothing : Single nothing.rows := fun _ _ => Nat.zero_le 1

theorem singles_run_oneByOne :
    (exec step nothing oneByOne).map (fun sys => sys.rows.entries.map (·.2.status)) =
      some [.withdrawn, .pending] ∧
    (Along step (fun _ _ sys' => Singles sys') nothing oneByOne ↔
      Meets step NoneMeanwhile nothing oneByOne) :=
  ⟨by decide +kernel, singles_run rfl single_nothing oneByOne⟩

/-- Both look before either commits. -/
def doubleClick : List (Action Request Input) :=
  [.start asks, .start asks, .turn 0 (.sees oneAccount), .turn 1 (.sees oneAccount),
   .turn 0 (.fresh 1), .turn 1 (.fresh 2), .turn 0 .proceed]

def oneCommitted : System := (exec step nothing doubleClick).get (by decide +kernel)

theorem not_singles :
    ¬ ∀ (sys : System) (as : List (Action Request Input)), sys.txs = [] → Single sys.rows →
      Along step (fun _ _ sys' => Singles sys') sys as := by
  intro h
  have halong := h nothing (doubleClick ++ [.turn 1 .proceed]) rfl single_nothing
  have hstep : step oneCommitted (.turn 1 .proceed) =
      some ((step oneCommitted (.turn 1 .proceed)).get (by decide +kernel)) :=
    (Option.some_get _).symm
  have hsingles : Singles _ := halong.step_of_exec (Option.some_get _).symm hstep
  exact absurd (hsingles.rows 41 5) (by decide +kernel)

end PendingRequests

end CoreLab
