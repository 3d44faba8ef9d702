import CoreLab.Lib.Dict
import CoreLab.Lib.Transition

/-!
# Lib.Transactions

Transactions over rows under keys, at the level REPEATABLE READ.  A plain read
sees the rows as they were at the first read of its transaction, with its own
changes; a locking read and an update see the committed row, under a lock that
is held until the end.  An index entry is a row under a key of its own, so an
insertion waits for a transaction that has written its key, and fails where the
key is taken.

* `Program`, `System.step` — what each transaction does next, one step of one
  transaction at a time;
* `Rules`, `inv_step` — what a transaction may rely on: its property, if it
  depends on locked rows only, survives whatever the others do.
-/

namespace Transactions

/-! ## transactions -/

/-- A transaction: where it is, the rows as of its first read, what it has locked
and what it has written. -/
structure Tx (κ ρ φ : Type) where
  phase : φ
  snapshot : Dict κ ρ
  locks : List κ := []
  written : Dict κ ρ := .empty
  live : Bool := true

/-- What a transaction does next. -/
inductive Op (κ ρ φ : Type) where
  | goto (p : φ)
  /-- Visit a row in a `SELECT … FOR UPDATE`, which locks it if it matches. -/
  | lock (k : κ) (test : ρ → Bool) (next : Option ρ → φ)
  /-- The end of such a query, once it has visited every row. -/
  | endScan (visited : List κ) (p : φ)
  /-- Write a row, or fail the transaction. -/
  | write (k : κ) (f : Option ρ → Option ρ) (p : φ)
  | commit (p : φ)
  | rollback

namespace Op

variable {κ ρ φ : Type}

/-- `UPDATE` of a row; one that is gone fails the transaction. -/
def update (k : κ) (f : ρ → ρ) (p : φ) : Op κ ρ φ := .write k (Option.map f) p

/-- `INSERT`; a key that is taken fails the transaction. -/
def insert (k : κ) (r : ρ) (p : φ) : Op κ ρ φ := .write k (fun o => if o.isSome then none else some r) p

end Op

/-- The program of the transactions: where a request starts, and what it does next,
from its phase, what it reads and what it learns. -/
structure Program (κ ρ φ θ ι : Type) where
  received : θ → φ
  next : φ → Dict κ ρ → ι → Option (Op κ ρ φ)

variable {κ ρ φ θ ι : Type} [DecidableEq κ]

namespace Tx

/-- What a plain read sees. -/
def view (tx : Tx κ ρ φ) : Dict κ ρ := tx.written.entries.foldl (fun d e => d.set e.1 e.2) tx.snapshot

/-- The version of a row that a locking read or an update works on. -/
def current (tx : Tx κ ρ φ) (rows : Dict κ ρ) (k : κ) : Option ρ :=
  (tx.written.get? k).or (rows.get? k)

/-- The committed rows after a commit. -/
def flushed (tx : Tx κ ρ φ) (rows : Dict κ ρ) : Dict κ ρ :=
  tx.written.entries.foldl (fun d e => d.set e.1 e.2) rows

/-- Lock a row and go on. -/
def lock (tx : Tx κ ρ φ) (k : κ) (p : φ) : Tx κ ρ φ := { tx with locks := k :: tx.locks, phase := p }

/-- Write a row, under a lock. -/
def write (tx : Tx κ ρ φ) (k : κ) (r : ρ) (p : φ) : Tx κ ρ φ :=
  { tx.lock k p with written := tx.written.set k r }

/-- The transaction is over. -/
def ended (tx : Tx κ ρ φ) (p : φ) : Tx κ ρ φ :=
  { tx with phase := p, locks := [], written := .empty, live := false }

/-- The state of a transaction that goes on; `none` where it ends. -/
def after (tx : Tx κ ρ φ) (rows : Dict κ ρ) : Op κ ρ φ → Option (Tx κ ρ φ)
  | .goto p => some { tx with phase := p }
  | .lock k test next => some <|
    match (tx.current rows k).filter test with
    | none => { tx with phase := next none }
    | some r => tx.lock k (next (some r))
  | .endScan _ p => some { tx with phase := p }
  | .write k f p => (f (tx.current rows k)).map fun r => tx.write k r p
  | .commit _ | .rollback => none

/-- What an update leaves, if it goes through. -/
theorem after_update {tx tx' : Tx κ ρ φ} {rows : Dict κ ρ} {k : κ} {f : ρ → ρ} {p : φ}
    (h : tx.after rows (.update k f p) = some tx') :
    ∃ r, tx.current rows k = some r ∧ tx' = tx.write k (f r) p := by
  obtain ⟨w, hw, rfl⟩ := Option.map_eq_some_iff.mp h
  obtain ⟨r, hr, rfl⟩ := Option.map_eq_some_iff.mp hw
  exact ⟨r, hr, rfl⟩

/-- What an insertion leaves, if it goes through. -/
theorem after_insert {tx tx' : Tx κ ρ φ} {rows : Dict κ ρ} {k : κ} {r : ρ} {p : φ}
    (h : tx.after rows (.insert k r p) = some tx') :
    tx.current rows k = none ∧ tx' = tx.write k r p := by
  obtain ⟨w, hw, rfl⟩ := Option.map_eq_some_iff.mp h
  simp only [Option.ite_none_left_eq_some, Option.some.injEq] at hw
  exact ⟨Option.not_isSome_iff_eq_none.mp hw.1, by rw [hw.2]⟩

/-- A fold of assignments under distinct keys. -/
theorem get?_foldl_set_entries (d e : Dict κ ρ) (k : κ) :
    (e.entries.foldl (fun d x => d.set x.1 x.2) d).get? k = (e.get? k).or (d.get? k) := by
  cases he : e.get? k with
  | none =>
      rw [Option.none_or]
      exact Dict.get?_foldl_set_of_ne fun x hx => Dict.get?_eq_none_iff.mp he x hx
  | some r =>
      have hmem := Dict.get?_eq_some_iff.mp he
      rw [Option.some_or]
      refine Dict.get?_foldl_set ⟨(k, r), hmem, rfl⟩ fun x hx hk => ?_
      rw [show x = (k, r) from Dict.eq_of_fst_eq hx hmem hk]

theorem get?_view (tx : Tx κ ρ φ) (k : κ) :
    tx.view.get? k = (tx.written.get? k).or (tx.snapshot.get? k) :=
  get?_foldl_set_entries ..

theorem get?_flushed (tx : Tx κ ρ φ) (rows : Dict κ ρ) (k : κ) :
    (tx.flushed rows).get? k = (tx.written.get? k).or (rows.get? k) :=
  get?_foldl_set_entries ..

end Tx

/-! ## the system -/

/-- The committed rows, and the transactions so far. -/
structure System (κ ρ φ : Type) where
  rows : Dict κ ρ
  txs : List (Tx κ ρ φ) := []

/-- What happens next. -/
inductive Action (θ ι : Type) where
  /-- The transaction of a request takes its snapshot. -/
  | start (request : θ)
  /-- A transaction takes its next step, with what it learns. -/
  | turn (i : Nat) (input : ι)
  /-- A transaction is rolled back: a deadlock, a timeout, a lost connection. -/
  | kill (i : Nat)
deriving DecidableEq, Repr

namespace System

/-- Replace transaction `i`. -/
def set (sys : System κ ρ φ) (i : Nat) (tx : Tx κ ρ φ) : System κ ρ φ :=
  { sys with txs := sys.txs.set i tx }

/-- No other transaction has a lock on the row. -/
def grants (sys : System κ ρ φ) (i : Nat) (k : κ) : Bool :=
  sys.txs.zipIdx.all fun (u, j) => j == i || decide (k ∉ u.locks)

/-- The lock that an operation waits for. -/
def waits (sys : System κ ρ φ) (i : Nat) (tx : Tx κ ρ φ) : Op κ ρ φ → Bool
  | .lock k test _ => ((tx.current sys.rows k).filter test).isSome && !sys.grants i k
  | .write k _ _ => !sys.grants i k
  | .endScan visited _ => sys.rows.entries.any fun e => decide (e.1 ∉ visited)
  | .goto _ | .commit _ | .rollback => false

/-- One operation of transaction `i`; `none` while it waits. -/
def perform (sys : System κ ρ φ) (i : Nat) (tx : Tx κ ρ φ) (op : Op κ ρ φ) :
    Option (System κ ρ φ) :=
  if sys.waits i tx op then none
  else match op, tx.after sys.rows op with
    | .commit p, _ => some { rows := tx.flushed sys.rows, txs := sys.txs.set i (tx.ended p) }
    | _, some tx' => some (sys.set i tx')
    | _, none => some (sys.set i (tx.ended tx.phase))

/-- One step of the system. -/
def step (program : Program κ ρ φ θ ι) (sys : System κ ρ φ) : Action θ ι → Option (System κ ρ φ)
  | .start request =>
    some { sys with txs := sys.txs ++ [{ phase := program.received request, snapshot := sys.rows }] }
  | .turn i input => sys.txs[i]?.bind fun tx =>
    if tx.live then (program.next tx.phase tx.view input).bind (sys.perform i tx) else none
  | .kill i => sys.txs[i]?.bind fun tx =>
    if tx.live then some (sys.set i (tx.ended tx.phase)) else none

end System

variable {sys sys' : System κ ρ φ}

/-! ## what a step can do -/

/-- The cases of a step. -/
inductive StepCase (program : Program κ ρ φ θ ι) (sys : System κ ρ φ) :
    Action θ ι → System κ ρ φ → Prop where
  | start (request : θ) :
      StepCase program sys (.start request)
        { sys with txs := sys.txs ++ [{ phase := program.received request, snapshot := sys.rows }] }
  | moves {i : Nat} {input : ι} {tx tx' : Tx κ ρ φ} {op : Op κ ρ φ} (hi : sys.txs[i]? = some tx)
      (hlive : tx.live = true) (hop : program.next tx.phase tx.view input = some op)
      (hwaits : sys.waits i tx op = false) (hafter : tx.after sys.rows op = some tx') :
      StepCase program sys (.turn i input) (sys.set i tx')
  | ends {a : Action θ ι} {i : Nat} {tx : Tx κ ρ φ} (hi : sys.txs[i]? = some tx)
      (hlive : tx.live = true) : StepCase program sys a (sys.set i (tx.ended tx.phase))
  | commits {i : Nat} {input : ι} {tx : Tx κ ρ φ} {p : φ} (hi : sys.txs[i]? = some tx)
      (hlive : tx.live = true) (hop : program.next tx.phase tx.view input = some (.commit p)) :
      StepCase program sys (.turn i input)
        { rows := tx.flushed sys.rows, txs := sys.txs.set i (tx.ended p) }

theorem step_cases {program : Program κ ρ φ θ ι} {a : Action θ ι} (h : sys.step program a = some sys') :
    StepCase program sys a sys' := by
  cases a with
  | start request =>
      obtain rfl := Option.some.inj h
      exact .start request
  | turn i input =>
      obtain ⟨tx, hi, h⟩ := Option.bind_eq_some_iff.mp h
      simp only [Option.ite_none_right_eq_some] at h
      obtain ⟨hlive, h⟩ := h
      obtain ⟨op, hop, h⟩ := Option.bind_eq_some_iff.mp h
      simp only [System.perform, Option.ite_none_left_eq_some] at h
      obtain ⟨hwaits, h⟩ := h
      rw [Bool.not_eq_true] at hwaits
      split at h
      · obtain rfl := Option.some.inj h
        exact .commits hi hlive hop
      · next hafter =>
          obtain rfl := Option.some.inj h
          exact .moves hi hlive hop hwaits hafter
      · obtain rfl := Option.some.inj h
        exact .ends hi hlive
  | kill i =>
      obtain ⟨tx, hi, h⟩ := Option.bind_eq_some_iff.mp h
      simp only [Option.ite_none_right_eq_some, Option.some.injEq] at h
      obtain ⟨hlive, rfl⟩ := h
      exact .ends hi hlive

/-- An operation leaves the snapshot, and the transaction under way. -/
theorem frame_after {tx tx' : Tx κ ρ φ} {op : Op κ ρ φ} {rows : Dict κ ρ} (hafter : tx.after rows op = some tx') :
    tx'.snapshot = tx.snapshot ∧ tx'.live = tx.live := by
  cases op with
  | goto p | endScan visited p => exact Option.some.inj hafter ▸ ⟨rfl, rfl⟩
  | lock key test next =>
      obtain rfl := Option.some.inj hafter
      split <;> exact ⟨rfl, rfl⟩
  | write key f p =>
      obtain ⟨v, -, rfl⟩ := Option.map_eq_some_iff.mp hafter
      exact ⟨rfl, rfl⟩
  | commit p | rollback => cases hafter

/-- The snapshot of a transaction is one that there was, or the committed rows. -/
theorem snapshot_step {program : Program κ ρ φ θ ι} {a : Action θ ι}
    (h : sys.step program a = some sys') {u : Tx κ ρ φ} (hu : u ∈ sys'.txs) :
    u.snapshot = sys.rows ∨ ∃ tx ∈ sys.txs, u.snapshot = tx.snapshot := by
  have hset : ∀ {i : Nat} {tx v : Tx κ ρ φ}, sys.txs[i]? = some tx → v.snapshot = tx.snapshot →
      u ∈ sys.txs.set i v → ∃ tx ∈ sys.txs, u.snapshot = tx.snapshot := by
    intro i tx v hi hv hmem
    rcases List.mem_or_eq_of_mem_set hmem with hold | rfl
    · exact ⟨u, hold, rfl⟩
    · exact ⟨tx, List.mem_of_getElem? hi, hv⟩
  cases step_cases h with
  | start request =>
      rcases List.mem_append.mp hu with hold | hnew
      · exact .inr ⟨u, hold, rfl⟩
      · rw [List.mem_singleton.mp hnew]
        exact .inl rfl
  | moves hi hlive hop hwaits hafter => exact .inr (hset hi (frame_after hafter).1 hu)
  | ends hi hlive =>
      next i tx => exact .inr (hset hi (show (tx.ended tx.phase).snapshot = _ from rfl) hu)
  | commits hi hlive hop =>
      next i input tx p => exact .inr (hset hi (show (tx.ended p).snapshot = _ from rfl) hu)

/-! ## what a transaction may rely on -/

/-- A property of a transaction and the committed rows. -/
abbrev Property (κ ρ φ : Type) := Tx κ ρ φ → Dict κ ρ → Prop

/-- No two transactions lock one row, each locks what it writes, and a property holds
of those that are under way. -/
structure Inv (J : Property κ ρ φ) (sys : System κ ρ φ) : Prop where
  apart : ∀ (i j : Nat) (tx u : Tx κ ρ φ), i ≠ j → sys.txs[i]? = some tx → sys.txs[j]? = some u →
    ∀ k ∈ tx.locks, k ∉ u.locks
  covered : ∀ (i : Nat) (tx : Tx κ ρ φ), sys.txs[i]? = some tx → ∀ k, tx.written.get? k ≠ none → k ∈ tx.locks
  held : ∀ (i : Nat) (tx : Tx κ ρ φ), sys.txs[i]? = some tx → tx.live = true → J tx sys.rows

omit [DecidableEq κ] in
/-- A system without transactions. -/
theorem not_getElem?_of_nil (h : sys.txs = []) (i : Nat) (tx : Tx κ ρ φ) :
    ¬ sys.txs[i]? = some tx := by
  rw [h]
  exact nofun

theorem Inv.start (h : sys.txs = []) {J : Property κ ρ φ} : Inv J sys where
  apart i _ tx _ _ hi := absurd hi (not_getElem?_of_nil h i tx)
  covered i tx hi := absurd hi (not_getElem?_of_nil h i tx)
  held i tx hi := absurd hi (not_getElem?_of_nil h i tx)

/-- The rules for a property of the transactions: it depends on the rows that the
transaction has locked, it holds at the start, and the transaction's own steps keep
it. -/
structure Rules (program : Program κ ρ φ θ ι) (Ok : System κ ρ φ → Action θ ι → Prop)
    (J : Property κ ρ φ) : Prop where
  stable : ∀ (tx : Tx κ ρ φ) rows rows', (∀ k ∈ tx.locks, rows'.get? k = rows.get? k) → J tx rows → J tx rows'
  start : ∀ sys request, Ok sys (.start request) →
    J { phase := program.received request, snapshot := sys.rows } sys.rows
  own : ∀ sys i input tx tx' op, sys.txs[i]? = some tx → Ok sys (.turn i input) → J tx sys.rows →
    program.next tx.phase tx.view input = some op → tx.after sys.rows op = some tx' → J tx' sys.rows

section Rely

variable {J : Property κ ρ φ} {program : Program κ ρ φ θ ι} {Ok : System κ ρ φ → Action θ ι → Prop}
  {i : Nat} {tx tx' : Tx κ ρ φ}

omit [DecidableEq κ] in
theorem get?_set (hi : sys.txs[i]? = some tx) (tx' : Tx κ ρ φ) (j : Nat) :
    (sys.txs.set i tx')[j]? = if j = i then some tx' else sys.txs[j]? := by
  have hlt : i < sys.txs.length := (List.getElem?_eq_some_iff.mp hi).1
  rw [List.getElem?_set]
  by_cases hij : i = j
  · rw [if_pos hij, if_pos hij.symm, if_pos (hij ▸ hlt)]
  · rw [if_neg hij, if_neg (Ne.symm hij)]

omit [DecidableEq κ] in
theorem get?_start {new u : Tx κ ρ φ} {j : Nat} (hu : (sys.txs ++ [new])[j]? = some u) :
    sys.txs[j]? = some u ∨ u = new := by
  rw [List.getElem?_append] at hu
  split at hu
  · exact Or.inl hu
  · exact Or.inr (List.mem_singleton.mp (List.mem_of_getElem? hu))

/-- What another transaction has locked is not granted. -/
theorem not_mem_of_grants {k : κ} (h : sys.grants i k = true) {j : Nat} (hj : j ≠ i)
    {u : Tx κ ρ φ} (hu : sys.txs[j]? = some u) : k ∉ u.locks := by
  have hmem : (u, j) ∈ sys.txs.zipIdx := List.mem_zipIdx_iff_getElem?.mpr hu
  have hall := List.all_eq_true.mp h _ hmem
  simpa [hj] using hall

/-- An operation locks at most the row it waits for. -/
theorem locks_after {op : Op κ ρ φ} (hwaits : sys.waits i tx op = false)
    (hafter : tx.after sys.rows op = some tx') {k : κ} (hk : k ∈ tx'.locks) :
    k ∈ tx.locks ∨ sys.grants i k = true := by
  cases op with
  | goto p | endScan visited p =>
      obtain rfl := Option.some.inj hafter
      exact Or.inl hk
  | lock key test next =>
      obtain rfl := Option.some.inj hafter
      cases hcur : (tx.current sys.rows key).filter test with
      | none =>
          simp only [hcur] at hk
          exact Or.inl hk
      | some r =>
          simp only [hcur] at hk
          rcases List.mem_cons.mp hk with rfl | hk
          · exact Or.inr (by simpa [System.waits, hcur] using hwaits)
          · exact Or.inl hk
  | write key f p =>
      obtain ⟨r, -, rfl⟩ := Option.map_eq_some_iff.mp hafter
      rcases List.mem_cons.mp hk with rfl | hk
      · exact Or.inr (by simpa [System.waits] using hwaits)
      · exact Or.inl hk
  | commit p | rollback => cases hafter

theorem covered_write {k : κ} {r : ρ} {p : φ} (h : ∀ k, tx.written.get? k ≠ none → k ∈ tx.locks)
    (j : κ) (hj : (tx.write k r p).written.get? j ≠ none) : j ∈ (tx.write k r p).locks := by
  rw [Tx.write, Dict.get?_set] at hj
  split at hj
  · next hjk => exact hjk ▸ List.mem_cons_self
  · exact List.mem_cons_of_mem k (h j hj)

/-- A transaction that goes on has locked what it wrote. -/
theorem covered_after {op : Op κ ρ φ} (h : ∀ k, tx.written.get? k ≠ none → k ∈ tx.locks)
    (hafter : tx.after sys.rows op = some tx') (k : κ) (hk : tx'.written.get? k ≠ none) :
    k ∈ tx'.locks := by
  cases op with
  | goto p | endScan visited p =>
      obtain rfl := Option.some.inj hafter
      exact h k hk
  | lock key test next =>
      obtain rfl := Option.some.inj hafter
      split at hk
      · exact h k hk
      · exact List.mem_cons_of_mem key (h k hk)
  | write key f p =>
      obtain ⟨r, -, rfl⟩ := Option.map_eq_some_iff.mp hafter
      exact covered_write h k hk
  | commit p | rollback => cases hafter

/-- Replace a transaction by one that locks no row of another. -/
theorem Inv.set (h : Inv J sys) (hi : sys.txs[i]? = some tx)
    (hlocks : ∀ (j : Nat) (u : Tx κ ρ φ), j ≠ i → sys.txs[j]? = some u → ∀ k ∈ tx'.locks, k ∉ u.locks)
    (hcovered : ∀ k, tx'.written.get? k ≠ none → k ∈ tx'.locks)
    (hheld : tx'.live = true → J tx' sys.rows) : Inv J (sys.set i tx') := by
  have hget := get?_set hi tx'
  refine ⟨fun j l u v hjl hu hv => ?_, fun j u hu => ?_, fun j u hu hlive => ?_⟩
  · rw [System.set, hget] at hu hv
    split at hu <;> split at hv
    · next hj hl => exact absurd (hj.trans hl.symm) hjl
    · next hj hl =>
        obtain rfl := Option.some.inj hu
        exact hlocks l v hl hv
    · next hj hl =>
        obtain rfl := Option.some.inj hv
        exact fun k hku hkv => hlocks j u hj hu k hkv hku
    · exact h.apart j l u v hjl hu hv
  · rw [System.set, hget] at hu
    split at hu
    · obtain rfl := Option.some.inj hu
      exact hcovered
    · exact h.covered j u hu
  · rw [System.set, hget] at hu
    split at hu
    · obtain rfl := Option.some.inj hu
      exact hheld hlive
    · exact h.held j u hu hlive

theorem Inv.ended (h : Inv J sys) (hi : sys.txs[i]? = some tx) (p : φ) :
    Inv J (sys.set i (tx.ended p)) :=
  h.set hi (fun _ _ _ _ _ hk => absurd hk List.not_mem_nil) (fun _ hk => absurd rfl hk)
    fun hlive => nomatch hlive

/-- Rows that no transaction has locked may change. -/
theorem Inv.frame {rows : Dict κ ρ} (h : Inv J sys)
    (hstable : ∀ (tx : Tx κ ρ φ) rows rows', (∀ k ∈ tx.locks, rows'.get? k = rows.get? k) → J tx rows → J tx rows')
    (hframe : ∀ (j : Nat) (u : Tx κ ρ φ), sys.txs[j]? = some u → ∀ k ∈ u.locks, rows.get? k = sys.rows.get? k) :
    Inv J { sys with rows := rows } :=
  ⟨h.apart, h.covered, fun j u hu hlive =>
    hstable u sys.rows rows (hframe j u hu) (h.held j u hu hlive)⟩

/-- A commit changes rows that only its transaction has locked. -/
theorem flushed_frame (h : Inv J sys) (hi : sys.txs[i]? = some tx) {j : Nat} (hj : j ≠ i)
    {u : Tx κ ρ φ} (hu : sys.txs[j]? = some u) (k : κ) (hk : k ∈ u.locks) :
    (tx.flushed sys.rows).get? k = sys.rows.get? k := by
  rw [Tx.get?_flushed]
  cases hw : tx.written.get? k with
  | none => rw [Option.none_or]
  | some r =>
      have hlocked := h.covered i tx hi k (by rw [hw]; exact Option.some_ne_none r)
      exact absurd hlocked (h.apart j i u tx hj hu hi k hk)

/-- **Every step keeps the property** of the transactions that are under way. -/
theorem inv_step (hrules : Rules program Ok J) (h : Inv J sys) {a : Action θ ι} (hok : Ok sys a)
    (hstep : sys.step program a = some sys') : Inv J sys' := by
  cases step_cases hstep with
  | start request =>
      refine ⟨fun j l u v hjl hu hv k hku hkv => ?_, fun j u hu k hk => ?_, fun j u hu hlive => ?_⟩
      · rcases get?_start hu with hu | rfl
        · rcases get?_start hv with hv | rfl
          · exact h.apart j l u v hjl hu hv k hku hkv
          · cases hkv
        · cases hku
      · rcases get?_start hu with hu | rfl
        · exact h.covered j u hu k hk
        · exact absurd rfl hk
      · rcases get?_start hu with hu | rfl
        · exact h.held j u hu hlive
        · exact hrules.start sys request hok
  | moves hi hlive hop hwaits hafter =>
      refine h.set hi (fun j u hj hu k hk hku => ?_) ?_ fun _ => ?_
      · rcases locks_after hwaits hafter hk with hold | hgrants
        · exact h.apart _ j _ u (Ne.symm hj) hi hu k hold hku
        · exact not_mem_of_grants hgrants hj hu hku
      · exact covered_after (h.covered _ _ hi) hafter
      · exact hrules.own _ _ _ _ _ _ hi hok (h.held _ _ hi hlive) hop hafter
  | ends hi hlive => exact h.ended hi _
  | commits hi hlive hop =>
      refine (h.ended hi _).frame hrules.stable fun j u hu k hk => ?_
      rw [System.set, get?_set hi] at hu
      split at hu
      · obtain rfl := Option.some.inj hu
        cases hk
      · next hj => exact flushed_frame h hi hj hu k hk

end Rely

/-! ## how rows change -/

/-- Every row that a transaction has seen is still there, and relates to it; so does
every row that one wrote to the committed one. -/
structure Extends (R : ρ → ρ → Prop) (sys : System κ ρ φ) : Prop where
  snapshot : ∀ (i : Nat) (tx : Tx κ ρ φ), sys.txs[i]? = some tx → ∀ k r, tx.snapshot.get? k = some r →
    ∃ r', sys.rows.get? k = some r' ∧ R r r'
  written : ∀ (i : Nat) (tx : Tx κ ρ φ), sys.txs[i]? = some tx → ∀ k r w,
    sys.rows.get? k = some r → tx.written.get? k = some w → R r w

theorem Extends.start (h : sys.txs = []) {R : ρ → ρ → Prop} : Extends R sys where
  snapshot i tx hi := absurd hi (not_getElem?_of_nil h i tx)
  written i tx hi := absurd hi (not_getElem?_of_nil h i tx)

section Extends

variable {R : ρ → ρ → Prop} {J : Property κ ρ φ} {program : Program κ ρ φ θ ι} {i : Nat}
  {tx tx' : Tx κ ρ φ}

/-- A commit changes rows as its transaction wrote them. -/
theorem Extends.flushed (h : Extends R sys) (hrefl : ∀ r, R r r) (hi : sys.txs[i]? = some tx) {k : κ}
    {r : ρ} (hr : sys.rows.get? k = some r) : ∃ r', (tx.flushed sys.rows).get? k = some r' ∧ R r r' := by
  rw [Tx.get?_flushed]
  cases hw : tx.written.get? k with
  | none => exact ⟨r, by rw [Option.none_or, hr], hrefl r⟩
  | some w => exact ⟨w, rfl, h.written i tx hi k r w hr hw⟩

/-- What an operation writes relates to the committed row. -/
theorem written_after {op : Op κ ρ φ} (htrans : ∀ a b c, R a b → R b c → R a c)
    (hwrite : ∀ k f p, op = .write k f p → ∀ r w, f (some r) = some w → R r w)
    (h : ∀ k r w, sys.rows.get? k = some r → tx.written.get? k = some w → R r w)
    (hafter : tx.after sys.rows op = some tx') (k : κ) (r w : ρ) (hr : sys.rows.get? k = some r)
    (hw : tx'.written.get? k = some w) : R r w := by
  cases op with
  | goto p | endScan visited p =>
      obtain rfl := Option.some.inj hafter
      exact h k r w hr hw
  | lock key test next =>
      obtain rfl := Option.some.inj hafter
      split at hw
      · exact h k r w hr hw
      · exact h k r w hr hw
  | write key f p =>
      obtain ⟨v, hv, rfl⟩ := Option.map_eq_some_iff.mp hafter
      rw [Tx.write, Dict.get?_set] at hw
      split at hw
      · next hk =>
          obtain rfl := Option.some.inj hw
          subst hk
          rw [Tx.current] at hv
          cases hold : tx.written.get? k with
          | none =>
              rw [hold, Option.none_or, hr] at hv
              exact hwrite k f p rfl r v hv
          | some old =>
              rw [hold, Option.some_or] at hv
              exact htrans _ _ _ (h k r old hr hold) (hwrite k f p rfl old v hv)
      · exact h k r w hr hw
  | commit p | rollback => cases hafter

theorem Extends.set (h : Extends R sys) (hi : sys.txs[i]? = some tx)
    (hsnapshot : tx'.snapshot = tx.snapshot)
    (hwritten : ∀ k r w, sys.rows.get? k = some r → tx'.written.get? k = some w → R r w) :
    Extends R (sys.set i tx') := by
  have hget := get?_set hi tx'
  refine ⟨fun j u hu k r hr => ?_, fun j u hu => ?_⟩
  · rw [System.set, hget] at hu
    split at hu
    · obtain rfl := Option.some.inj hu
      exact h.snapshot i tx hi k r (hsnapshot ▸ hr)
    · exact h.snapshot j u hu k r hr
  · rw [System.set, hget] at hu
    split at hu
    · obtain rfl := Option.some.inj hu
      exact hwritten
    · exact h.written j u hu

/-- **Rows change as the updates change them**, in every interleaving. -/
theorem extends_step (hrefl : ∀ r, R r r) (htrans : ∀ a b c, R a b → R b c → R a c)
    (hwrite : ∀ q view input k f p, program.next q view input = some (.write k f p) →
      ∀ r w, f (some r) = some w → R r w)
    (hinv : Inv J sys) (h : Extends R sys) {a : Action θ ι} (hstep : sys.step program a = some sys') :
    Extends R sys' := by
  cases step_cases hstep with
  | start request =>
      refine ⟨fun j u hu k r hr => ?_, fun j u hu k r w hr hw => ?_⟩
      · rcases get?_start hu with hu | rfl
        · exact h.snapshot j u hu k r hr
        · exact ⟨r, hr, hrefl r⟩
      · rcases get?_start hu with hu | rfl
        · exact h.written j u hu k r w hr hw
        · cases hw
  | moves hi hlive hop hwaits hafter =>
      refine h.set hi (frame_after hafter).1 (written_after htrans ?_ (h.written _ _ hi) hafter)
      rintro k f p rfl
      exact hwrite _ _ _ _ _ _ hop
  | ends hi hlive => exact h.set hi rfl fun _ _ _ _ hw => nomatch hw
  | commits hi hlive hop =>
      next i input tx p =>
      have hended : Extends R (sys.set i (tx.ended p)) := h.set hi rfl fun _ _ _ _ hw => nomatch hw
      refine ⟨fun j u hu k r hr => ?_, fun j u hu k r w hr hw => ?_⟩
      · obtain ⟨r', hr', hrel⟩ := hended.snapshot j u hu k r hr
        obtain ⟨s, hs, hrel'⟩ := h.flushed hrefl hi hr'
        exact ⟨s, hs, htrans _ _ _ hrel hrel'⟩
      · rw [get?_set hi] at hu
        split at hu
        · obtain rfl := Option.some.inj hu
          cases hw
        · next hj =>
            -- what another transaction wrote it has locked
            have hlocked := hinv.covered j u hu k (by rw [hw]; exact Option.some_ne_none w)
            exact h.written j u hu k r w (flushed_frame hinv hi hj hu k hlocked ▸ hr) hw

end Extends

end Transactions
