import CoreLab.Lib.Isolation
import CoreLab.Lib.Transition

/-!
# Lib.IsolationLogic

A program logic for the sessions of `Lib.Isolation`.  A session may rely on the
rows it read under locks, whatever the other sessions do meanwhile: `wp` computes
what it can conclude from them.

* `wp_bind`, `wp_forM` — sequencing and loops;
* `View.Versions` — each version a session wrote relates to the committed one;
* `inv_step` — every commit rewrites rows that still have the values the session
  knew, and its program's `wp` accounts for it.
-/

namespace Isolation

open Relational Keyed

variable {ρ ε γ θ α β : Type} [Keyed ρ]

/-! ## what a program may rely on -/

/-- What a session knows: the committed values of rows it locked, its own
versions, and what it will append to the log. -/
structure View (ρ ε : Type) where
  base : Nat → Option ρ
  written : Nat → Option ρ
  pending : List ε

namespace View

/-- Nothing is known yet. -/
def empty : View ρ ε := ⟨fun _ => none, fun _ => none, []⟩

/-- The known version of a row. -/
def current (v : View ρ ε) (id : Nat) : Option ρ := (v.written id).or (v.base id)

/-- The row is what is known under its key, if anything is. -/
def Agrees (v : View ρ ε) (r : ρ) : Prop := ∀ r', v.current (key r) = some r' → r' = r

/-- Know the rows that were read under locks. -/
def read (v : View ρ ε) (found : List ρ) : View ρ ε :=
  { v with base := fun id =>
      if (v.current id).isSome then v.base id else found.find? fun r => key r == id }

/-- Write a new version of a row. -/
def write (v : View ρ ε) (old new : ρ) : View ρ ε :=
  { v.read [old] with written := Function.update v.written (key old) (some new) }

/-- Insert a row. -/
def insert (v : View ρ ε) (id : Nat) (r : ρ) : View ρ ε :=
  { v with written := Function.update v.written id (some r) }

/-- Append to the log. -/
def emit (v : View ρ ε) (e : ε) : View ρ ε := { v with pending := v.pending ++ [e] }

/-- Each version the session wrote of a committed row relates to that row. -/
def Versions (R : ρ → ρ → Prop) (v : View ρ ε) : Prop :=
  ∀ id r r', v.base id = some r → v.written id = some r' → R r r'

section Versions

variable {R : ρ → ρ → Prop} {v : View ρ ε}

omit [Keyed ρ] in
theorem current_eq_of_written {id : Nat} {r : ρ} (h : v.written id = some r) :
    v.current id = some r := by
  rw [current, h, Option.some_or]

/-- A row that was read is known, as it was before if it was known. -/
theorem current_read {found : List ρ} (hnodup : (found.map key).Nodup) {r : ρ} (hr : r ∈ found)
    (hagrees : v.Agrees r) : (v.read found).current (key r) = some r := by
  have hfind : found.find? (fun x => key x == key r) = some r := by
    cases hf : found.find? (fun x => key x == key r) with
    | none => simpa using List.find?_eq_none.mp hf r hr
    | some x =>
        have hkey : key x = key r := by simpa using List.find?_some hf
        rw [List.inj_on_of_nodup_map hnodup (List.mem_of_find?_eq_some hf) hr hkey]
  unfold current read
  dsimp only
  cases hw : v.written (key r) with
  | some w => exact congrArg some (hagrees w (current_eq_of_written hw))
  | none =>
      rw [Option.none_or]
      cases hb : v.base (key r) with
      | none => simp [current, hw, hb, hfind]
      | some b =>
          have hcur : v.current (key r) = some b := by simp [current, hw, hb]
          simp [hcur, hagrees b hcur]

theorem Versions.read (h : v.Versions R) (found : List ρ) : (v.read found).Versions R := by
  intro id r r' hb hw
  have hknown : (v.current id).isSome = true := by
    rw [current_eq_of_written (show v.written id = some r' from hw), Option.isSome_some]
  simp only [View.read, if_pos hknown] at hb
  exact h id r r' hb hw

/-- A version that the committed row may turn into, as soon as the last one may. -/
theorem Versions.write (h : v.Versions R) (hrefl : ∀ r, R r r) {old new : ρ}
    (hagrees : v.Agrees old) (hstep : ∀ r, R r old → R r new) : (v.write old new).Versions R := by
  intro id r r' hb hw
  simp only [View.write, Function.update_apply] at hw
  split at hw
  · next hid =>
      subst hid
      rw [← Option.some.inj hw]
      refine hstep r ?_
      change (v.read [old]).base (key old) = some r at hb
      cases hwritten : v.written (key old) with
      | some w =>
          have hw' := hagrees w (current_eq_of_written hwritten)
          exact hw' ▸ h.read [old] (key old) r w hb hwritten
      | none =>
          have hcur : (v.read [old]).current (key old) = some r := by
            simpa [current, View.read, hwritten] using hb
          have hnodup : ([old].map key).Nodup := List.nodup_singleton _
          have hold := current_read hnodup (List.mem_singleton_self old) hagrees
          obtain rfl := Option.some.inj (hcur.symm.trans hold)
          exact hrefl r
  · exact h.read [old] id r r' hb hw

omit [Keyed ρ] in
theorem Versions.insert (h : v.Versions R) {id : Nat} (hid : v.current id = none) (r : ρ) :
    (v.insert id r).Versions R := by
  intro j x y hb hw
  simp only [View.insert, Function.update_apply] at hb hw
  split at hw
  · next hj =>
      rw [hj] at hb
      simp [current, hb] at hid
  · exact h j x y hb hw

end Versions

/-- What is known of the other rows is not touched by a write. -/
theorem current_write_of_ne {v : View ρ ε} {old new : ρ} {id : Nat} (h : id ≠ key old) :
    (v.write old new).current id = v.current id := by
  have hfind : [old].find? (fun r => key r == id) = none := by simpa using Ne.symm h
  simp only [current, write, read, Function.update_apply, if_neg h, hfind]
  cases hw : v.written id with
  | some w => rfl
  | none => cases hb : v.base id <;> simp

/-- Writing a known row teaches nothing about committed rows. -/
theorem base_write_of_known {v : View ρ ε} {old new : ρ} (h : v.current (key old) = some old) :
    (v.write old new).base = v.base := by
  funext id
  simp only [write, read]
  split
  · rfl
  · next hunknown =>
      have hid : id ≠ key old := by
        rintro rfl
        simp [h] at hunknown
      have hbase : v.base id = none := by
        cases hb : v.base id with
        | none => rfl
        | some b => cases hw : v.written id <;> simp [current, hw, hb] at hunknown
      simpa [hbase] using Ne.symm hid

end View

/-- A query returns the current rows, locked: the objects were all read under locks, or
they are populated from locked rows. -/
def trusted (serializable forUpdate populateExisting : Bool) : Bool :=
  serializable || forUpdate && populateExisting

/-- The program, begun in a view, ends in a result and a view that `post` holds
of, and commits only in a view that `commits` holds of. -/
def wp (serializable : Bool) (commits : View ρ ε → Prop) :
    Program ρ ε γ α → (α → View ρ ε → Prop) → View ρ ε → Prop
  | .pure a, post, v => post a v
  | .stop c, _, v => c = true → commits v
  | .ask k, post, v => ∀ answer, wp serializable commits (k answer) post v
  | .get id k, post, v =>
    (serializable = true → wp serializable commits (k none) post v ∧ ∀ r, key r = id → v.Agrees r →
      wp serializable commits (k (some r)) post (v.read [r])) ∧
    (serializable = false → ∀ r, wp serializable commits (k r) post v)
  | .select test forUpdate populateExisting k, post, v =>
    (trusted serializable forUpdate populateExisting = true → ∀ found, (found.map key).Nodup →
      (∀ r ∈ found, test r = true ∧ v.Agrees r) →
        wp serializable commits (k found) post (v.read found)) ∧
    (trusted serializable forUpdate populateExisting = false → ∀ found,
      wp serializable commits (k found) post v)
  | .update id f _ k, post, v => ∀ r, key r = id → v.Agrees r →
      wp serializable commits k post (v.write r (f r))
  | .insert b k, post, v => ∀ id, v.current id = none →
      wp serializable commits (k id) post (v.insert id (b.1 id))
  | .emit e k, post, v => wp serializable commits k post (v.emit e)

section Rules

variable {serializable : Bool} {commits : View ρ ε → Prop} {v : View ρ ε}

/-- A weaker postcondition. -/
theorem wp_mono {x : Program ρ ε γ α} {post post' : α → View ρ ε → Prop}
    (hpost : ∀ a v, post a v → post' a v) (h : wp serializable commits x post v) :
    wp serializable commits x post' v := by
  induction x generalizing v with
  | pure a => exact hpost a v h
  | stop c => exact h
  | ask k ih => exact fun answer => ih answer (h answer)
  | get id k ih =>
      exact ⟨fun hs => ⟨ih none (h.1 hs).1, fun r hr ha => ih (some r) ((h.1 hs).2 r hr ha)⟩,
        fun hs r => ih r (h.2 hs r)⟩
  | select test u p k ih =>
      exact ⟨fun ht found hnodup hall => ih found (h.1 ht found hnodup hall),
        fun ht found => ih found (h.2 ht found)⟩
  | update id f hf k ih => exact fun r hr ha => ih (h r hr ha)
  | insert b k ih => exact fun id hid => ih id (h id hid)
  | emit e k ih => exact ih h

theorem wp_pure {a : α} {post : α → View ρ ε → Prop} :
    wp serializable (γ := γ) commits (.pure a) post v ↔ post a v :=
  Iff.rfl

/-- Sequencing. -/
theorem wp_bind {x : Program ρ ε γ α} {f : α → Program ρ ε γ β} {post : β → View ρ ε → Prop} :
    wp serializable commits (x >>= f) post v ↔
      wp serializable commits x (fun a v => wp serializable commits (f a) post v) v := by
  change wp serializable commits (x.bind f) post v ↔ _
  induction x generalizing v with
  | pure a => exact Iff.rfl
  | stop c => exact Iff.rfl
  | ask k ih => exact forall_congr' fun answer => ih answer
  | get id k ih =>
      exact and_congr (forall_congr' fun _ => and_congr (ih none) (forall₃_congr fun r _ _ => ih (some r)))
        (forall₂_congr fun _ r => ih r)
  | select test u p k ih =>
      exact and_congr (forall_congr' fun _ => forall₃_congr fun found _ _ => ih found)
        (forall₂_congr fun _ found => ih found)
  | update id g hg k ih => exact forall₃_congr fun r _ _ => ih
  | insert b k ih => exact forall₂_congr fun id _ => ih id
  | emit e k ih => exact ih

/-- A loop, by an invariant on the elements that are left. -/
theorem wp_forM {l : List β} {f : β → Program ρ ε γ PUnit} {I : List β → View ρ ε → Prop}
    {post : PUnit → View ρ ε → Prop} (hstart : I l v)
    (hstep : ∀ b rest v, I (b :: rest) v → wp serializable commits (f b) (fun _ v => I rest v) v)
    (hend : ∀ v, I [] v → post ⟨⟩ v) : wp serializable commits (l.forM f) post v := by
  induction l generalizing v with
  | nil => exact hend v hstart
  | cons b l ih =>
      refine wp_bind.mpr ?_
      exact wp_mono (fun _ v hv => ih hv) (hstep b l v hstart)

/-- A plain load, in a view of which only what reading keeps is wanted. -/
theorem wp_get {P : View ρ ε → Prop} (hread : ∀ v found, P v → P (v.read found)) {id : Nat}
    {k : Option ρ → Program ρ ε γ α} {post : α → View ρ ε → Prop} (hv : P v)
    (hk : ∀ r v, P v → wp serializable commits (k r) post v) :
    wp serializable commits (.get id k) post v :=
  ⟨fun _ => ⟨hk none v hv, fun r _ _ => hk (some r) _ (hread v [r] hv)⟩, fun _ r => hk r v hv⟩

/-- A query, likewise. -/
theorem wp_select {P : View ρ ε → Prop} (hread : ∀ v found, P v → P (v.read found))
    {test : ρ → Bool} {u p : Bool} {k : List ρ → Program ρ ε γ α} {post : α → View ρ ε → Prop}
    (hv : P v) (hk : ∀ found v, P v → wp serializable commits (k found) post v) :
    wp serializable commits (.select test u p k) post v :=
  ⟨fun _ found _ _ => hk found _ (hread v found hv), fun _ found => hk found v hv⟩

/-- A query whose result can be trusted. -/
theorem wp_select_trusted {test : ρ → Bool} {u p : Bool}
    (ht : trusted serializable u p = true) {k : List ρ → Program ρ ε γ α}
    {post : α → View ρ ε → Prop}
    (hk : ∀ found, (found.map key).Nodup → (∀ r ∈ found, test r = true ∧ v.Agrees r) →
      wp serializable commits (k found) post (v.read found)) :
    wp serializable commits (.select test u p k) post v :=
  ⟨fun _ => hk, fun hf => nomatch ht.symm.trans hf⟩

/-- An update of a known row. -/
theorem wp_update_known {r : ρ} (hr : v.current (key r) = some r) {f : ρ → ρ}
    {hf : ∀ r, key (f r) = key r} {k : Program ρ ε γ α} {post : α → View ρ ε → Prop}
    (hk : wp serializable commits k post (v.write r (f r))) :
    wp serializable commits (.update (key r) f hf k) post v := by
  intro x hx hagrees
  obtain rfl : r = x := hagrees r (hx ▸ hr)
  exact hk

end Rules

/-! ## what holds of a running system -/

/-- What the session is doing while it scans. -/
structure Scanning (rows : Nat → Option ρ) (s : Session θ ρ ε γ) (scan : Scan ρ)
    (test : ρ → Bool) (forUpdate populateExisting : Bool) : Prop where
  locking : s.mode forUpdate ≠ none
  nodup : (scan.found.map key).Nodup
  visited : ∀ r ∈ scan.found, key r ∈ scan.visited
  /-- Objects that can be trusted are current, and stay so under their locks. -/
  current : trusted s.serializable forUpdate populateExisting = true → ∀ r ∈ scan.found,
    test r = true ∧ s.locks (key r) ≠ none ∧ s.current rows (key r) = some r

/-- The session runs its program, and its locks keep what the program relies on. -/
structure Tracks (commits : View ρ ε → Prop) (rows : Nat → Option ρ) (nextKey : Nat)
    (s : Session θ ρ ε γ) (base : Nat → Option ρ) : Prop where
  program : wp s.serializable commits s.program (fun _ => commits) ⟨base, s.written, s.pending⟩
  known : ∀ id r, base id = some r → s.locks id ≠ none ∧ rows id = some r
  versions : ∀ id r, s.written id = some r → s.locks id = some .exclusive ∧ key r = id
  fresh : ∀ id, s.written id ≠ none → base id = none → rows id = none
  held : ∀ id, s.locks id ≠ none → id < nextKey
  objects : ∀ id r, s.identityMap id = some r → key r = id
  /-- A serializable session locked all it has loaded. -/
  loaded : s.serializable = true → ∀ id r, s.identityMap id = some r →
    s.locks id ≠ none ∧ s.current rows id = some r
  scanning : ∀ scan, s.scan = some scan → ∃ test forUpdate populateExisting k,
    s.program = .select test forUpdate populateExisting k ∧
      Scanning rows s scan test forUpdate populateExisting

/-- Neither session holds an exclusive lock on a row that the other has locked. -/
def Apart (s u : Session θ ρ ε γ) : Prop :=
  ∀ id, (s.locks id = some .exclusive → u.locks id = none) ∧
    (u.locks id = some .exclusive → s.locks id = none)

/-- The invariant. -/
structure Inv (commits : θ → View ρ ε → Prop) (sys : System θ ρ ε γ) : Prop where
  keys : ∀ id r, sys.rows id = some r → key r = id ∧ id < sys.nextKey
  sessions : ∀ (i : Nat) s, sys.sessions[i]? = some s →
    ∃ base, Tracks (commits s.request) sys.rows sys.nextKey s base
  apart : ∀ (i j : Nat) s u, i ≠ j → sys.sessions[i]? = some s → sys.sessions[j]? = some u → Apart s u

section Tracks

variable {commits : View ρ ε → Prop} {rows rows' : Nat → Option ρ} {nextKey nextKey' : Nat}
  {s : Session θ ρ ε γ} {base : Nat → Option ρ}

/-- **Frame**: what other sessions do to rows that this one has not locked is nothing to it. -/
theorem Tracks.frame (h : Tracks commits rows nextKey s base)
    (hrows : ∀ id, s.locks id ≠ none → rows' id = rows id) (hkey : nextKey ≤ nextKey') :
    Tracks commits rows' nextKey' s base := by
  have hcurrent : ∀ id, s.locks id ≠ none → s.current rows' id = s.current rows id := by
    intro id hid
    rw [Session.current, Session.current, hrows id hid]
  refine { h with known := ?_, fresh := ?_, held := ?_, loaded := ?_, scanning := ?_ }
  · intro id r hr
    obtain ⟨hlock, hrow⟩ := h.known id r hr
    exact ⟨hlock, (hrows id hlock).trans hrow⟩
  · intro id hw hb
    obtain ⟨r, hr⟩ := Option.ne_none_iff_exists'.mp hw
    have hlock : s.locks id ≠ none := by rw [(h.versions id r hr).1]; exact Option.some_ne_none _
    exact (hrows id hlock).trans (h.fresh id hw hb)
  · exact fun id hid => Nat.lt_of_lt_of_le (h.held id hid) hkey
  · intro hs id r hr
    obtain ⟨hlock, hcur⟩ := h.loaded hs id r hr
    exact ⟨hlock, (hcurrent id hlock).trans hcur⟩
  · intro scan hscan
    obtain ⟨test, u, p, k, hprog, hsc⟩ := h.scanning scan hscan
    refine ⟨test, u, p, k, hprog, { hsc with current := ?_ }⟩
    intro ht r hr
    obtain ⟨htest, hlock, hcur⟩ := hsc.current ht r hr
    exact ⟨htest, hlock, (hcurrent _ hlock).trans hcur⟩

/-- What is known of a row is its current version. -/
theorem Tracks.current_of_known (h : Tracks commits rows nextKey s base) {id : Nat} {r : ρ}
    (hr : (⟨base, s.written, s.pending⟩ : View ρ ε).current id = some r) :
    s.current rows id = some r := by
  change (s.written id).or (base id) = some r at hr
  unfold Session.current
  cases hw : s.written id with
  | some w => rwa [hw] at hr
  | none =>
      rw [hw, Option.none_or] at hr
      rw [Option.none_or]
      exact (h.known id r hr).2

/-- The current version of a row agrees with what is known. -/
theorem Tracks.agrees (h : Tracks commits rows nextKey s base) {r : ρ}
    (hr : s.current rows (key r) = some r) :
    (⟨base, s.written, s.pending⟩ : View ρ ε).Agrees r := by
  intro r' hr'
  exact Option.some.inj ((h.current_of_known hr').symm.trans hr)

theorem Tracks.key_of_current (h : Tracks commits rows nextKey s base)
    (hkeys : ∀ id r, rows id = some r → key r = id ∧ id < nextKey) {id : Nat} {r : ρ}
    (hr : s.current rows id = some r) : key r = id ∧ id < nextKey := by
  unfold Session.current at hr
  cases hw : s.written id with
  | none =>
      rw [hw, Option.none_or] at hr
      exact hkeys id r hr
  | some w =>
      rw [hw, Option.some_or] at hr
      obtain rfl := Option.some.inj hr
      obtain ⟨hlock, hkey⟩ := h.versions id w hw
      exact ⟨hkey, h.held id (by rw [hlock]; exact Option.some_ne_none _)⟩

theorem mode_eq_none {forUpdate : Bool} (h : s.mode forUpdate = none) :
    s.serializable = false ∧ forUpdate = false := by
  unfold Session.mode at h
  cases forUpdate with
  | true => cases h
  | false =>
      refine ⟨?_, rfl⟩
      by_contra hs
      simp [hs] at h

theorem found_singleton {r : ρ} (hlock : s.locks (key r) ≠ none)
    (hcur : s.current rows (key r) = some r) :
    ∀ x ∈ [r], s.locks (key x) ≠ none ∧ s.current rows (key x) = some x := by
  intro x hx
  obtain rfl := List.mem_singleton.mp hx
  exact ⟨hlock, hcur⟩

theorem lock_ne_none {id : Nat} {m : Mode} : (s.lock id m).locks id ≠ none := by
  simp [Session.lock]

theorem foldl_keep_request (found : List ρ) (s : Session θ ρ ε γ) :
    (found.foldl .keep s).request = s.request := by
  induction found generalizing s with
  | nil => rfl
  | cons o found ih => exact ih (s.keep o)

theorem foldl_keep_locks (found : List ρ) (s : Session θ ρ ε γ) :
    (found.foldl .keep s).locks = s.locks := by
  induction found generalizing s with
  | nil => rfl
  | cons o found ih => exact ih (s.keep o)

/-- A session without a transaction relies on nothing. -/
theorem tracks_of_idle (hprog : wp s.serializable commits s.program (fun _ => commits)
      ⟨fun _ => none, s.written, s.pending⟩) (hlocks : ∀ id, s.locks id = none)
    (hwritten : ∀ id, s.written id = none) (hmap : ∀ id, s.identityMap id = none)
    (hscan : s.scan = none) : Tracks commits rows nextKey s (fun _ => none) where
  program := hprog
  known := fun _ _ h => by cases h
  versions := fun id r h => by rw [hwritten] at h; cases h
  fresh := fun id h => absurd (hwritten id) h
  held := fun id h => absurd (hlocks id) h
  objects := fun id r h => by rw [hmap] at h; cases h
  loaded := fun _ id r h => by rw [hmap] at h; cases h
  scanning := fun scan h => by rw [hscan] at h; cases h

/-- Only a query is interrupted by other steps. -/
theorem Tracks.scan_eq_none (h : Tracks commits rows nextKey s base)
    (hprog : ∀ test u p k, s.program ≠ .select test u p k) : s.scan = none := by
  cases hscan : s.scan with
  | none => rfl
  | some scan =>
      obtain ⟨test, u, p, k, hselect, -⟩ := h.scanning scan hscan
      exact absurd hselect (hprog test u p k)

/-- A further lock. -/
theorem Tracks.lock (h : Tracks commits rows nextKey s base) {id : Nat} (hid : id < nextKey)
    (m : Mode) : Tracks commits rows nextKey (s.lock id m) base := by
  have hlocks : ∀ j, s.locks j ≠ none → (s.lock id m).locks j ≠ none := by
    intro j hj
    simp only [Session.lock, Function.update_apply]
    split
    · exact Option.some_ne_none _
    · exact hj
  refine { h with known := ?_, versions := ?_, held := ?_, loaded := ?_, scanning := ?_ }
  · intro j r hr
    exact ⟨hlocks j (h.known j r hr).1, (h.known j r hr).2⟩
  · intro j r hr
    obtain ⟨hlock, hkey⟩ := h.versions j r hr
    refine ⟨?_, hkey⟩
    simp only [Session.lock, Function.update_apply]
    split
    · next hj => rw [← hj, if_pos hlock]
    · exact hlock
  · intro j hj
    simp only [Session.lock, Function.update_apply] at hj
    split at hj
    · next heq => exact heq ▸ hid
    · exact h.held j hj
  · intro hs j r hr
    exact ⟨hlocks j (h.loaded hs j r hr).1, (h.loaded hs j r hr).2⟩
  · intro scan hscan
    obtain ⟨test, u, p, k, hprog, hsc⟩ := h.scanning scan hscan
    refine ⟨test, u, p, k, hprog, { hsc with current := ?_ }⟩
    intro ht r hr
    obtain ⟨htest, hlock, hcur⟩ := hsc.current ht r hr
    exact ⟨htest, hlocks _ hlock, hcur⟩

/-- A further object, which a serializable session has locked. -/
theorem Tracks.keep (h : Tracks commits rows nextKey s base) {o : ρ}
    (ho : s.serializable = true → s.locks (key o) ≠ none ∧ s.current rows (key o) = some o) :
    Tracks commits rows nextKey (s.keep o) base := by
  refine { h with objects := ?_, loaded := ?_, scanning := ?_ }
  · intro id r hr
    simp only [Session.keep, Function.update_apply] at hr
    split at hr
    · next hid => rw [← Option.some.inj hr, hid]
    · exact h.objects id r hr
  · intro hs id r hr
    simp only [Session.keep, Function.update_apply] at hr
    split at hr
    · next hid =>
        rw [hid, ← Option.some.inj hr]
        exact ho hs
    · exact h.loaded hs id r hr
  · intro scan hscan
    obtain ⟨test, u, p, k, hprog, hsc⟩ := h.scanning scan hscan
    exact ⟨test, u, p, k, hprog, ⟨hsc.locking, hsc.nodup, hsc.visited, hsc.current⟩⟩

/-- A snapshot is taken. -/
theorem Tracks.takeSnapshot (h : Tracks commits rows nextKey s base)
    (snapshot : Option (Nat → Option ρ)) :
    Tracks commits rows nextKey { s with snapshot := snapshot } base := by
  refine { h with scanning := ?_ }
  intro scan hscan
  obtain ⟨test, u, p, k, hprog, hsc⟩ := h.scanning scan hscan
  exact ⟨test, u, p, k, hprog, ⟨hsc.locking, hsc.nodup, hsc.visited, hsc.current⟩⟩

/-- Objects are kept outside of a serializable transaction. -/
theorem Tracks.keepAll (h : Tracks commits rows nextKey s base) (hs : s.serializable = false)
    (found : List ρ) : Tracks commits rows nextKey (found.foldl .keep s) base := by
  induction found generalizing s with
  | nil => exact h
  | cons o found ih =>
      refine ih (h.keep fun htrue => ?_) hs
      rw [hs] at htrue
      cases htrue

/-- A query goes on. -/
theorem Tracks.scanOn (h : Tracks commits rows nextKey s base) {scan : Scan ρ}
    {test : ρ → Bool} {u p : Bool} {k : List ρ → Program ρ ε γ Unit}
    (hprog : s.program = .select test u p k) (hsc : Scanning rows s scan test u p) :
    Tracks commits rows nextKey { s with scan := some scan } base := by
  refine { h with scanning := ?_ }
  intro scan' hscan
  obtain rfl := Option.some.inj hscan
  exact ⟨test, u, p, k, hprog, ⟨hsc.locking, hsc.nodup, hsc.visited, hsc.current⟩⟩

/-- The query under way is the one the program is at. -/
theorem Tracks.scanning_of (h : Tracks commits rows nextKey s base) {scan : Scan ρ}
    {test : ρ → Bool} {u p : Bool} {k : List ρ → Program ρ ε γ Unit}
    (hprog : s.program = .select test u p k) (hscan : s.scan = some scan) :
    Scanning rows s scan test u p := by
  obtain ⟨test', u', p', k', hprog', hsc⟩ := h.scanning scan hscan
  obtain ⟨rfl, rfl, rfl, -⟩ := Program.select.inj (hprog.symm.trans hprog')
  exact hsc

/-- An object has the key of its row. -/
theorem Tracks.key_object (h : Tracks commits rows nextKey s base) (p : Bool) (r : ρ) :
    key (s.object p r) = key r := by
  unfold Session.object
  split
  · rfl
  · cases hmap : s.identityMap (key r) with
    | none => rfl
    | some o => exact h.objects _ o hmap

/-- A trusted object is the current row. -/
theorem Tracks.object_eq (h : Tracks commits rows nextKey s base) {u p : Bool}
    (ht : trusted s.serializable u p = true) {r : ρ} (hr : s.current rows (key r) = some r) :
    s.object p r = r := by
  unfold Session.object
  split
  · rfl
  · next hp =>
      cases hmap : s.identityMap (key r) with
      | none => rfl
      | some o =>
          have hs : s.serializable = true := by simpa [trusted, hp] using ht
          exact Option.some.inj ((h.loaded hs _ o hmap).2.symm.trans hr)

/-- What is known after rows were read under locks. -/
theorem Tracks.known_read (h : Tracks commits rows nextKey s base) {found : List ρ}
    (hfound : ∀ r ∈ found, s.locks (key r) ≠ none ∧ s.current rows (key r) = some r) {id : Nat}
    {r : ρ} (hr : ((⟨base, s.written, s.pending⟩ : View ρ ε).read found).base id = some r) :
    s.locks id ≠ none ∧ rows id = some r := by
  simp only [View.read] at hr
  split at hr
  · exact h.known id r hr
  · next hunknown =>
      have hmem := List.mem_of_find?_eq_some hr
      obtain rfl : key r = id := by simpa using List.find?_some hr
      obtain ⟨hlock, hcur⟩ := hfound r hmem
      refine ⟨hlock, ?_⟩
      have hnone : s.written (key r) = none := by
        cases hw : s.written (key r) with
        | none => rfl
        | some w => exact absurd (by simp [View.current, hw]) hunknown
      rwa [Session.current, hnone, Option.none_or] at hcur

/-- A row of the session's own is as unknown after a read as before. -/
theorem Tracks.fresh_read (h : Tracks commits rows nextKey s base) (found : List ρ) {id : Nat}
    (hw : s.written id ≠ none)
    (hb : ((⟨base, s.written, s.pending⟩ : View ρ ε).read found).base id = none) :
    rows id = none := by
  obtain ⟨w, hsome⟩ := Option.ne_none_iff_exists'.mp hw
  have hknown : ((⟨base, s.written, s.pending⟩ : View ρ ε).current id).isSome = true := by
    simp [View.current, hsome]
  simp only [View.read, if_pos hknown] at hb
  exact h.fresh id hw hb

/-- **Read**: the program goes on with rows that are current and locked. -/
theorem Tracks.read (h : Tracks commits rows nextKey s base) {found : List ρ}
    (hfound : ∀ r ∈ found, s.locks (key r) ≠ none ∧ s.current rows (key r) = some r)
    (hscan : s.scan = none) {p : Program ρ ε γ Unit}
    (hp : wp s.serializable commits p (fun _ => commits)
      ((⟨base, s.written, s.pending⟩ : View ρ ε).read found)) :
    Tracks commits rows nextKey { s with program := p }
      ((⟨base, s.written, s.pending⟩ : View ρ ε).read found).base :=
  { h with
    program := hp
    known := fun _ _ hr => h.known_read hfound hr
    fresh := fun _ hw hb => h.fresh_read found hw hb
    scanning := fun _ hsome => nomatch hscan.symm.trans hsome }

/-- The program goes on without having learnt of a row. -/
theorem Tracks.resume (h : Tracks commits rows nextKey s base) (hscan : s.scan = none)
    {p : Program ρ ε γ Unit} {pending : List ε}
    (hp : wp s.serializable commits p (fun _ => commits) ⟨base, s.written, pending⟩) :
    Tracks commits rows nextKey { s with program := p, pending := pending } base :=
  { h with program := hp, scanning := fun _ hsome => nomatch hscan.symm.trans hsome }

/-- **Write**: the program goes on after a new version of a row it has locked. -/
theorem Tracks.write (h : Tracks commits rows nextKey s base) {id : Nat} {r : ρ}
    (hlock : s.locks id = some .exclusive) (hr : s.current rows id = some r) (hid : key r = id)
    {f : ρ → ρ} (hf : ∀ r, key (f r) = key r) (hscan : s.scan = none) {p : Program ρ ε γ Unit}
    (hp : wp s.serializable commits p (fun _ => commits)
      ((⟨base, s.written, s.pending⟩ : View ρ ε).write r (f r))) :
    Tracks commits rows nextKey { s with
        written := Function.update s.written id (some (f r))
        identityMap := Function.update s.identityMap id ((s.identityMap id).map f)
        program := p }
      ((⟨base, s.written, s.pending⟩ : View ρ ε).write r (f r)).base := by
  subst hid
  have hfound := found_singleton (hlock.trans_ne (Option.some_ne_none _)) hr
  refine { h with
    program := hp
    known := fun _ _ hx => h.known_read hfound hx
    scanning := fun _ hsome => nomatch hscan.symm.trans hsome
    versions := ?_, fresh := ?_, objects := ?_, loaded := ?_ }
  · intro j x hx
    simp only [Function.update_apply] at hx
    split at hx
    · next hj => exact ⟨hj ▸ hlock, by rw [← Option.some.inj hx, hf, hj]⟩
    · exact h.versions j x hx
  · intro j hw hb
    by_cases hj : j = key r
    · subst hj
      -- the row was read for this write, unless the session had inserted it
      cases hw' : s.written (key r) with
      | some w => exact h.fresh_read [r] (by rw [hw']; exact Option.some_ne_none _) hb
      | none =>
          have hbase : base (key r) = none := by
            by_contra hne
            obtain ⟨x, hx⟩ := Option.ne_none_iff_exists'.mp hne
            simp [View.write, View.read, View.current, hx] at hb
          simp [View.write, View.read, View.current, hw', hbase] at hb
    · simp only [Function.update_apply, if_neg hj] at hw
      exact h.fresh_read [r] hw hb
  · intro j x hx
    simp only [Function.update_apply] at hx
    split at hx
    · next hj =>
        obtain ⟨o, ho, rfl⟩ := Option.map_eq_some_iff.mp hx
        rw [hf, hj]
        exact h.objects _ o ho
    · exact h.objects j x hx
  · intro hs j x hx
    simp only [Function.update_apply] at hx
    split at hx
    · next hj =>
        subst hj
        obtain ⟨o, ho, rfl⟩ := Option.map_eq_some_iff.mp hx
        obtain ⟨-, hcur⟩ := h.loaded hs _ o ho
        obtain rfl : o = r := Option.some.inj (hcur.symm.trans hr)
        exact ⟨by rw [hlock]; exact Option.some_ne_none _, by simp [Session.current]⟩
    · next hj =>
        obtain ⟨hl, hcur⟩ := h.loaded hs j x hx
        refine ⟨hl, ?_⟩
        simpa [Session.current, Function.update_apply, hj] using hcur

/-- **Insert**: the program goes on after a row of its own under the next key. -/
theorem Tracks.insert (h : Tracks commits rows nextKey s base) (hnew : rows nextKey = none)
    (b : Table.Insertion ρ) (hscan : s.scan = none) {p : Program ρ ε γ Unit}
    (hp : wp s.serializable commits p (fun _ => commits)
      ((⟨base, s.written, s.pending⟩ : View ρ ε).insert nextKey (b.1 nextKey))) :
    Tracks commits rows (nextKey + 1)
      { (s.lock nextKey .exclusive).keep (b.1 nextKey) with
        written := Function.update s.written nextKey (some (b.1 nextKey)), program := p } base := by
  have hfree : s.locks nextKey = none := by
    by_contra hne
    exact Nat.lt_irrefl _ (h.held nextKey hne)
  have hlocks : ∀ j, s.locks j ≠ none → j ≠ nextKey := by
    rintro j hj rfl
    exact hj hfree
  have hlocked : ∀ j, s.locks j ≠ none → (s.lock nextKey .exclusive).locks j = s.locks j := by
    intro j hj
    simp only [Session.lock, Function.update_apply, if_neg (hlocks j hj)]
  have hself : (s.lock nextKey .exclusive).locks nextKey = some .exclusive := by
    simp [Session.lock]
  refine
    { program := hp, known := ?_, versions := ?_, fresh := ?_, held := ?_, objects := ?_
      loaded := ?_, scanning := fun _ hsome => nomatch hscan.symm.trans hsome }
  · intro j r hr
    obtain ⟨hl, hrow⟩ := h.known j r hr
    exact ⟨(hlocked j hl).trans_ne hl, hrow⟩
  · intro j r hr
    simp only [Function.update_apply] at hr
    split at hr
    · next hj =>
        subst hj
        exact ⟨hself, by rw [← Option.some.inj hr, b.2]⟩
    · obtain ⟨hl, hkey⟩ := h.versions j r hr
      exact ⟨(hlocked j (by rw [hl]; exact Option.some_ne_none _)).trans hl, hkey⟩
  · intro j hw hb
    by_cases hj : j = nextKey
    · exact hj ▸ hnew
    · simp only [Function.update_apply, if_neg hj] at hw
      exact h.fresh j hw hb
  · intro j hj
    by_cases heq : j = nextKey
    · omega
    · simp only [Session.keep, Session.lock, Function.update_apply, if_neg heq] at hj
      have := h.held j hj
      omega
  · intro j r hr
    simp only [Session.keep, Session.lock, Function.update_apply, b.2] at hr
    split at hr
    · next hj => rw [← Option.some.inj hr, b.2, hj]
    · exact h.objects j r hr
  · intro hs j r hr
    simp only [Session.keep, Session.lock, Function.update_apply, b.2] at hr
    split at hr
    · next hj =>
        subst hj
        exact ⟨hself.trans_ne (Option.some_ne_none _), by simpa [Session.current] using hr⟩
    · next hj =>
        obtain ⟨hl, hcur⟩ := h.loaded hs j r hr
        exact ⟨(hlocked j hl).trans_ne hl, by
          simpa [Session.current, Function.update_apply, hj] using hcur⟩

end Tracks

/-! ## steps -/

section Locks

variable {s u : Session θ ρ ε γ}

theorem Apart.symm (h : Apart s u) : Apart u s := fun id => ⟨(h id).2, (h id).1⟩

/-- A lock that was granted keeps the sessions apart. -/
theorem Apart.lock (h : Apart s u) {id : Nat} {m : Mode} (hm : m.admits (u.locks id) = true) :
    Apart (s.lock id m) u := by
  intro j
  simp only [Session.lock, Function.update_apply]
  by_cases hj : j = id
  · subst hj
    rw [if_pos rfl]
    refine ⟨fun hx => ?_, fun hx => ?_⟩
    · by_cases hs : s.locks j = some .exclusive
      · exact (h j).1 hs
      · rw [if_neg hs, Option.some.injEq] at hx
        subst hx
        cases hu : u.locks j with
        | none => rfl
        | some l => rw [hu] at hm; cases l <;> cases hm
    · rw [hx] at hm
      cases m <;> cases hm
  · rw [if_neg hj]
    exact h j

theorem apart_of_free (hu : ∀ id, s.locks id = none) : Apart s u := by
  intro id
  rw [hu id]
  exact ⟨fun h => (nomatch h), fun _ => rfl⟩

end Locks

section System

variable {commits : θ → View ρ ε → Prop} {sys : System θ ρ ε γ} {i : Nat} {s : Session θ ρ ε γ}

theorem grants_iff {id : Nat} {m : Mode} : sys.grants i id m = true ↔
    ∀ (j : Nat) u, j ≠ i → sys.sessions[j]? = some u → m.admits (u.locks id) = true := by
  simp only [System.grants, List.all_eq_true, Bool.or_eq_true, beq_iff_eq, Prod.forall,
    List.mem_zipIdx_iff_getElem?]
  constructor
  · exact fun h j u hj hu => (h u j hu).resolve_left hj
  · intro h u j hu
    by_cases hj : j = i
    · exact Or.inl hj
    · exact Or.inr (h j u hj hu)

/-- The invariant, after a session was replaced. -/
theorem Inv.set (h : Inv commits sys) (hi : sys.sessions[i]? = some s) {s' : Session θ ρ ε γ}
    {nextKey : Nat} {base : Nat → Option ρ} (hkey : sys.nextKey ≤ nextKey)
    (hreq : s'.request = s.request)
    (htracks : Tracks (commits s.request) sys.rows nextKey s' base)
    (hapart : ∀ (j : Nat) u, j ≠ i → sys.sessions[j]? = some u → Apart s' u) :
    Inv commits { sys.set i s' with nextKey := nextKey } := by
  have hlen : i < sys.sessions.length := (List.getElem?_eq_some_iff.mp hi).1
  have hget : ∀ (j : Nat) u, (sys.sessions.set i s')[j]? = some u →
      (j = i ∧ u = s') ∨ (j ≠ i ∧ sys.sessions[j]? = some u) := by
    intro j u hu
    rw [List.getElem?_set] at hu
    split at hu
    · next hij => exact Or.inl ⟨hij.symm, (Option.some.inj hu).symm⟩
    · next hij => exact Or.inr ⟨Ne.symm hij, hu⟩
  refine ⟨fun id r hr => ?_, fun j u hu => ?_, fun j k u w hjk hu hw => ?_⟩
  · exact ⟨(h.keys id r hr).1, Nat.lt_of_lt_of_le (h.keys id r hr).2 hkey⟩
  · rcases hget j u hu with ⟨rfl, rfl⟩ | ⟨-, hu⟩
    · exact ⟨base, hreq ▸ htracks⟩
    · obtain ⟨b, hb⟩ := h.sessions j u hu
      exact ⟨b, hb.frame (fun _ _ => rfl) hkey⟩
  · rcases hget j u hu with ⟨hj, rfl⟩ | ⟨hj, hu'⟩
    · rcases hget k w hw with ⟨hk, -⟩ | ⟨hk, hw'⟩
      · exact absurd (hj.trans hk.symm) hjk
      · exact hapart k w hk hw'
    · rcases hget k w hw with ⟨-, rfl⟩ | ⟨-, hw'⟩
      · exact (hapart j u hj hu').symm
      · exact h.apart j k u w hjk hu' hw'

/-- A session that takes no further lock stays apart from the others. -/
theorem Inv.apart_of_locks (h : Inv commits sys) (hi : sys.sessions[i]? = some s)
    {s' : Session θ ρ ε γ} (hlocks : s'.locks = s.locks) :
    ∀ (j : Nat) u, j ≠ i → sys.sessions[j]? = some u → Apart s' u := by
  intro j u hj hu id
  rw [hlocks]
  exact h.apart i j s u (Ne.symm hj) hi hu id

theorem Inv.apart_of_grants (h : Inv commits sys) (hi : sys.sessions[i]? = some s) {id : Nat}
    {m : Mode} (hg : sys.grants i id m = true) :
    ∀ (j : Nat) u, j ≠ i → sys.sessions[j]? = some u → Apart (s.lock id m) u :=
  fun j u hj hu => (h.apart i j s u (Ne.symm hj) hi hu).lock (grants_iff.mp hg j u hj hu)

/-- A commit, by the view of the session that made it: it rewrites rows that still
have the value known of them, and rows of its own. -/
structure CommitOf (sys sys' : System θ ρ ε γ) (v : View ρ ε) : Prop where
  known : ∀ id r, v.base id = some r → sys.rows id = some r
  fresh : ∀ id, v.written id ≠ none → v.base id = none → sys.rows id = none
  rows : ∀ id, sys'.rows id = (v.written id).or (sys.rows id)
  log : sys'.log = sys.log ++ v.pending

/-- What a step does to the committed state. -/
inductive StepCase (commits : θ → View ρ ε → Prop) (sys : System θ ρ ε γ) (a : Action θ γ)
    (sys' : System θ ρ ε γ) : Prop where
  | quiet (rows : sys'.rows = sys.rows) (log : sys'.log = sys.log)
  | commit (i : Nat) (answer : γ) (visit : Option Nat) (s : Session θ ρ ε γ) (v : View ρ ε)
      (action : a = .turn i answer visit) (session : sys.sessions[i]? = some s)
      (accounts : commits s.request v) (of : CommitOf sys sys' v)

/-- A step of a session that leaves the committed state as it is. -/
structure Quiet (commits : θ → View ρ ε → Prop) (sys sys' : System θ ρ ε γ) : Prop where
  inv : Inv commits sys'
  rows : sys'.rows = sys.rows
  log : sys'.log = sys.log

/-- A session goes on, holding the locks it held. -/
theorem Inv.goOn (h : Inv commits sys) (hi : sys.sessions[i]? = some s) {s' : Session θ ρ ε γ}
    {base : Nat → Option ρ} (hreq : s'.request = s.request) (hlocks : s'.locks = s.locks)
    (htracks : Tracks (commits s.request) sys.rows sys.nextKey s' base) :
    Quiet commits sys (sys.set i s') :=
  ⟨h.set hi (Nat.le_refl _) hreq htracks (h.apart_of_locks hi hlocks), rfl, rfl⟩

/-- A session ends. -/
theorem Inv.ended (h : Inv commits sys) (hi : sys.sessions[i]? = some s) :
    Quiet commits sys (sys.set i s.ended) :=
  ⟨h.set hi (Nat.le_refl _) rfl
    (tracks_of_idle (fun hstop => nomatch hstop) (fun _ => rfl) (fun _ => rfl) (fun _ => rfl) rfl)
    (fun _ _ _ _ => apart_of_free fun _ => rfl), rfl, rfl⟩

section Session

variable {base : Nat → Option ρ} (h : Inv commits sys) (hi : sys.sessions[i]? = some s)
  (htracks : Tracks (commits s.request) sys.rows sys.nextKey s base)
include h hi htracks

theorem Inv.get {id : Nat} {k : Option ρ → Program ρ ε γ Unit} {sys' : System θ ρ ε γ}
    (hprog : s.program = .get id k) (ht : sys.get i s id k = some sys') :
    Quiet commits sys sys' := by
  have hscan : s.scan = none := htracks.scan_eq_none fun _ _ _ _ => by rw [hprog]; exact nofun
  have hwp := htracks.program
  rw [hprog] at hwp
  unfold System.get at ht
  cases hmap : s.identityMap id with
  | some o =>
      simp only [hmap, Option.some.injEq] at ht
      subst ht
      have hkey := htracks.objects id o hmap
      by_cases hs : s.serializable = true
      · -- what a serializable session has loaded it has locked
        obtain ⟨hlock, hcur⟩ := htracks.loaded hs id o hmap
        rw [← hkey] at hlock hcur
        exact h.goOn hi rfl rfl (htracks.read (found_singleton hlock hcur) hscan
          ((hwp.1 hs).2 o hkey (htracks.agrees hcur)))
      · exact h.goOn hi rfl rfl (htracks.resume hscan (hwp.2 (Bool.eq_false_iff.mpr hs) (some o)))
  | none =>
      simp only [hmap] at ht
      by_cases hs : s.serializable = true
      · rw [if_pos hs] at ht
        cases hcur : s.current sys.rows id with
        | none =>
            simp only [hcur, Option.some.injEq] at ht
            subst ht
            exact h.goOn hi rfl rfl (htracks.resume hscan (hwp.1 hs).1)
        | some r =>
            simp only [hcur, Option.ite_none_right_eq_some, Option.some.injEq] at ht
            obtain ⟨hg, rfl⟩ := ht
            obtain ⟨hkey, hlt⟩ := htracks.key_of_current h.keys hcur
            subst hkey
            have hread := (htracks.lock hlt .shared).keep (fun _ => ⟨lock_ne_none, hcur⟩)
            exact ⟨h.set hi (Nat.le_refl _) rfl (hread.read (found_singleton lock_ne_none hcur) hscan
              ((hwp.1 hs).2 r rfl (htracks.agrees hcur))) (h.apart_of_grants hi hg), rfl, rfl⟩
      · rw [if_neg hs, Option.some.injEq] at ht
        subst ht
        have hgo : ∀ r, Tracks (commits s.request) sys.rows sys.nextKey
            { s with snapshot := some (s.snapshot.getD sys.rows), program := k r } base :=
          fun r => (htracks.takeSnapshot (some (s.snapshot.getD sys.rows))).resume hscan
            (hwp.2 (Bool.eq_false_iff.mpr hs) r)
        cases sys.asOf s id with
        | none => exact h.goOn hi rfl rfl (hgo none)
        | some r => exact h.goOn hi rfl rfl ((hgo (some r)).keep fun htrue => absurd htrue hs)

theorem Inv.selectSnapshot {test : ρ → Bool} {u p : Bool} {k : List ρ → Program ρ ε γ Unit}
    (hprog : s.program = .select test u p k) (hmode : s.mode u = none) :
    Quiet commits sys (sys.selectSnapshot i s test p k) := by
  obtain ⟨hs, rfl⟩ := mode_eq_none hmode
  have hscan : s.scan = none := by
    cases hsome : s.scan with
    | none => rfl
    | some scan => exact absurd hmode (htracks.scanning_of hprog hsome).locking
  have hwp := htracks.program
  rw [hprog] at hwp
  have hgo : ∀ found, Tracks (commits s.request) sys.rows sys.nextKey
      { s with snapshot := some (s.snapshot.getD sys.rows), program := k found } base :=
    fun found => (htracks.takeSnapshot (some (s.snapshot.getD sys.rows))).resume hscan
      (hwp.2 (by simp [trusted, hs]) found)
  refine h.goOn hi ?_ ?_ ((hgo _).keepAll hs _)
  · exact foldl_keep_request _ _
  · exact foldl_keep_locks _ _

theorem Inv.visitRow {test : ρ → Bool} {u p : Bool} {k : List ρ → Program ρ ε γ Unit}
    {m : Mode} {scan : Scan ρ} {id : Nat} {sys' : System θ ρ ε γ}
    (hprog : s.program = .select test u p k) (hscan : s.scan = some scan)
    (ht : sys.visitRow i s test p m scan id = some sys') : Quiet commits sys sys' := by
  have hsc := htracks.scanning_of hprog hscan
  unfold System.visitRow at ht
  simp only [Option.ite_none_left_eq_some, not_or] at ht
  obtain ⟨⟨-, hnew⟩, ht⟩ := ht
  have hvisited : ∀ r ∈ scan.found, key r ∈ id :: scan.visited :=
    fun r hr => List.mem_cons_of_mem id (hsc.visited r hr)
  cases hcur : (s.current sys.rows id).filter test with
  | none =>
      simp only [hcur, Option.some.injEq] at ht
      subst ht
      exact h.goOn hi rfl rfl (htracks.scanOn hprog { hsc with visited := hvisited })
  | some r =>
      simp only [hcur, Option.ite_none_right_eq_some, Option.some.injEq] at ht
      obtain ⟨hg, rfl⟩ := ht
      obtain ⟨hcur, htest⟩ := Option.filter_eq_some_iff.mp hcur
      obtain ⟨hkey, hlt⟩ := htracks.key_of_current h.keys hcur
      subst hkey
      have hobject := htracks.key_object p r
      have hkept := (htracks.lock hlt m).keep (o := s.object p r) (fun hs => by
        rw [htracks.object_eq (u := u) (by simp [trusted, show s.serializable = true from hs]) hcur]
        exact ⟨lock_ne_none, hcur⟩)
      have hlocked := hkept.scanning_of hprog hscan
      refine ⟨h.set hi (Nat.le_refl _) rfl (hkept.scanOn hprog
        { locking := hlocked.locking, nodup := ?_, visited := ?_, current := ?_ })
        (h.apart_of_grants hi hg), rfl, rfl⟩
      · rw [List.map_append, List.map_singleton, hobject]
        refine List.nodup_append.mpr ⟨hsc.nodup, List.nodup_singleton _, ?_⟩
        rintro a ha b hb rfl
        obtain ⟨x, hx, hxa⟩ := List.mem_map.mp ha
        rw [List.mem_singleton.mp hb] at hxa
        exact hnew (hxa ▸ hsc.visited x hx)
      · intro x hx
        rcases List.mem_append.mp hx with hx | hx
        · exact hvisited x hx
        · rw [List.mem_singleton.mp hx, hobject]
          exact List.mem_cons_self
      · intro htrust x hx
        rcases List.mem_append.mp hx with hx | hx
        · exact hlocked.current htrust x hx
        · rw [List.mem_singleton.mp hx, htracks.object_eq htrust hcur]
          exact ⟨htest, lock_ne_none, hcur⟩

theorem Inv.selectLocked {test : ρ → Bool} {u p : Bool} {k : List ρ → Program ρ ε γ Unit}
    {m : Mode} {visit : Option Nat} {sys' : System θ ρ ε γ}
    (hprog : s.program = .select test u p k) (hmode : s.mode u = some m)
    (ht : sys.selectLocked i s test p m k visit = some sys') : Quiet commits sys sys' := by
  unfold System.selectLocked at ht
  split at ht
  · obtain rfl := Option.some.inj ht
    refine h.goOn hi rfl rfl (htracks.scanOn hprog
      { locking := by rw [hmode]; exact Option.some_ne_none _, nodup := List.nodup_nil
        visited := fun _ hr => (nomatch hr), current := fun _ _ hr => (nomatch hr) })
  · next scan id hscan => exact h.visitRow hi htracks hprog hscan ht
  · next scan hscan =>
      simp only [Option.ite_none_right_eq_some, Option.some.injEq] at ht
      obtain ⟨-, rfl⟩ := ht
      have hsc := htracks.scanning_of hprog hscan
      have hwp := htracks.program
      rw [hprog] at hwp
      have hdone : Tracks (commits s.request) sys.rows sys.nextKey { s with scan := none } base :=
        { htracks with scanning := fun _ hsome => nomatch hsome }
      by_cases htrust : trusted s.serializable u p = true
      · have hcurrent := hsc.current htrust
        exact h.goOn hi rfl rfl (hdone.read (fun r hr => (hcurrent r hr).2) rfl
          (hwp.1 htrust scan.found hsc.nodup fun r hr =>
            ⟨(hcurrent r hr).1, htracks.agrees (hcurrent r hr).2.2⟩))
      · exact h.goOn hi rfl rfl (hdone.resume rfl
          (hwp.2 (Bool.eq_false_iff.mpr htrust) scan.found))

theorem Inv.update {id : Nat} {f : ρ → ρ} (hf : ∀ r, key (f r) = key r) {k : Program ρ ε γ Unit}
    {sys' : System θ ρ ε γ} (hprog : s.program = .update id f hf k)
    (ht : sys.update i s id f k = some sys') : Quiet commits sys sys' := by
  have hscan : s.scan = none := htracks.scan_eq_none fun _ _ _ _ => by rw [hprog]; exact nofun
  have hwp := htracks.program
  rw [hprog] at hwp
  unfold System.update at ht
  simp only [Option.ite_none_right_eq_some] at ht
  obtain ⟨hg, ht⟩ := ht
  cases hcur : s.current sys.rows id with
  | none =>
      simp only [hcur, Option.some.injEq] at ht
      exact ht ▸ h.ended hi
  | some r =>
      simp only [hcur, Option.some.injEq] at ht
      subst ht
      obtain ⟨hkey, hlt⟩ := htracks.key_of_current h.keys hcur
      have hlock : (s.lock id .exclusive).locks id = some .exclusive := by simp [Session.lock]
      have hagrees := htracks.agrees (hkey.symm ▸ hcur)
      exact ⟨h.set hi (Nat.le_refl _) rfl ((htracks.lock hlt .exclusive).write hlock hcur hkey hf
        hscan (hwp r hkey hagrees)) (h.apart_of_grants hi hg), rfl, rfl⟩

theorem Inv.insert {b : Table.Insertion ρ} {k : Nat → Program ρ ε γ Unit}
    (hprog : s.program = .insert b k) : Quiet commits sys (sys.insert i s b k) := by
  have hscan : s.scan = none := htracks.scan_eq_none fun _ _ _ _ => by rw [hprog]; exact nofun
  have hwp := htracks.program
  rw [hprog] at hwp
  have hnew : sys.rows sys.nextKey = none := by
    by_contra hne
    obtain ⟨r, hr⟩ := Option.ne_none_iff_exists'.mp hne
    exact Nat.lt_irrefl _ (h.keys _ r hr).2
  have hunlocked : ∀ (u : Session θ ρ ε γ) (base : Nat → Option ρ) (c : View ρ ε → Prop),
      Tracks c sys.rows sys.nextKey u base → u.locks sys.nextKey = none := by
    intro u base c hu
    by_contra hne
    exact Nat.lt_irrefl _ (hu.held _ hne)
  have hunknown : (⟨base, s.written, s.pending⟩ : View ρ ε).current sys.nextKey = none := by
    by_contra hne
    obtain ⟨r, hr⟩ := Option.ne_none_iff_exists'.mp hne
    exact Nat.lt_irrefl _ (htracks.key_of_current h.keys (htracks.current_of_known hr)).2
  refine ⟨h.set hi (Nat.le_succ _) rfl (htracks.insert hnew b hscan (hwp _ hunknown)) ?_, rfl, rfl⟩
  intro j u hj hu
  obtain ⟨ubase, hub⟩ := h.sessions j u hu
  refine (h.apart i j s u (Ne.symm hj) hi hu).lock ?_
  rw [hunlocked u ubase _ hub]
  rfl

/-- **Commit**: the rows that change are those the session locked exclusively. -/
theorem Inv.commit :
    Inv commits (sys.commit i s) ∧
      CommitOf sys (sys.commit i s) ⟨base, s.written, s.pending⟩ := by
  have hchanged : ∀ id, s.locks id ≠ some .exclusive → (sys.commit i s).rows id = sys.rows id := by
    intro id hid
    change (s.written id).or (sys.rows id) = _
    cases hw : s.written id with
    | none => rfl
    | some w => exact absurd (htracks.versions id w hw).1 hid
  have hended := (h.ended hi).inv
  have hframe : ∀ (j : Nat) u, (sys.commit i s).sessions[j]? = some u → ∀ id, u.locks id ≠ none →
      (sys.commit i s).rows id = sys.rows id := by
    intro j u hu id hid
    refine hchanged id fun hx => hid ?_
    by_cases hj : j = i
    · subst hj
      have hlen : j < sys.sessions.length := (List.getElem?_eq_some_iff.mp hi).1
      obtain rfl : s.ended = u := by simpa [System.commit, hlen] using hu
      rfl
    · have hu' : sys.sessions[j]? = some u := by
        simpa [System.commit, List.getElem?_set, Ne.symm hj] using hu
      exact (h.apart i j s u (Ne.symm hj) hi hu' id).1 hx
  refine ⟨⟨fun id r hr => htracks.key_of_current h.keys hr, fun j u hu => ?_, hended.apart⟩,
    fun id r hr => (htracks.known id r hr).2, htracks.fresh, fun _ => rfl, rfl⟩
  obtain ⟨b, hb⟩ := hended.sessions j u hu
  exact ⟨b, hb.frame (hframe j u hu) (Nat.le_refl _)⟩

theorem Inv.turn {answer : γ} {visit : Option Nat} {sys' : System θ ρ ε γ}
    (ht : sys.turn i s answer visit = some sys') :
    Quiet commits sys sys' ∨
      Inv commits sys' ∧ ∃ v, commits s.request v ∧ CommitOf sys sys' v := by
  have hwp := htracks.program
  unfold System.turn at ht
  split at ht
  · next hprog =>
      rw [hprog] at hwp
      obtain rfl := Option.some.inj ht
      obtain ⟨hinv, hof⟩ := h.commit hi htracks
      exact Or.inr ⟨hinv, _, hwp, hof⟩
  · next hprog =>
      rw [hprog] at hwp
      obtain rfl := Option.some.inj ht
      obtain ⟨hinv, hof⟩ := h.commit hi htracks
      exact Or.inr ⟨hinv, _, hwp rfl, hof⟩
  · obtain rfl := Option.some.inj ht
    exact Or.inl (h.ended hi)
  · next k hprog =>
      rw [hprog] at hwp
      obtain rfl := Option.some.inj ht
      have hscan : s.scan = none :=
        htracks.scan_eq_none fun _ _ _ _ => by rw [hprog]; exact nofun
      exact Or.inl (h.goOn hi rfl rfl (htracks.resume hscan (hwp answer)))
  · next id k hprog => exact Or.inl (h.get hi htracks hprog ht)
  · next test u p k hprog =>
      split at ht
      · next hmode =>
          obtain rfl := Option.some.inj ht
          exact Or.inl (h.selectSnapshot hi htracks hprog hmode)
      · next m hmode => exact Or.inl (h.selectLocked hi htracks hprog hmode ht)
  · next id f hf k hprog => exact Or.inl (h.update hi htracks hf hprog ht)
  · next b k hprog =>
      obtain rfl := Option.some.inj ht
      exact Or.inl (h.insert hi htracks hprog)
  · next e k hprog =>
      rw [hprog] at hwp
      obtain rfl := Option.some.inj ht
      have hscan : s.scan = none :=
        htracks.scan_eq_none fun _ _ _ _ => by rw [hprog]; exact nofun
      exact Or.inl (h.goOn hi rfl rfl (htracks.resume hscan hwp))

end Session

/-- **Every step keeps the invariant**, and what it commits is accounted for by a
view of the session that commits. -/
theorem inv_step {service : Service θ ρ ε γ}
    (hservice : ∀ request, wp (service.serializable request) (commits request)
      (service.program request) (fun _ => commits request) .empty)
    (h : Inv commits sys) {a : Action θ γ} {sys' : System θ ρ ε γ}
    (ht : sys.step service a = some sys') : Inv commits sys' ∧ StepCase commits sys a sys' := by
  cases a with
  | start request =>
      obtain rfl := Option.some.inj ht
      have hget : ∀ (j : Nat) u, (sys.sessions ++ [service.begin request])[j]? = some u →
          sys.sessions[j]? = some u ∨ u = service.begin request := by
        intro j u hu
        rw [List.getElem?_append] at hu
        split at hu
        · exact Or.inl hu
        · exact Or.inr (List.mem_singleton.mp (List.mem_of_getElem? hu))
      have hfree : ∀ id, (service.begin request).locks id = none := fun _ => rfl
      refine ⟨⟨h.keys, fun j u hu => ?_, fun j k u w hjk hu hw => ?_⟩, .quiet rfl rfl⟩
      · rcases hget j u hu with hu | rfl
        · exact h.sessions j u hu
        · exact ⟨_, tracks_of_idle (hservice request) hfree (fun _ => rfl) (fun _ => rfl) rfl⟩
      · rcases hget j u hu with hu | rfl
        · rcases hget k w hw with hw | rfl
          · exact h.apart j k u w hjk hu hw
          · exact (apart_of_free hfree).symm
        · exact apart_of_free hfree
  | turn i answer visit =>
      obtain ⟨s, hs, ht⟩ := Option.bind_eq_some_iff.mp ht
      obtain ⟨base, htracks⟩ := h.sessions i s hs
      rcases h.turn hs htracks ht with hquiet | ⟨hinv, v, hv, hof⟩
      · exact ⟨hquiet.inv, .quiet hquiet.rows hquiet.log⟩
      · exact ⟨hinv, .commit i answer visit s v rfl hs hv hof⟩
  | kill i =>
      obtain ⟨s, hs, rfl⟩ := Option.map_eq_some_iff.mp ht
      have hquiet := h.ended hs
      exact ⟨hquiet.inv, .quiet hquiet.rows hquiet.log⟩

end System

end Isolation
