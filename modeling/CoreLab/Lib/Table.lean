import Mathlib.Data.List.Nodup
import Mathlib.Data.List.Perm.Basic

/-!
# Lib.Table

Keyed tables: a list of rows whose integer primary keys are pairwise
distinct.  A table is the list in insertion order together with the proof of
that distinctness, so no operation below can build a table with two rows under
one key.

* `get?` — primary-key lookup;
* `put` — rewrite the row that has the new row's key;
* `mapRows` — rewrite every row by a key-preserving function;
* `appendAll` — insert rows under fresh, consecutive keys;
* `Extends` — a later version of a table, its old rows changed only as allowed.

The rule `foldl_put_filter` is the one that loops over selected rows use:
rewriting the selected rows one at a time is one `mapRows`.
-/

namespace Relational

/-- Rows that carry an integer primary key. -/
class Keyed (ρ : Type) where
  key : ρ → Nat

open Keyed

/-- A table: rows in insertion order, with pairwise distinct keys. -/
structure Table (ρ : Type) [Keyed ρ] where
  rows : List ρ
  nodup : (rows.map key).Nodup

namespace Table

variable {ρ : Type} [Keyed ρ]

@[ext] theorem ext {t u : Table ρ} (h : t.rows = u.rows) : t = u := by
  cases t; cases u; subst h; rfl

/-- The table with no rows. -/
def empty : Table ρ := ⟨[], List.nodup_nil⟩

/-- The table with one row. -/
def single (r : ρ) : Table ρ := ⟨[r], List.nodup_singleton _⟩

instance : Membership ρ (Table ρ) := ⟨fun t r => r ∈ t.rows⟩

theorem mem_def {t : Table ρ} {r : ρ} : r ∈ t ↔ r ∈ t.rows := Iff.rfl

/-- Two rows of a table with one key are one row. -/
theorem eq_of_key_eq {t : Table ρ} {r s : ρ} (hr : r ∈ t) (hs : s ∈ t)
    (h : key r = key s) : r = s :=
  List.inj_on_of_nodup_map t.nodup hr hs h

/-! ## Lookup -/

/-- The row under primary key `k`, if there is one. -/
def get? (t : Table ρ) (k : Nat) : Option ρ := t.rows.find? (fun r => key r == k)

theorem get?_eq_some_iff {t : Table ρ} {k : Nat} {r : ρ} :
    t.get? k = some r ↔ r ∈ t ∧ key r = k := by
  constructor
  · intro h
    exact ⟨List.mem_of_find?_eq_some h, by simpa using List.find?_some h⟩
  · rintro ⟨hr, hk⟩
    cases hf : t.rows.find? (fun r => key r == k) with
    | none =>
        have hne := List.find?_eq_none.mp hf r hr
        simp [hk] at hne
    | some s =>
        have hs : s ∈ t := List.mem_of_find?_eq_some hf
        have hsk : key s = k := by simpa using List.find?_some hf
        rw [get?, hf, eq_of_key_eq hs hr (hsk.trans hk.symm)]

theorem get?_key {t : Table ρ} {r : ρ} (h : r ∈ t) : t.get? (key r) = some r :=
  get?_eq_some_iff.mpr ⟨h, rfl⟩

@[simp] theorem get?_empty (k : Nat) : (empty : Table ρ).get? k = none := rfl

theorem mem_of_get? {t : Table ρ} {k : Nat} {r : ρ} (h : t.get? k = some r) : r ∈ t :=
  (get?_eq_some_iff.mp h).1

theorem key_of_get? {t : Table ρ} {k : Nat} {r : ρ} (h : t.get? k = some r) : key r = k :=
  (get?_eq_some_iff.mp h).2

/-! ## Rewriting rows -/

/-- Rewrite every row by a function that keeps keys. -/
def mapRows (t : Table ρ) (f : ρ → ρ) (hf : ∀ r, key (f r) = key r) : Table ρ :=
  ⟨t.rows.map f, by
    have h : (key ∘ f : ρ → Nat) = key := funext hf
    rw [List.map_map, h]; exact t.nodup⟩

@[simp] theorem rows_mapRows (t : Table ρ) (f : ρ → ρ) (hf) :
    (t.mapRows f hf).rows = t.rows.map f := rfl

theorem mem_mapRows {t : Table ρ} {f : ρ → ρ} {hf} {r : ρ} :
    r ∈ t.mapRows f hf ↔ ∃ s ∈ t, f s = r := by
  simp [mem_def]

theorem get?_mapRows (t : Table ρ) (f : ρ → ρ) (hf) (k : Nat) :
    (t.mapRows f hf).get? k = (t.get? k).map f := by
  have hc : (fun r => key r == k) ∘ f = fun r => key r == k := by
    funext r; simp [hf]
  rw [get?, rows_mapRows, List.find?_map, hc, get?]

/-- Lookup in a table whose rows are those of another one, rewritten. -/
theorem get?_of_rows_eq_map {t u : Table ρ} {f : ρ → ρ} (h : u.rows = t.rows.map f)
    (hf : ∀ r, key (f r) = key r) (k : Nat) : u.get? k = (t.get? k).map f := by
  have hu : u = t.mapRows f hf := ext h
  rw [hu, get?_mapRows]

/-- Rewrite the row under `new`'s key to `new`; a table without that key is
left as it is. -/
def put (t : Table ρ) (new : ρ) : Table ρ :=
  t.mapRows (fun r => if key r = key new then new else r) (by
    intro r; split
    · next h => exact h.symm
    · rfl)

theorem rows_put (t : Table ρ) (new : ρ) :
    (t.put new).rows = t.rows.map (fun r => if key r = key new then new else r) := rfl

/-- The row that was there before is gone. -/
theorem mem_put_or {t : Table ρ} {new r : ρ} (h : r ∈ t.put new) :
    r = new ∨ r ∈ t ∧ key r ≠ key new := by
  obtain ⟨s, hs, rfl⟩ := mem_mapRows.mp h
  split
  · exact Or.inl rfl
  · next hne => exact Or.inr ⟨hs, hne⟩

theorem mem_put {t : Table ρ} {new r : ρ} (h : r ∈ t.put new) : r = new ∨ r ∈ t :=
  (mem_put_or h).imp_right And.left

theorem get?_put_ne {t : Table ρ} {new : ρ} {k : Nat} (h : key new ≠ k) :
    (t.put new).get? k = t.get? k := by
  rw [put, get?_mapRows]
  cases hg : t.get? k with
  | none => rfl
  | some r =>
      have hk := key_of_get? hg
      rw [Option.map_some, if_neg (by rw [hk]; exact fun he => h he.symm)]

theorem get?_put_self {t : Table ρ} {new r : ρ} (h : t.get? (key new) = some r) :
    (t.put new).get? (key new) = some new := by
  rw [put, get?_mapRows, h, Option.map_some, if_pos (key_of_get? h)]

theorem get?_put (t : Table ρ) (new : ρ) (k : Nat) :
    (t.put new).get? k = if key new = k then (t.get? k).map fun _ => new else t.get? k := by
  split
  · next hk =>
      subst hk
      cases hg : t.get? (key new) with
      | some r => rw [get?_put_self hg, Option.map_some]
      | none =>
          rw [put, get?_mapRows, hg]
          rfl
  · next hk => exact get?_put_ne hk

/-- A row first, then the others. -/
theorem perm_cons_filter {t : Table ρ} {r : ρ} (h : r ∈ t) :
    t.rows.Perm (r :: t.rows.filter fun s => key s != key r) := by
  classical
  have hnd : t.rows.Nodup := t.nodup.of_map
  have hothers : t.rows.erase r = t.rows.filter fun s => key s != key r := by
    rw [hnd.erase_eq_filter]
    apply List.filter_congr
    intro s hs
    rw [Bool.eq_iff_iff, bne_iff_ne, bne_iff_ne]
    exact not_congr ⟨fun heq => by rw [heq], fun hk => eq_of_key_eq hs h hk⟩
  rw [← hothers]
  exact List.perm_cons_erase h

/-- A table with one row rewritten: the new row first, then the others. -/
theorem perm_put {t : Table ρ} {old new : ρ} (h : old ∈ t) (hk : key new = key old) :
    (t.put new).rows.Perm (new :: t.rows.filter fun s => key s != key old) := by
  have hmap := (perm_cons_filter h).map fun r => if key r = key new then new else r
  rw [List.map_cons, if_pos hk.symm] at hmap
  have hothers : (t.rows.filter fun s => key s != key old).map
      (fun r => if key r = key new then new else r) = t.rows.filter fun s => key s != key old := by
    conv_rhs => rw [← List.map_id (t.rows.filter fun s => key s != key old)]
    apply List.map_congr_left
    intro s hs
    have hne : key s ≠ key old := by simpa using (List.mem_filter.mp hs).2
    rw [if_neg (hk ▸ hne)]
    rfl
  rw [hothers] at hmap
  exact hmap

/-- The second of two rewrites under one key is the one that stays. -/
theorem put_put (t : Table ρ) {a b : ρ} (h : key a = key b) : (t.put a).put b = t.put b := by
  apply ext
  rw [rows_put, rows_put, rows_put, List.map_map]
  apply List.map_congr_left
  intro r _
  simp only [Function.comp_apply]
  by_cases hr : key r = key a
  · rw [if_pos hr, if_pos h, if_pos (hr.trans h)]
  · rw [if_neg hr]

/-- The rows of a list with distinct keys, each rewritten by a function of itself. -/
theorem rows_foldl_put {f : ρ → ρ} (hf : ∀ r, key (f r) = key r) {l : List ρ} {u : Table ρ}
    (hl : (l.map key).Nodup) :
    (l.foldl (fun u r => u.put (f r)) u).rows =
      u.rows.map (fun s => match l.find? (fun r => key r == key s) with
        | some r => f r
        | none => s) := by
  induction l generalizing u with
  | nil => simp
  | cons r l ih =>
      rw [List.map_cons, List.nodup_cons] at hl
      rw [List.foldl_cons, ih hl.2, rows_put, List.map_map]
      apply List.map_congr_left
      intro s _
      simp only [Function.comp_apply, List.find?_cons, hf]
      by_cases hk : key s = key r
      · -- `r` has just been rewritten, and its key does not come again
        have hnone : l.find? (fun x => key x == key r) = none := by
          rw [List.find?_eq_none]
          intro x hx hxk
          exact hl.1 (List.mem_map.mpr ⟨x, hx, by simpa using hxk⟩)
        simp [hk, hf, hnone]
      · have hk' : (key r == key s) = false := by simpa using fun he : key r = key s => hk he.symm
        rw [if_neg hk, hk']

/-- The key of a row finds the row among the selected ones, if it is selected. -/
theorem find?_filter_key {t : Table ρ} {s : ρ} (hs : s ∈ t) (p : ρ → Bool) :
    (t.rows.filter p).find? (fun r => key r == key s) = if p s then some s else none := by
  have hsame : ∀ x ∈ t.rows.filter p, key x = key s → x = s := fun x hx hk =>
    eq_of_key_eq (List.mem_of_mem_filter hx) hs hk
  cases hfd : (t.rows.filter p).find? (fun r => key r == key s) with
  | some x =>
      have hx : x ∈ t.rows.filter p := List.mem_of_find?_eq_some hfd
      obtain rfl : x = s := hsame x hx (by simpa using List.find?_some hfd)
      rw [if_pos (List.mem_filter.mp hx).2]
  | none =>
      have hps : ¬ p s = true := by
        intro hps
        have hnot := List.find?_eq_none.mp hfd s (List.mem_filter.mpr ⟨hs, hps⟩)
        simp at hnot
      rw [if_neg hps]

/-- Rewriting the selected rows one at a time, each by a function of itself,
is one pass over the table. -/
theorem foldl_put_filter (t : Table ρ) (p : ρ → Bool) (f : ρ → ρ)
    (hf : ∀ r, key (f r) = key r) :
    (t.rows.filter p).foldl (fun u r => u.put (f r)) t =
      t.mapRows (fun r => if p r then f r else r) (by intro r; split <;> simp [hf]) := by
  have hnd : ((t.rows.filter p).map key).Nodup :=
    t.nodup.sublist (List.Sublist.map _ List.filter_sublist)
  apply ext
  rw [rows_foldl_put hf hnd, rows_mapRows]
  apply List.map_congr_left
  intro s hs
  rw [find?_filter_key hs]
  by_cases hps : p s = true
  · rw [if_pos hps, if_pos hps]
  · rw [if_neg hps, if_neg hps]

/-- Rewriting some of the rows one at a time, each by a function of itself, is
one pass over the table. -/
theorem foldl_putOption (t : Table ρ) (f : ρ → Option ρ)
    (hf : ∀ r s, f r = some s → key s = key r) :
    t.rows.foldl (fun u r => (f r).elim u u.put) t =
      t.mapRows (fun r => (f r).getD r) (by
        intro r
        cases h : f r with
        | none => rfl
        | some s => exact hf r s h) := by
  have hkey : ∀ r, key ((f r).getD r) = key r := by
    intro r
    cases h : f r with
    | none => rfl
    | some s => exact hf r s h
  have hfilter : t.rows.foldl (fun u r => (f r).elim u u.put) t =
      (t.rows.filter fun r => (f r).isSome).foldl (fun u r => u.put ((f r).getD r)) t := by
    rw [List.foldl_filter]
    congr 1
    funext u r
    cases f r <;> rfl
  rw [hfilter, foldl_put_filter t _ _ hkey]
  apply ext
  apply List.map_congr_left
  intro r _
  cases f r <;> rfl

/-- Counting by key over lists that the rows contribute under their own keys:
only the row with the key counts. -/
theorem countP_flatMap {β : Type} (t : Table ρ) (q : ρ → List β) (g : β → Nat)
    (hq : ∀ r, ∀ b ∈ q r, g b = key r) (k : Nat) :
    (t.rows.flatMap q).countP (fun b => g b == k) =
      (t.get? k).elim 0 (fun r => (q r).length) := by
  have hrow : ∀ r, (q r).countP (fun b => g b == k) = if key r = k then (q r).length else 0 := by
    intro r
    split
    · next hk =>
        rw [List.countP_eq_length]
        intro b hb
        simp [hq r b hb, hk]
    · next hk =>
        rw [List.countP_eq_zero]
        intro b hb
        simp [hq r b hb, hk]
  have hsum : ∀ l : List ρ, (l.map key).Nodup →
      (l.flatMap q).countP (fun b => g b == k) =
        (l.find? (fun r => key r == k)).elim 0 (fun r => (q r).length) := by
    intro l
    induction l with
    | nil => intro _; rfl
    | cons r l ih =>
        intro hnd
        rw [List.map_cons, List.nodup_cons] at hnd
        rw [List.flatMap_cons, List.countP_append, hrow, ih hnd.2, List.find?_cons]
        by_cases hk : key r = k
        · have hnone : l.find? (fun s => key s == k) = none := by
            rw [List.find?_eq_none]
            intro s hs hsk
            exact hnd.1 (List.mem_map.mpr ⟨s, hs, by rw [hk]; simpa using hsk⟩)
          simp [hk, hnone]
        · have hk' : (key r == k) = false := by simpa using hk
          simp [hk, hk']
  exact hsum t.rows t.nodup

/-! ## Inserting rows -/

/-- The next auto-increment key: above every key of the table. -/
def nextKey (t : Table ρ) : Nat := (t.rows.map key).foldr (fun k m => max (k + 1) m) 1

theorem key_lt_nextKey {t : Table ρ} {r : ρ} (h : r ∈ t) : key r < t.nextKey := by
  have aux : ∀ l : List Nat, ∀ k ∈ l, k < l.foldr (fun k m => max (k + 1) m) 1 := by
    intro l
    induction l with
    | nil => intro k hk; cases hk
    | cons j l ih =>
        intro k hk
        rw [List.foldr_cons]
        cases hk with
        | head => omega
        | tail _ hk => have := ih k hk; omega
  exact aux _ _ (List.mem_map.mpr ⟨r, h, rfl⟩)

/-- One row to insert: how to build it from the key it is given. -/
abbrev Insertion (ρ : Type) [Keyed ρ] := {build : Nat → ρ // ∀ k, key (build k) = k}

/-- Insert one row under the next key. -/
def append (t : Table ρ) (b : Insertion ρ) : Table ρ :=
  ⟨t.rows ++ [b.1 t.nextKey], by
    rw [List.map_append, List.map_singleton, b.2]
    refine List.nodup_append.mpr ⟨t.nodup, by simp, ?_⟩
    intro a ha c hc hac
    obtain ⟨r, hr, rfl⟩ := List.mem_map.mp ha
    have hlt := key_lt_nextKey (show r ∈ t from hr)
    simp at hc
    omega⟩

@[simp] theorem rows_append (t : Table ρ) (b : Insertion ρ) :
    (t.append b).rows = t.rows ++ [b.1 t.nextKey] := rfl

theorem nextKey_append (t : Table ρ) (b : Insertion ρ) :
    (t.append b).nextKey = t.nextKey + 1 := by
  have aux : ∀ (l : List Nat) (n : Nat), (∀ k ∈ l, k < n) → 1 ≤ n →
      l.foldr (fun k m => max (k + 1) m) (max (n + 1) 1) = n + 1 := by
    intro l n hl hn
    induction l with
    | nil => simp
    | cons j l ih =>
        have hj := hl j List.mem_cons_self
        rw [List.foldr_cons, ih (fun k hk => hl k (List.mem_cons_of_mem j hk))]
        omega
  have hone : 1 ≤ t.nextKey := by
    unfold nextKey
    induction t.rows.map key with
    | nil => simp
    | cons k l ih => rw [List.foldr_cons]; omega
  have hlt : ∀ k ∈ t.rows.map key, k < t.nextKey := by
    intro k hk
    obtain ⟨r, hr, rfl⟩ := List.mem_map.mp hk
    exact key_lt_nextKey hr
  have := aux _ _ hlt hone
  simpa [nextKey, b.2] using this

theorem get?_append {t : Table ρ} {b : Insertion ρ} {k : Nat} {r : ρ} (h : t.get? k = some r) :
    (t.append b).get? k = some r := by
  rw [get?_eq_some_iff, mem_def, rows_append, List.mem_append]
  exact ⟨Or.inl (mem_of_get? h), key_of_get? h⟩

/-- Insert rows one after another, under consecutive fresh keys. -/
def appendAll (t : Table ρ) : List (Insertion ρ) → Table ρ
  | [] => t
  | b :: bs => (t.append b).appendAll bs

/-- The rows `appendAll` adds, in order: the `i`-th one has key `k + i`. -/
def freshRows (k : Nat) : List (Insertion ρ) → List ρ
  | [] => []
  | b :: bs => b.1 k :: freshRows (k + 1) bs

theorem rows_appendAll (t : Table ρ) (bs : List (Insertion ρ)) :
    (t.appendAll bs).rows = t.rows ++ freshRows t.nextKey bs := by
  induction bs generalizing t with
  | nil => simp [appendAll, freshRows]
  | cons b bs ih =>
      rw [appendAll, ih, nextKey_append, rows_append, List.append_assoc]
      rfl

theorem mem_freshRows {k : Nat} {bs : List (Insertion ρ)} {r : ρ} (h : r ∈ freshRows k bs) :
    ∃ b ∈ bs, ∃ j, k ≤ j ∧ r = b.1 j := by
  induction bs generalizing k with
  | nil => cases h
  | cons b bs ih =>
      rw [freshRows] at h
      cases h with
      | head => exact ⟨b, List.mem_cons_self, k, Nat.le_refl k, rfl⟩
      | tail _ h =>
          obtain ⟨b', hb', j, hj, rfl⟩ := ih h
          exact ⟨b', List.mem_cons_of_mem b hb', j, by omega, rfl⟩

theorem exists_mem_freshRows (k : Nat) {bs : List (Insertion ρ)} {b : Insertion ρ} (h : b ∈ bs) :
    ∃ j, b.1 j ∈ freshRows k bs := by
  induction bs generalizing k with
  | nil => cases h
  | cons c bs ih =>
      rw [freshRows]
      cases h with
      | head => exact ⟨k, List.mem_cons_self⟩
      | tail _ h =>
          obtain ⟨j, hj⟩ := ih (k + 1) h
          exact ⟨j, List.mem_cons_of_mem _ hj⟩

/-- Reading the inserted rows by a function that does not look at keys. -/
theorem map_freshRows {β : Type} (g : ρ → β) (k : Nat) (bs : List (Insertion ρ))
    (hg : ∀ b ∈ bs, ∀ i j, g (b.1 i) = g (b.1 j)) :
    (freshRows k bs).map g = bs.map (fun b => g (b.1 0)) := by
  induction bs generalizing k with
  | nil => rfl
  | cons b bs ih =>
      rw [freshRows, List.map_cons, List.map_cons,
        ih _ (fun c hc => hg c (List.mem_cons_of_mem b hc)), hg b List.mem_cons_self k 0]

/-! ## Later versions of a table -/

/-- `u` still has the rows of `t`, each changed at most as `R` allows; it may
have more. -/
def Extends (R : ρ → ρ → Prop) (t u : Table ρ) : Prop :=
  ∀ k r, t.get? k = some r → ∃ s, u.get? k = some s ∧ R r s

section Extends

variable {R : ρ → ρ → Prop} {t u v : Table ρ}

theorem extends_refl (hR : ∀ r, R r r) (t : Table ρ) : Extends R t t :=
  fun _ r h => ⟨r, h, hR r⟩

theorem Extends.trans (hR : ∀ a b c, R a b → R b c → R a c) (h : Extends R t u)
    (h' : Extends R u v) : Extends R t v := by
  intro k r hr
  obtain ⟨s, hs, hrs⟩ := h k r hr
  obtain ⟨w, hw, hsw⟩ := h' k s hs
  exact ⟨w, hw, hR r s w hrs hsw⟩

theorem Extends.mono {S : ρ → ρ → Prop} (hRS : ∀ a b, R a b → S a b) (h : Extends R t u) :
    Extends S t u := by
  intro k r hr
  obtain ⟨s, hs, hrs⟩ := h k r hr
  exact ⟨s, hs, hRS r s hrs⟩

theorem extends_append (hR : ∀ r, R r r) (t : Table ρ) (b : Insertion ρ) :
    Extends R t (t.append b) := fun _ r h => ⟨r, get?_append h, hR r⟩

/-- Rewriting one row as `R` allows. -/
theorem extends_put {old new : ρ} (hR : ∀ r, R r r) (hold : t.get? (key new) = some old)
    (hnew : R old new) : Extends R t (t.put new) := by
  intro k r hr
  by_cases hk : key new = k
  · subst hk
    rw [hold, Option.some.injEq] at hr
    exact ⟨new, get?_put_self hold, hr ▸ hnew⟩
  · exact ⟨r, (get?_put_ne hk).trans hr, hR r⟩

end Extends

end Table

end Relational
