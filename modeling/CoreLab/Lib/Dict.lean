import Mathlib.Data.List.Nodup

/-!
# Lib.Dict

Dictionaries that keep insertion order: a list of entries whose keys are
pairwise distinct, so an entry can be read off by its key alone.

* `set` — assign under a key, in place where the key is there already;
* `push` — append to the list under a key, which starts empty;
* `dropKeys`, `erase` — remove the entries whose keys a test selects, or one key;
* `mapVals?` — convert every value, or fail.

Loops that fill a dictionary go through `getD_foldl_push` and
`get?_foldl_set`.
-/

/-- Entries in insertion order, with pairwise distinct keys. -/
structure Dict (κ ν : Type) where
  entries : List (κ × ν)
  nodup : (entries.map Prod.fst).Nodup

namespace Dict

variable {κ ν μ ι : Type} [DecidableEq κ]

/-- The dictionary with no entries. -/
def empty : Dict κ ν := ⟨[], List.nodup_nil⟩

/-- The value under a key. -/
def get? (d : Dict κ ν) (k : κ) : Option ν := (d.entries.find? fun e => e.1 = k).map Prod.snd

omit [DecidableEq κ] in
theorem eq_of_fst_eq {d : Dict κ ν} {e f : κ × ν} (he : e ∈ d.entries) (hf : f ∈ d.entries)
    (h : e.1 = f.1) : e = f :=
  List.inj_on_of_nodup_map d.nodup he hf h

theorem get?_eq_some_iff {d : Dict κ ν} {k : κ} {v : ν} :
    d.get? k = some v ↔ (k, v) ∈ d.entries := by
  constructor
  · intro h
    obtain ⟨e, he, rfl⟩ := Option.map_eq_some_iff.mp h
    have hkey : e.1 = k := by simpa using List.find?_some he
    exact hkey ▸ List.mem_of_find?_eq_some he
  · intro h
    cases hf : d.entries.find? (fun e => e.1 = k) with
    | none => simpa using List.find?_eq_none.mp hf (k, v) h
    | some e =>
        have hkey : e.1 = k := by simpa using List.find?_some hf
        have heq : e = (k, v) := eq_of_fst_eq (List.mem_of_find?_eq_some hf) h hkey
        rw [get?, hf, heq, Option.map_some]

theorem get?_eq_none_iff {d : Dict κ ν} {k : κ} : d.get? k = none ↔ ∀ e ∈ d.entries, e.1 ≠ k := by
  simp [get?]

@[simp] theorem get?_empty (k : κ) : (empty : Dict κ ν).get? k = none := rfl

/-! ## assigning -/

/-- `d[k] = v`. -/
def set (d : Dict κ ν) (k : κ) (v : ν) : Dict κ ν :=
  if h : k ∈ d.entries.map Prod.fst then
    ⟨d.entries.map fun e => if e.1 = k then (k, v) else e, by
      have hfst : Prod.fst ∘ (fun e : κ × ν => if e.1 = k then (k, v) else e) = Prod.fst := by
        funext e
        simp only [Function.comp_apply]
        split <;> simp_all
      rw [List.map_map, hfst]
      exact d.nodup⟩
  else
    ⟨d.entries ++ [(k, v)], by
      rw [List.map_append, List.map_singleton]
      exact List.nodup_append.mpr ⟨d.nodup, List.nodup_singleton k, by grind⟩⟩

theorem mem_entries_set {d : Dict κ ν} {k : κ} {v : ν} {e : κ × ν} :
    e ∈ (d.set k v).entries ↔ e = (k, v) ∨ e ∈ d.entries ∧ e.1 ≠ k := by
  unfold set
  split
  · next h =>
      obtain ⟨f, hf, rfl⟩ := List.mem_map.mp h
      simp only [List.mem_map]
      grind
  · next h =>
      simp only [List.mem_append, List.mem_singleton]
      grind

theorem get?_set (d : Dict κ ν) (k j : κ) (v : ν) :
    (d.set k v).get? j = if j = k then some v else d.get? j := by
  apply Option.ext
  intro w
  rw [get?_eq_some_iff, mem_entries_set]
  split
  · next h => simp [h, eq_comm]
  · next h => simp [h, get?_eq_some_iff]

/-- Assignments under keys other than `j` leave the value under `j`. -/
theorem get?_foldl_set_of_ne {l : List ι} {key : ι → κ} {val : ι → ν} {d : Dict κ ν} {j : κ}
    (h : ∀ x ∈ l, key x ≠ j) : (l.foldl (fun d x => d.set (key x) (val x)) d).get? j = d.get? j := by
  induction l generalizing d with
  | nil => rfl
  | cons x l ih =>
      have hx : j ≠ key x := fun he => h x List.mem_cons_self he.symm
      rw [List.foldl_cons, ih fun y hy => h y (List.mem_cons_of_mem x hy), get?_set, if_neg hx]

/-- What is found after a loop that sets was set by it, or was there. -/
theorem mem_of_get?_foldl_set {l : List ι} {key : ι → κ} {val : ι → ν} {d : Dict κ ν} {j : κ} {v : ν}
    (h : (l.foldl (fun d x => d.set (key x) (val x)) d).get? j = some v) :
    (∃ x ∈ l, val x = v) ∨ d.get? j = some v := by
  induction l generalizing d with
  | nil => exact .inr h
  | cons x l ih =>
      obtain ⟨y, hy, hval⟩ | hset := ih h
      · exact .inl ⟨y, List.mem_cons_of_mem x hy, hval⟩
      · rw [get?_set] at hset
        split at hset
        · exact .inl ⟨x, List.mem_cons_self, Option.some.inj hset⟩
        · exact .inr hset

/-- A loop that assigns one value only under `j` leaves it there. -/
theorem get?_foldl_set {l : List ι} {key : ι → κ} {val : ι → ν} {d : Dict κ ν} {j : κ} {v : ν}
    (hsome : ∃ x ∈ l, key x = j) (huniq : ∀ x ∈ l, key x = j → val x = v) :
    (l.foldl (fun d x => d.set (key x) (val x)) d).get? j = some v := by
  induction l generalizing d with
  | nil => obtain ⟨x, hx, -⟩ := hsome; cases hx
  | cons x l ih =>
      rw [List.foldl_cons]
      have htail : ∀ y ∈ l, key y = j → val y = v := fun y hy =>
        huniq y (List.mem_cons_of_mem x hy)
      by_cases hlater : ∃ y ∈ l, key y = j
      · exact ih hlater htail
      · obtain ⟨y, hy, hkey⟩ := hsome
        have hxy : y = x := (List.mem_cons.mp hy).resolve_right fun h => hlater ⟨y, h, hkey⟩
        subst hxy
        rw [get?_foldl_set_of_ne fun z hz he => hlater ⟨z, hz, he⟩, get?_set, if_pos hkey.symm,
          huniq y List.mem_cons_self hkey]

/-- A loop of assignments leaves the last value that is assigned under a key. -/
theorem get?_foldl_set_pairs (l : List (κ × ν)) (d : Dict κ ν) (k : κ) :
    (l.foldl (fun d e => d.set e.1 e.2) d).get? k =
      ((l.filter fun e => e.1 = k).getLast?.map Prod.snd).or (d.get? k) := by
  induction l generalizing d with
  | nil => rfl
  | cons e l ih =>
      rw [List.foldl_cons, ih, get?_set, List.filter_cons]
      by_cases hk : k = e.1
      · rw [if_pos hk, if_pos (decide_eq_true hk.symm), List.getLast?_cons]
        cases (l.filter fun e => e.1 = k).getLast? <;> rfl
      · rw [if_neg hk, if_neg (by simpa using Ne.symm hk)]

/-! ## lists under keys -/

/-- `d.setdefault(k, []).append(a)`. -/
def push (d : Dict κ (List ν)) (k : κ) (a : ν) : Dict κ (List ν) :=
  d.set k ((d.get? k).getD [] ++ [a])

/-- What a loop of appends leaves under a key: its own elements, in order. -/
theorem getD_foldl_push (l : List ι) (key : ι → κ) (val : ι → ν) (d : Dict κ (List ν)) (k : κ) :
    ((l.foldl (fun d x => d.push (key x) (val x)) d).get? k).getD [] =
      (d.get? k).getD [] ++ (l.filter fun x => key x = k).map val := by
  induction l generalizing d with
  | nil => simp
  | cons x l ih =>
      rw [List.foldl_cons, ih, push, get?_set, List.filter_cons]
      by_cases hk : k = key x
      · simp [hk]
      · simp [hk, Ne.symm hk]

/-- The keys a loop of appends adds are those of its elements. -/
theorem mem_keys_foldl_push {l : List ι} {key : ι → κ} {val : ι → ν} {d : Dict κ (List ν)}
    {e : κ × List ν} (h : e ∈ (l.foldl (fun d x => d.push (key x) (val x)) d).entries) :
    e ∈ d.entries ∨ ∃ x ∈ l, e.1 = key x := by
  induction l generalizing d with
  | nil => exact Or.inl h
  | cons x l ih =>
      rcases ih h with hmem | ⟨y, hy, hkey⟩
      · rcases mem_entries_set.mp hmem with rfl | ⟨hmem, -⟩
        · exact Or.inr ⟨x, List.mem_cons_self, rfl⟩
        · exact Or.inl hmem
      · exact Or.inr ⟨y, List.mem_cons_of_mem x hy, hkey⟩

/-! ## removing and converting -/

/-- Remove the entries whose keys `p` selects. -/
def dropKeys (d : Dict κ ν) (p : κ → Bool) : Dict κ ν :=
  ⟨d.entries.filter fun e => !p e.1, d.nodup.sublist (List.filter_sublist.map _)⟩

theorem get?_dropKeys {d : Dict κ ν} {p : κ → Bool} {k : κ} (h : p k = true) :
    (d.dropKeys p).get? k = none := by
  rw [get?_eq_none_iff]
  intro e he hk
  have hkept := (List.mem_filter.mp he).2
  rw [hk, h] at hkept
  cases hkept

theorem get?_dropKeys_of_false {d : Dict κ ν} {p : κ → Bool} {k : κ} (h : p k = false) :
    (d.dropKeys p).get? k = d.get? k := by
  apply Option.ext
  intro v
  rw [get?_eq_some_iff, get?_eq_some_iff, dropKeys, List.mem_filter]
  simp [h]

/-- `d.pop(k, None)`. -/
def erase (d : Dict κ ν) (k : κ) : Dict κ ν := d.dropKeys fun j => decide (j = k)

theorem get?_erase (d : Dict κ ν) (k j : κ) :
    (d.erase k).get? j = if j = k then none else d.get? j := by
  split
  · next h => exact get?_dropKeys (decide_eq_true h)
  · next h => exact get?_dropKeys_of_false (decide_eq_false h)

/-- A loop that removes keys. -/
theorem get?_foldl_erase (l : List ι) (key : ι → κ) (d : Dict κ ν) (j : κ) :
    (l.foldl (fun d x => d.erase (key x)) d).get? j =
      if j ∈ l.map key then none else d.get? j := by
  induction l generalizing d with
  | nil => rfl
  | cons x l ih =>
      rw [List.foldl_cons, ih, get?_erase, List.map_cons]
      by_cases hl : j ∈ l.map key
      · rw [if_pos hl, if_pos (List.mem_cons_of_mem _ hl)]
      · by_cases hx : j = key x
        · rw [if_neg hl, if_pos hx, if_pos (hx ▸ List.mem_cons_self)]
        · rw [if_neg hl, if_neg hx, if_neg fun hmem => (List.mem_cons.mp hmem).elim hx hl]

/-- Convert every value. -/
def mapVals (f : ν → μ) (d : Dict κ ν) : Dict κ μ :=
  ⟨d.entries.map fun e => (e.1, f e.2), by
    rw [List.map_map]
    exact d.nodup⟩

theorem get?_mapVals (f : ν → μ) (d : Dict κ ν) (k : κ) :
    (d.mapVals f).get? k = (d.get? k).map f := by
  simp only [get?, mapVals, List.find?_map, Option.map_map]
  rfl

omit [DecidableEq κ] in
theorem nodup_filterMap {f : ν → Option μ} {l : List (κ × ν)} (h : (l.map Prod.fst).Nodup) :
    ((l.filterMap fun e => (f e.2).map fun v => (e.1, v)).map Prod.fst).Nodup := by
  refine h.sublist ?_
  clear h
  induction l with
  | nil => exact List.Sublist.slnil
  | cons e l ih =>
      rw [List.filterMap_cons, List.map_cons]
      cases f e.2 with
      | none => exact ih.cons e.1
      | some v => exact ih.cons_cons e.1

/-- Convert every value; `none` when one of them does not convert. -/
def mapVals? (f : ν → Option μ) (d : Dict κ ν) : Option (Dict κ μ) :=
  if d.entries.all fun e => (f e.2).isSome then
    some ⟨d.entries.filterMap fun e => (f e.2).map fun v => (e.1, v), nodup_filterMap d.nodup⟩
  else none

omit [DecidableEq κ] in
/-- Values that all convert give the converted dictionary. -/
theorem mapVals?_eq_some {f : ν → Option μ} {g : ν → μ} {d : Dict κ ν}
    (h : ∀ e ∈ d.entries, f e.2 = some (g e.2)) : d.mapVals? f = some (d.mapVals g) := by
  have hall : d.entries.all (fun e => (f e.2).isSome) = true := by
    rw [List.all_eq_true]
    intro e he
    rw [h e he, Option.isSome_some]
  have hmap : d.entries.filterMap (fun e => (f e.2).map fun v => (e.1, v)) =
      d.entries.map fun e => (e.1, g e.2) := by
    rw [← List.filterMap_eq_map, List.filterMap_congr]
    intro e he
    rw [h e he]
    rfl
  simp only [mapVals?, hall, if_true, mapVals, hmap]

omit [DecidableEq κ] in
/-- A dictionary converts exactly when each of its values does. -/
theorem mapVals?_isSome_iff {f : ν → Option μ} {d : Dict κ ν} :
    (d.mapVals? f).isSome ↔ ∀ e ∈ d.entries, (f e.2).isSome := by
  rw [mapVals?, ← List.all_eq_true]
  cases d.entries.all fun e => (f e.2).isSome <;> simp

omit [DecidableEq κ] in
/-- The entries of a converted dictionary are the converted entries. -/
theorem mapM_entries {f : ν → Option μ} (d : Dict κ ν) :
    (d.entries.mapM fun e => (f e.2).map fun v => (e.1, v)) = (d.mapVals? f).map entries := by
  have hlist : ∀ l : List (κ × ν), (l.mapM fun e => (f e.2).map fun v => (e.1, v)) =
      if l.all fun e => (f e.2).isSome then
        some (l.filterMap fun e => (f e.2).map fun v => (e.1, v))
      else none := by
    intro l
    induction l with
    | nil => rfl
    | cons e l ih =>
        rw [List.mapM_cons, ih, List.all_cons, List.filterMap_cons]
        cases f e.2 with
        | none => rfl
        | some v => cases l.all fun e => (f e.2).isSome <;> rfl
  rw [hlist, mapVals?]
  split <;> rfl

end Dict
