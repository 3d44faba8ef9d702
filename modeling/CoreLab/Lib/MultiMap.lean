import CoreLab.Lib.Dict

/-!
# Lib.MultiMap

Dictionaries of sets: `d.setdefault(k, set()).add(v)` and what takes a value out again.

* `mem_members_add`, `mem_members_discard`, `mem_members_remove` — what a key has afterwards;
* `nodup_members_add` — a set has no value twice.
-/

namespace Dict

variable {κ ν : Type} [DecidableEq κ] [DecidableEq ν] {d : Dict κ (List ν)} {k j : κ} {v w : ν}

/-- The values of a key; a missing key has none. -/
def members (d : Dict κ (List ν)) (k : κ) : List ν := (d.get? k).getD []

/-- `d.setdefault(k, set()).add(v)`. -/
def add (d : Dict κ (List ν)) (k : κ) (v : ν) : Dict κ (List ν) := d.set k ((d.members k).insert v)

/-- `d[k].discard(v)`, where the key is there; a set that becomes empty stays. -/
def discard (d : Dict κ (List ν)) (k : κ) (v : ν) : Dict κ (List ν) :=
  match d.get? k with
  | none => d
  | some vs => d.set k (vs.filter (· ≠ v))

/-- `d[k].discard(v)`, and the key goes with its last value. -/
def remove (d : Dict κ (List ν)) (k : κ) (v : ν) : Dict κ (List ν) :=
  if (d.members k).filter (· ≠ v) = [] then d.erase k else d.discard k v

/-- `discard(v)` of every set. -/
def discardAll (d : Dict κ (List ν)) (v : ν) : Dict κ (List ν) := d.mapVals (List.filter (· ≠ v))

omit [DecidableEq ν] in
theorem members_set (d : Dict κ (List ν)) (k j : κ) (vs : List ν) :
    (d.set k vs).members j = if j = k then vs else d.members j := by
  rw [members, get?_set]
  split <;> rfl

theorem members_add (d : Dict κ (List ν)) (k j : κ) (v : ν) :
    (d.add k v).members j = if j = k then (d.members k).insert v else d.members j :=
  members_set d k j _

theorem get?_add (d : Dict κ (List ν)) (k j : κ) (v : ν) :
    (d.add k v).get? j = if j = k then some ((d.members k).insert v) else d.get? j := get?_set ..

theorem mem_members_add : w ∈ (d.add k v).members j ↔ w ∈ d.members j ∨ j = k ∧ w = v := by
  rw [members_add]
  split
  · next h => simp [h, or_comm]
  · next h => simp [h]

theorem members_discard (d : Dict κ (List ν)) (k j : κ) (v : ν) :
    (d.discard k v).members j = if j = k then (d.members k).filter (· ≠ v) else d.members j := by
  unfold discard
  split
  · next h =>
      split
      · next hj => simp [hj, members, h]
      · rfl
  · next vs h =>
      rw [members_set]
      simp [members, h]

theorem mem_members_discard :
    w ∈ (d.discard k v).members j ↔ w ∈ d.members j ∧ ¬ (j = k ∧ w = v) := by
  rw [members_discard]
  split
  · next h => simp [h]
  · next h => simp [h]

/-- The keys stay. -/
theorem get?_discard_eq_none_iff : (d.discard k v).get? j = none ↔ d.get? j = none := by
  unfold discard
  split
  · rfl
  · next vs h =>
      rw [get?_set]
      split
      · next hj => simp [hj, h]
      · rfl

theorem members_remove (d : Dict κ (List ν)) (k j : κ) (v : ν) :
    (d.remove k v).members j = if j = k then (d.members k).filter (· ≠ v) else d.members j := by
  unfold remove
  split
  · next h =>
      rw [members, get?_erase]
      split
      · exact h.symm
      · rfl
  · exact members_discard d k j v

theorem mem_members_remove :
    w ∈ (d.remove k v).members j ↔ w ∈ d.members j ∧ ¬ (j = k ∧ w = v) := by
  rw [members_remove]
  split
  · next h => simp [h]
  · next h => simp [h]

theorem get?_remove (d : Dict κ (List ν)) (k j : κ) (v : ν) :
    (d.remove k v).get? j = if j = k then
      if (d.members k).filter (· ≠ v) = [] then none else some ((d.members k).filter (· ≠ v))
      else d.get? j := by
  unfold remove
  split
  · next h => exact get?_erase d k j
  · next h =>
      unfold discard
      cases hget : d.get? k with
      | none => simp [members, hget] at h
      | some vs => simp only [get?_set, members, hget, Option.getD_some]

omit [DecidableEq ν] in
theorem ne_none_of_mem_members (h : v ∈ d.members k) : d.get? k ≠ none := by
  intro hnone
  rw [members, hnone] at h
  cases h

theorem members_discardAll (d : Dict κ (List ν)) (v : ν) (k : κ) :
    (d.discardAll v).members k = (d.members k).filter (· ≠ v) := by
  rw [members, discardAll, get?_mapVals, members]
  cases d.get? k <;> rfl

theorem nodup_members_add (h : (d.members j).Nodup) : ((d.add k v).members j).Nodup := by
  rw [members_add]
  split
  · next hj => exact List.Nodup.insert (hj ▸ h)
  · exact h

theorem nodup_members_discard (h : (d.members j).Nodup) : ((d.discard k v).members j).Nodup := by
  rw [members_discard]
  split
  · next hj => exact (hj ▸ h).filter _
  · exact h

theorem nodup_members_remove (h : (d.members j).Nodup) : ((d.remove k v).members j).Nodup := by
  rw [members_remove]
  split
  · next hj => exact (hj ▸ h).filter _
  · exact h

end Dict
