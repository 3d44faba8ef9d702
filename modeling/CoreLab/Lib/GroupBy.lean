import Mathlib.Algebra.BigOperators.Group.List.Basic
import Mathlib.Algebra.Order.BigOperators.Group.List
import Mathlib.Data.List.Dedup

/-!
# Lib.GroupBy

Grouped aggregates over the rows of a query.

* `groupBy` — the rows of each value of a key, as `GROUP BY` forms them;
* `sum_groupBy` — the sums of the groups add up to the sum of the rows;
* `sum_filterMap` — an inner join sums the rows that find a partner.
-/

namespace Relational

variable {ρ τ κ G : Type} [AddCommGroup G]

section GroupBy

variable [DecidableEq κ]

/-- The rows of each value of the key. -/
def groupBy (key : ρ → κ) (rows : List ρ) : List (κ × List ρ) :=
  (rows.map key).dedup.map fun k => (k, rows.filter fun r => key r = k)

/-- Rows split among the values of a key that they have. -/
theorem sum_filter_key {keys : List κ} (hnodup : keys.Nodup) (key : ρ → κ) (f : ρ → G)
    {rows : List ρ} (hmem : ∀ r ∈ rows, key r ∈ keys) :
    (keys.map fun k => ((rows.filter fun r => key r = k).map f).sum).sum = (rows.map f).sum := by
  induction rows with
  | nil => simp
  | cons r rows ih =>
      have hrest := ih fun s hs => hmem s (List.mem_cons_of_mem r hs)
      have hsplit : ∀ k, (((r :: rows).filter fun r => key r = k).map f).sum =
          (if k = key r then f r else 0) + ((rows.filter fun r => key r = k).map f).sum := by
        intro k
        by_cases hk : key r = k
        · simp [hk]
        · simp [hk, Ne.symm hk]
      have hone : (keys.map fun k => if k = key r then f r else 0).sum = f r := by
        rw [List.sum_map_ite_eq, List.count_eq_one_of_mem hnodup (hmem r List.mem_cons_self),
          one_nsmul]
        simp
      simp only [hsplit]
      rw [List.sum_map_add, hone, hrest, List.map_cons, List.sum_cons]

/-- **The groups add up** to the whole. -/
theorem sum_groupBy (key : ρ → κ) (f : ρ → G) (rows : List ρ) :
    ((groupBy key rows).map fun g => (g.2.map f).sum).sum = (rows.map f).sum := by
  rw [groupBy, List.map_map]
  exact sum_filter_key (List.nodup_dedup _) key f fun r hr =>
    List.mem_dedup.mpr (List.mem_map_of_mem hr)

end GroupBy

/-- Where the rows that find a partner are those that a test selects, joining sums these. -/
theorem sum_filterMap {join : ρ → Option τ} {row : τ → ρ} (p : ρ → Bool) (f : ρ → G)
    {rows : List ρ} (hsome : ∀ r ∈ rows, p r = true → ∃ t, join r = some t ∧ row t = r)
    (hnone : ∀ r ∈ rows, p r = false → join r = none) :
    ((rows.filterMap join).map fun t => f (row t)).sum = ((rows.filter p).map f).sum := by
  induction rows with
  | nil => rfl
  | cons r rows ih =>
      have hrest := ih (fun s hs => hsome s (List.mem_cons_of_mem r hs))
        fun s hs => hnone s (List.mem_cons_of_mem r hs)
      cases hp : p r with
      | true =>
          obtain ⟨t, ht, hrow⟩ := hsome r List.mem_cons_self hp
          rw [List.filterMap_cons_some ht, List.filter_cons_of_pos hp, List.map_cons,
            List.sum_cons, hrow, List.map_cons, List.sum_cons, hrest]
      | false =>
          have hr := hnone r List.mem_cons_self hp
          rw [List.filterMap_cons_none hr, List.filter_cons_of_neg (by simp [hp]), hrest]

/-- Rows that count for nothing can be left out. -/
theorem sum_filter_eq (p : ρ → Bool) {f : ρ → G} {rows : List ρ}
    (h : ∀ r ∈ rows, p r = false → f r = 0) : ((rows.filter p).map f).sum = (rows.map f).sum := by
  have hsplit := List.sum_map_filter_add_sum_map_filter_not (p · = true) f rows
  have hzero : ((rows.filter fun r => ¬ p r = true).map f).sum = 0 := by
    refine List.sum_eq_zero fun x hx => ?_
    obtain ⟨r, hr, rfl⟩ := List.mem_map.mp hx
    obtain ⟨hmem, hp⟩ := List.mem_filter.mp hr
    exact h r hmem (by simpa using hp)
  rw [hzero, add_zero] at hsplit
  simpa using hsplit

/-- Rows of which each counts for at least as much add up to the same exactly if each counts for
the same. -/
theorem sum_map_eq_iff_of_le [LinearOrder G] [IsOrderedAddMonoid G] {f g : ρ → G} {rows : List ρ}
    (hle : ∀ r ∈ rows, f r ≤ g r) :
    (rows.map f).sum = (rows.map g).sum ↔ ∀ r ∈ rows, f r = g r := by
  induction rows with
  | nil => simp
  | cons r rows ih =>
      have hrest := ih fun s hs => hle s (List.mem_cons_of_mem r hs)
      have hsum : (rows.map f).sum ≤ (rows.map g).sum :=
        List.sum_le_sum fun s hs => hle s (List.mem_cons_of_mem r hs)
      rw [List.map_cons, List.sum_cons, List.map_cons, List.sum_cons,
        add_eq_add_iff_eq_and_eq (hle r List.mem_cons_self) hsum, hrest, List.forall_mem_cons]

end Relational
