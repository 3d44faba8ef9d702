import Mathlib.Order.Lattice

/-!
# Lib.Runs

The runs of consecutive elements of a sorted list, found in one pass that carries the first
and the last element of the run under way.

* `walk`, `runs` — the pass, for any successor;
* `exists_mem_runs_iff` — the runs cover the elements of the list, and nothing else;
* `pairwise_runs` — and leave a gap between any two of them.
-/

namespace Runs

variable {α : Type} [DecidableEq α]

/-- The runs from the one under way on, which goes from `first` to `prev` so far. -/
def walk (next : α → α) (first prev : α) : List α → List (α × α)
  | [] => [(first, prev)]
  | s :: l => if s = next prev then walk next first s l else (first, prev) :: walk next s s l

/-- The runs of a list. -/
def runs (next : α → α) : List α → List (α × α)
  | [] => []
  | first :: l => walk next first first l

section Order

variable {α : Type} [LinearOrder α] {next : α → α} {first prev x : α} {l : List α}

/-- A run that is under way ends where it is, or further on. -/
theorem le_of_mem_walk (hrun : first ≤ prev) (hl : (prev :: l).Pairwise (· < ·)) {r : α × α}
    (h : r ∈ walk next first prev l) : first ≤ r.1 ∧ r.1 ≤ r.2 := by
  induction l generalizing first prev with
  | nil =>
      obtain rfl := List.mem_singleton.mp h
      exact ⟨le_rfl, hrun⟩
  | cons s l ih =>
      obtain ⟨hprev, htail⟩ := List.pairwise_cons.mp hl
      have hlt : prev < s := hprev s List.mem_cons_self
      rw [walk] at h
      split at h
      · exact ih (hrun.trans hlt.le) htail h
      · rcases List.mem_cons.mp h with rfl | h
        · exact ⟨le_rfl, hrun⟩
        · obtain ⟨hle, hspan⟩ := ih le_rfl htail h
          exact ⟨(hrun.trans hlt.le).trans hle, hspan⟩

variable (hnext : ∀ a b, a < b → next a ≤ b)
include hnext

/-- The runs cover the one under way and the rest of the list. -/
theorem exists_mem_walk_iff (hrun : first ≤ prev) (hl : (prev :: l).Pairwise (· < ·)) :
    (∃ r ∈ walk next first prev l, r.1 ≤ x ∧ x ≤ r.2) ↔ (first ≤ x ∧ x ≤ prev) ∨ x ∈ l := by
  induction l generalizing first prev with
  | nil => simp [walk]
  | cons s l ih =>
      obtain ⟨hprev, htail⟩ := List.pairwise_cons.mp hl
      have hlt : prev < s := hprev s List.mem_cons_self
      rw [walk]
      split
      · next hs =>
          rw [ih (hrun.trans hlt.le) htail, List.mem_cons, ← or_assoc]
          refine or_congr_left ⟨fun ⟨hfirst, hx⟩ => ?_, ?_⟩
          · rcases le_or_gt x prev with hle | hgt
            · exact Or.inl ⟨hfirst, hle⟩
            · exact Or.inr (hx.antisymm (hs ▸ hnext prev x hgt))
          · rintro (⟨hfirst, hx⟩ | rfl)
            · exact ⟨hfirst, hx.trans hlt.le⟩
            · exact ⟨hrun.trans hlt.le, le_rfl⟩
      · have hrest := ih (le_refl s) htail
        have hself : s ≤ x ∧ x ≤ s ↔ x = s := ⟨fun h => h.2.antisymm h.1, fun h => ⟨h.ge, h.le⟩⟩
        rw [hself, ← List.mem_cons] at hrest
        simp only [List.mem_cons, exists_eq_or_imp]
        exact or_congr_right (hrest.trans List.mem_cons)

/-- Between two runs there is a gap. -/
theorem pairwise_walk (hrun : first ≤ prev) (hl : (prev :: l).Pairwise (· < ·)) :
    (walk next first prev l).Pairwise fun r t => next r.2 < t.1 := by
  induction l generalizing first prev with
  | nil => exact List.pairwise_singleton _ _
  | cons s l ih =>
      obtain ⟨hprev, htail⟩ := List.pairwise_cons.mp hl
      have hlt : prev < s := hprev s List.mem_cons_self
      rw [walk]
      split
      · exact ih (hrun.trans hlt.le) htail
      · next hs =>
          refine List.pairwise_cons.mpr ⟨fun t ht => ?_, ih le_rfl htail⟩
          have hgap : next prev < s := lt_of_le_of_ne (hnext prev s hlt) (Ne.symm hs)
          exact hgap.trans_le (le_of_mem_walk le_rfl htail ht).1

/-- **The runs cover** the elements of a sorted list. -/
theorem exists_mem_runs_iff (hl : l.Pairwise (· < ·)) :
    (∃ r ∈ runs next l, r.1 ≤ x ∧ x ≤ r.2) ↔ x ∈ l := by
  cases l with
  | nil => simp [runs]
  | cons first l =>
      rw [runs, exists_mem_walk_iff hnext le_rfl hl, List.mem_cons]
      exact or_congr_left ⟨fun h => h.2.antisymm h.1, fun h => ⟨h.ge, h.le⟩⟩

/-- **No two runs** overlap or touch. -/
theorem pairwise_runs (hl : l.Pairwise (· < ·)) :
    (runs next l).Pairwise fun r t => next r.2 < t.1 := by
  cases l with
  | nil => exact List.Pairwise.nil
  | cons first l => exact pairwise_walk hnext le_rfl hl

omit hnext in
theorem le_of_mem_runs (hl : l.Pairwise (· < ·)) {r : α × α} (h : r ∈ runs next l) : r.1 ≤ r.2 := by
  cases l with
  | nil => cases h
  | cons first l => exact (le_of_mem_walk le_rfl hl h).2

end Order

end Runs
