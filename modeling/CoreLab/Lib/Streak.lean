import Mathlib.Data.List.Induction
import Mathlib.Order.Lattice

/-!
# Lib.Streak

Samples in the order of their times, and since when a condition has held at each of them.

* `start` — one pass over the samples, with the start of the streak for its state;
* `HeldSince` — the condition has held at every sample since one at `t` or before;
* `heldSince_iff` — the pass decides it.
-/

namespace Streak

variable {α τ : Type}

/-- What a sample makes of the start of the streak. -/
def next (p : α → Bool) (time : α → τ) (since : Option τ) (x : α) : Option τ :=
  if p x then some (since.getD (time x)) else none

/-- One pass: the time of the first sample of the streak that is still going on. -/
def start (p : α → Bool) (time : α → τ) (samples : List α) : Option τ :=
  samples.foldl (next p time) none

/-- From some sample at `t` or before, the condition has held at every one. -/
def HeldSince [LE τ] (p : α → Bool) (time : α → τ) (samples : List α) (t : τ) : Prop :=
  ∃ before first rest, samples = before ++ first :: rest ∧ time first ≤ t ∧
    ∀ x ∈ first :: rest, p x = true

variable {p : α → Bool} {time : α → τ} {samples : List α} {x : α}

@[simp] theorem start_nil : start p time [] = none := rfl

@[simp] theorem start_concat :
    start p time (samples ++ [x]) = next p time (start p time samples) x := by
  simp [start]

/-- A streak starts at one of the samples. -/
theorem exists_mem_of_start {s : τ} (h : start p time samples = some s) :
    ∃ x ∈ samples, time x = s := by
  induction samples using List.reverseRecOn generalizing s with
  | nil => cases h
  | append_singleton samples x ih =>
      rw [start_concat, next] at h
      split at h
      · cases hstart : start p time samples with
        | none =>
            rw [hstart] at h
            exact ⟨x, by simp, Option.some.inj h⟩
        | some s' =>
            obtain ⟨y, hy, htime⟩ := ih hstart
            rw [hstart] at h
            exact ⟨y, List.mem_append_left _ hy, htime.trans (Option.some.inj h)⟩
      · cases h

/-- The condition holds at a new sample, and has held before or the sample is early enough. -/
theorem heldSince_concat_iff [LE τ] {t : τ} :
    HeldSince p time (samples ++ [x]) t ↔ p x = true ∧ (HeldSince p time samples t ∨ time x ≤ t) := by
  constructor
  · rintro ⟨before, first, rest, hsplit, hfirst, hall⟩
    cases rest using List.reverseRecOn with
    | nil =>
        obtain ⟨-, hx⟩ := List.append_inj' hsplit rfl
        obtain rfl : x = first := List.singleton_inj.mp hx
        exact ⟨hall x List.mem_cons_self, .inr hfirst⟩
    | append_singleton rest y =>
        rw [← List.cons_append, ← List.append_assoc] at hsplit
        obtain ⟨hsamples, hx⟩ := List.append_inj' hsplit rfl
        obtain rfl : x = y := List.singleton_inj.mp hx
        refine ⟨hall x (by simp), .inl ⟨before, first, rest, hsamples, hfirst, fun y hy => hall y ?_⟩⟩
        rw [← List.cons_append]
        exact List.mem_append_left _ hy
  · rintro ⟨hx, ⟨before, first, rest, rfl, hfirst, hall⟩ | htime⟩
    · refine ⟨before, first, rest ++ [x], by simp, hfirst, fun y hy => ?_⟩
      rw [← List.cons_append] at hy
      obtain hy | hy := List.mem_append.mp hy
      · exact hall y hy
      · exact List.mem_singleton.mp hy ▸ hx
    · exact ⟨samples, x, [], rfl, htime, fun y hy => List.mem_singleton.mp hy ▸ hx⟩

/-- **The pass is exact** on samples in the order of their times. -/
theorem heldSince_iff [Preorder τ] {t : τ}
    (hsorted : samples.Pairwise fun x y => time x ≤ time y) :
    HeldSince p time samples t ↔ ∃ s, start p time samples = some s ∧ s ≤ t := by
  induction samples using List.reverseRecOn with
  | nil => simp [HeldSince]
  | append_singleton samples x ih =>
      obtain ⟨hsorted, -, hlast⟩ := List.pairwise_append.mp hsorted
      rw [heldSince_concat_iff, ih hsorted, start_concat, next]
      by_cases hx : p x = true
      · rw [if_pos hx]
        cases hstart : start p time samples with
        | none => simp [hx]
        | some s =>
            obtain ⟨y, hy, rfl⟩ := exists_mem_of_start hstart
            have hle : time y ≤ time x := hlast y hy x (by simp)
            simp only [hx, Option.some.injEq, Option.getD_some, exists_eq_left', true_and]
            exact ⟨fun h => h.elim id hle.trans, .inl⟩
      · simp [hx]

end Streak
