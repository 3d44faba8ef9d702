import Mathlib.Algebra.Order.Field.Rat
import Mathlib.Data.List.Basic

/-!
# Lib.Retry

Calls that are tried again while they fail in a way that may pass, up to a number of times, after
waits that double.

* `Policy.next` — what one attempt makes of a call;
* `Policy.run` — the call after the attempts so far;
* `run_eq_trying_iff` — a call is tried as long as it failed in passing, and not too often.
-/

namespace Retry

variable {τ ε : Type}

/-- What one attempt comes to. -/
inductive Attempt (τ ε : Type) where
  | returned (value : τ)
  | failed (error : ε)
deriving DecidableEq

/-- Where a call stands; while it is tried, with the number of attempts that failed. -/
inductive Call (τ ε : Type) where
  | trying (failed : Nat)
  | returned (value : τ)
  | raised (error : ε)
deriving DecidableEq

/-- Which failures may pass, how often a call is tried, and the first wait. -/
structure Policy (ε : Type) where
  passing : ε → Bool
  maxRetries : Nat
  backoffBase : Rat

namespace Policy

variable (p : Policy ε) {failed : Nat}

/-- The call after one more attempt. -/
def next (failed : Nat) : Attempt τ ε → Call τ ε
  | .returned value => .returned value
  | .failed error =>
    if p.passing error ∧ failed + 1 < p.maxRetries then .trying (failed + 1) else .raised error

/-- The wait after a failed attempt. -/
def backoff (failed : Nat) : Rat := p.backoffBase * 2 ^ failed

/-- What an attempt makes of a call; none is made after its end. -/
def step : Call τ ε → Attempt τ ε → Call τ ε
  | .trying failed, a => p.next failed a
  | .returned value, _ => .returned value
  | .raised error, _ => .raised error

/-- The call after attempts. -/
def run (c : Call τ ε) (as : List (Attempt τ ε)) : Call τ ε := as.foldl p.step c

@[simp] theorem run_nil (c : Call τ ε) : p.run c [] = c := rfl

@[simp] theorem run_cons (c : Call τ ε) (a : Attempt τ ε) (as : List (Attempt τ ε)) :
    p.run c (a :: as) = p.run (p.step c a) as := rfl

theorem run_concat (c : Call τ ε) (as : List (Attempt τ ε)) (a : Attempt τ ε) :
    p.run c (as ++ [a]) = p.step (p.run c as) a := by
  rw [run, List.foldl_append]
  rfl

@[simp] theorem run_returned (value : τ) (as : List (Attempt τ ε)) :
    p.run (.returned value) as = .returned value := by
  induction as with
  | nil => rfl
  | cons a as ih => exact ih

@[simp] theorem run_raised (error : ε) (as : List (Attempt τ ε)) :
    p.run (.raised error) as = .raised error := by
  induction as with
  | nil => rfl
  | cons a as ih => exact ih

theorem step_failed (error : ε) :
    p.step (.trying failed) (.failed error : Attempt τ ε) =
      if p.passing error ∧ failed + 1 < p.maxRetries then .trying (failed + 1)
      else .raised error := rfl

/-- Attempts that fail in passing, as long as the call may go on. -/
theorem run_passing {errors : List ε} (hpass : ∀ e ∈ errors, p.passing e = true)
    (hmax : errors = [] ∨ failed + errors.length < p.maxRetries) (as : List (Attempt τ ε)) :
    p.run (.trying failed) (errors.map .failed ++ as) =
      p.run (.trying (failed + errors.length)) as := by
  induction errors generalizing failed with
  | nil => rfl
  | cons e errors ih =>
      have hlt : failed + (errors.length + 1) < p.maxRetries := by simpa using hmax
      rw [List.map_cons, List.cons_append, run_cons, step_failed,
        if_pos ⟨hpass e List.mem_cons_self, by omega⟩,
        ih (fun f hf => hpass f (List.mem_cons_of_mem _ hf)) (.inr (by omega)), List.length_cons,
        Nat.add_assoc, Nat.add_comm 1]

/-- A call that is still tried has failed in passing so far. -/
theorem run_eq_trying_iff {as : List (Attempt τ ε)} {k : Nat} :
    p.run (.trying failed) as = .trying k ↔
      ∃ errors : List ε, as = errors.map .failed ∧ (∀ e ∈ errors, p.passing e = true) ∧
        k = failed + errors.length ∧ (errors = [] ∨ k < p.maxRetries) := by
  constructor
  · intro h
    induction as generalizing failed with
    | nil =>
        obtain rfl : failed = k := by simpa using h
        exact ⟨[], rfl, by simp, rfl, .inl rfl⟩
    | cons a as ih =>
        rw [run_cons] at h
        cases a with
        | returned v => simp [step, next] at h
        | failed e =>
            rw [step_failed] at h
            split at h
            · next hpass =>
                obtain ⟨errors, rfl, herrors, rfl, hmax⟩ := ih h
                refine ⟨e :: errors, rfl, List.forall_mem_cons.mpr ⟨hpass.1, herrors⟩, ?_, .inr ?_⟩
                · rw [List.length_cons]
                  omega
                · rcases hmax with rfl | hmax
                  · exact hpass.2
                  · exact hmax
            · simp at h
  · rintro ⟨errors, rfl, herrors, rfl, hmax⟩
    have hrun := run_passing p herrors hmax ([] : List (Attempt τ ε))
    rwa [List.append_nil] at hrun

end Policy

end Retry
