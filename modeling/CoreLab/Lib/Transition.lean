import Mathlib.Logic.Basic

/-!
# Lib.Transition

State machines given by a partial step function: `step s a` is the state after
action `a`, or `none` where `a` is not enabled.  An interleaving is a list of
actions, so a statement about every list is a statement about every order of
steps.

* `exec` — the state an action list ends in;
* `Meets` — every action of the list is taken in a state that satisfies a
  condition on the state before it;
* `Along` — every step taken satisfies a relation between the state before,
  the action and the state after.

Invariants go through `exec_invariant` (states) and `along_of_invariant`
(steps); both take the condition on the steps as a premise of the step lemma.
Where a measure decreases, runs are bounded and can be completed
(`length_add_measure_le`, `exists_maximal`).
-/

namespace Transition

variable {σ α : Type} {step : σ → α → Option σ}

/-- Run the actions in order; `none` as soon as one is not enabled. -/
def exec (step : σ → α → Option σ) : σ → List α → Option σ
  | s, [] => some s
  | s, a :: as => (step s a).bind fun t => exec step t as

/-- Each action of the list is taken in a state that `ok` accepts. -/
def Meets (step : σ → α → Option σ) (ok : σ → α → Prop) : σ → List α → Prop
  | _, [] => True
  | s, a :: as => ok s a ∧ ∀ t, step s a = some t → Meets step ok t as

/-- A condition that can be evaluated can be evaluated along a run. -/
instance decidableMeets {ok : σ → α → Prop} [∀ s a, Decidable (ok s a)] :
    ∀ s as, Decidable (Meets step ok s as)
  | _, [] => .isTrue True.intro
  | s, a :: as =>
    have : Decidable (∀ t, step s a = some t → Meets step ok t as) :=
      match step s a with
      | none => .isTrue fun _ ht => nomatch ht
      | some u =>
        match decidableMeets u as with
        | .isTrue h => .isTrue fun _ ht => Option.some.inj ht ▸ h
        | .isFalse h => .isFalse fun hall => h (hall u rfl)
    inferInstanceAs (Decidable (ok s a ∧ ∀ t, step s a = some t → Meets step ok t as))

/-- Each step of the execution is related by `P`. -/
def Along (step : σ → α → Option σ) (P : σ → α → σ → Prop) : σ → List α → Prop
  | _, [] => True
  | s, a :: as => ∀ t, step s a = some t → P s a t ∧ Along step P t as

@[simp] theorem exec_nil (s : σ) : exec step s [] = some s := rfl

theorem exec_cons_eq_some {s u : σ} {a : α} {as : List α} :
    exec step s (a :: as) = some u ↔ ∃ t, step s a = some t ∧ exec step t as = some u := by
  simp [exec, Option.bind_eq_some_iff]

/-- Two runs, one after the other. -/
theorem exec_append {s t u : σ} {as bs : List α} (ht : exec step s as = some t)
    (hu : exec step t bs = some u) : exec step s (as ++ bs) = some u := by
  induction as generalizing s with
  | nil => exact Option.some.inj ht ▸ hu
  | cons a as ih =>
      obtain ⟨v, hv, ht⟩ := exec_cons_eq_some.mp ht
      exact exec_cons_eq_some.mpr ⟨v, hv, ih ht⟩

/-- A relation that holds along a run holds of the step after any part of it. -/
theorem Along.step_of_exec {P : σ → α → σ → Prop} {s t u : σ} {as bs : List α} {a : α}
    (h : Along step P s (as ++ a :: bs)) (ht : exec step s as = some t) (hu : step t a = some u) :
    P t a u := by
  induction as generalizing s with
  | nil =>
      obtain rfl := Option.some.inj ht
      exact (h u hu).1
  | cons b as ih =>
      obtain ⟨v, hv, ht⟩ := exec_cons_eq_some.mp ht
      exact ih (h v hv).2 ht

theorem meets_true (s : σ) (as : List α) : Meets step (fun _ _ => True) s as := by
  induction as generalizing s with
  | nil => exact True.intro
  | cons a as ih => exact ⟨True.intro, fun t _ => ih t⟩

/-- What one conditioned step preserves, a conditioned run preserves. -/
theorem exec_invariant {I : σ → Prop} {ok : σ → α → Prop}
    (hstep : ∀ s a t, I s → ok s a → step s a = some t → I t) {s u : σ} {as : List α}
    (hs : I s) (hok : Meets step ok s as) (hu : exec step s as = some u) : I u := by
  induction as generalizing s with
  | nil =>
      rw [exec_nil, Option.some.injEq] at hu
      exact hu ▸ hs
  | cons a as ih =>
      obtain ⟨t, ht, hu⟩ := exec_cons_eq_some.mp hu
      exact ih (hstep s a t hs hok.1 ht) (hok.2 t ht) hu

/-- A step relation that follows from an invariant holds of every step of a
conditioned run. -/
theorem along_of_invariant {I : σ → Prop} {ok : σ → α → Prop} {P : σ → α → σ → Prop}
    (hstep : ∀ s a t, I s → ok s a → step s a = some t → I t ∧ P s a t) {s : σ} {as : List α}
    (hs : I s) (hok : Meets step ok s as) : Along step P s as := by
  induction as generalizing s with
  | nil => exact True.intro
  | cons a as ih =>
      intro t ht
      obtain ⟨hI, hP⟩ := hstep s a t hs hok.1 ht
      exact ⟨hP, ih hI (hok.2 t ht)⟩

/-- What every step preserves, a run preserves. -/
theorem along_of_keeps {I : σ → Prop} {P : σ → α → σ → Prop}
    (hstep : ∀ s a t, I s → step s a = some t → I t ∧ P s a t) {s : σ} (hs : I s) (as : List α) :
    Along step P s as :=
  along_of_invariant (fun s a t h _ => hstep s a t h) hs (meets_true s as)

/-- A weaker condition is met too. -/
theorem Meets.imp {ok ok' : σ → α → Prop} (h : ∀ s a, ok s a → ok' s a) {s : σ} {as : List α}
    (hok : Meets step ok s as) : Meets step ok' s as := by
  induction as generalizing s with
  | nil => exact True.intro
  | cons a as ih => exact ⟨h s a hok.1, fun t ht => ih (hok.2 t ht)⟩

/-- Where each step has the relation exactly under a condition, so has a conditioned run. -/
theorem along_iff_meets {I : σ → Prop} {ok ok' : σ → α → Prop} {P : σ → α → σ → Prop}
    (hstep : ∀ s a t, I s → ok s a → step s a = some t → I t ∧ (P s a t ↔ ok' s a))
    (hnone : ∀ s a, step s a = none → ok' s a) {s : σ} {as : List α} (hs : I s)
    (hok : Meets step ok s as) : Along step P s as ↔ Meets step ok' s as := by
  induction as generalizing s with
  | nil => rfl
  | cons a as ih =>
      cases ht : step s a with
      | none => simp [Along, Meets, ht, hnone s a ht]
      | some t =>
          obtain ⟨hI, hP⟩ := hstep s a t hs hok.1 ht
          simp only [Along, Meets, ht, Option.some.injEq, forall_eq']
          rw [hP, ih hI (hok.2 t ht)]

/-- Where the relation keeps the invariant that it needs, a run has it exactly if each of its
actions meets the condition that gives it. -/
theorem along_iff_meets_of_keeps {I : σ → Prop} {ok : σ → α → Prop} {P : σ → α → σ → Prop}
    (hstep : ∀ s a t, I s → step s a = some t → (P s a t ↔ ok s a))
    (hkeeps : ∀ s a t, I s → step s a = some t → P s a t → I t)
    (hnone : ∀ s a, step s a = none → ok s a) {s : σ} {as : List α} (hs : I s) :
    Along step P s as ↔ Meets step ok s as := by
  induction as generalizing s with
  | nil => rfl
  | cons a as ih =>
      cases ht : step s a with
      | none => simp [Along, Meets, ht, hnone s a ht]
      | some t =>
          simp only [Along, Meets, ht, Option.some.injEq, forall_eq']
          rw [hstep s a t hs ht]
          exact and_congr_right fun hok => ih (hkeeps s a t hs ht ((hstep s a t hs ht).mpr hok))

/-- A condition on the actions alone. -/
theorem meets_iff_forall {ok : α → Prop} (htotal : ∀ s a, ∃ t, step s a = some t) {s : σ}
    {as : List α} : Meets step (fun _ a => ok a) s as ↔ ∀ a ∈ as, ok a := by
  induction as generalizing s with
  | nil => simp [Meets]
  | cons a as ih =>
      obtain ⟨t, ht⟩ := htotal s a
      simp [Meets, ht, ih]

/-! ## runs that end -/

section Measure

variable {μ : σ → Nat} (hdec : ∀ s a t, step s a = some t → μ t < μ s)
include hdec

/-- A measure that every step decreases pays for the steps of a run. -/
theorem length_add_measure_le {s u : σ} {as : List α} (h : exec step s as = some u) :
    as.length + μ u ≤ μ s := by
  induction as generalizing s with
  | nil =>
      rw [exec_nil, Option.some.injEq] at h
      simp [h]
  | cons a as ih =>
      obtain ⟨t, ht, hu⟩ := exec_cons_eq_some.mp h
      have hlt := hdec s a t ht
      have hle := ih hu
      rw [List.length_cons]
      omega

/-- Every state then has a run to a state in which no action is enabled. -/
theorem exists_maximal (s : σ) : ∃ as u, exec step s as = some u ∧ ∀ a, step u a = none := by
  induction hn : μ s using Nat.strongRecOn generalizing s with
  | ind n ih =>
      by_cases hend : ∀ a, step s a = none
      · exact ⟨[], s, rfl, hend⟩
      · simp only [not_forall] at hend
        obtain ⟨a, ha⟩ := hend
        obtain ⟨t, ht⟩ := Option.ne_none_iff_exists'.mp ha
        obtain ⟨as, u, hu, hend⟩ := ih (μ t) (hn ▸ hdec s a t ht) t rfl
        exact ⟨a :: as, u, exec_cons_eq_some.mpr ⟨t, ht, hu⟩, hend⟩

end Measure

end Transition
