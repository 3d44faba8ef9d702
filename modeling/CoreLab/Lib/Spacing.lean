import Mathlib.Algebra.Order.Group.Defs
import Mathlib.Data.List.Basic

/-!
# Lib.Spacing

Events that are let through only when none of their key was let through within a gap before them.

* `Spaced` — the events of one key lie a gap apart;
* `Spaced.concat` — so they stay when a next one is let through;
* `Spaced.countP_le` — so a window of `n` gaps has at most `n` events of a key.
-/

namespace Spacing

variable {κ τ : Type} [AddCommGroup τ] [LinearOrder τ] {gap : τ} {events : List (κ × τ)}

/-- Any two events of one key lie at least `gap` apart. -/
def Spaced (gap : τ) (events : List (κ × τ)) : Prop :=
  events.Pairwise fun e f => e.1 = f.1 → e.2 + gap ≤ f.2

theorem spaced_nil : Spaced gap ([] : List (κ × τ)) := List.Pairwise.nil

/-- An event is let through when every earlier one of its key lies a gap behind. -/
theorem Spaced.concat (h : Spaced gap events) {k : κ} {t : τ}
    (hlast : ∀ e ∈ events, e.1 = k → e.2 + gap ≤ t) : Spaced gap (events ++ [(k, t)]) := by
  refine List.pairwise_append.mpr ⟨h, List.pairwise_singleton _ _, fun e he f hf hkey => ?_⟩
  obtain rfl := List.mem_singleton.mp hf
  exact hlast e he hkey

/-- Times that lie a gap apart, in a window of `n` gaps. -/
theorem length_le_of_spaced [IsOrderedAddMonoid τ] {times : List τ} {start : τ} {n : Nat}
    (h : times.Pairwise fun s t => s + gap ≤ t)
    (hwindow : ∀ t ∈ times, start ≤ t ∧ t < start + n • gap) : times.length ≤ n := by
  induction n generalizing start times with
  | zero =>
      cases times with
      | nil => exact Nat.le_refl 0
      | cons t times =>
          obtain ⟨hle, hlt⟩ := hwindow t List.mem_cons_self
          rw [zero_nsmul, add_zero] at hlt
          exact absurd hle (not_le.mpr hlt)
  | succ n ih =>
      cases times with
      | nil => exact Nat.zero_le _
      | cons t times =>
          obtain ⟨hfirst, hrest⟩ := List.pairwise_cons.mp h
          refine Nat.succ_le_succ (ih hrest fun u hu => ⟨hfirst u hu, ?_⟩)
          have hle := (hwindow t List.mem_cons_self).1
          calc
            u < start + (n + 1) • gap := (hwindow u (List.mem_cons_of_mem _ hu)).2
            _ = (start + gap) + n • gap := by rw [succ_nsmul, add_assoc, add_comm gap]
            _ ≤ (t + gap) + n • gap := by gcongr

/-- **At most `n`** events of a key lie in a window of `n` gaps. -/
theorem Spaced.countP_le [IsOrderedAddMonoid τ] [DecidableEq κ] (h : Spaced gap events) (k : κ)
    (start : τ) (n : Nat) :
    events.countP (fun e => decide (e.1 = k ∧ start ≤ e.2 ∧ e.2 < start + n • gap)) ≤ n := by
  rw [List.countP_eq_length_filter]
  generalize hevents : events.filter _ = window
  have hmem : ∀ e ∈ window, e.1 = k ∧ start ≤ e.2 ∧ e.2 < start + n • gap := by
    rintro e he
    rw [← hevents] at he
    exact of_decide_eq_true (List.mem_filter.mp he).2
  have hpairs : (window.map Prod.snd).Pairwise fun s t => s + gap ≤ t := by
    refine List.pairwise_map.mpr (List.Pairwise.imp_of_mem ?_ (hevents ▸ h.filter _))
    intro e f he hf hspaced
    exact hspaced ((hmem e he).1.trans (hmem f hf).1.symm)
  have hwindow : ∀ t ∈ window.map Prod.snd, start ≤ t ∧ t < start + n • gap := by
    rintro t ht
    obtain ⟨e, he, rfl⟩ := List.mem_map.mp ht
    exact (hmem e he).2
  rw [← List.length_map (f := Prod.snd)]
  exact length_le_of_spaced hpairs hwindow

end Spacing
