import Mathlib.Data.List.Induction

/-!
# Lib.SlidingWindow

Times of events, of which only those in a window that ends at the present are looked at.
The clock does not run backwards, so what has left the window can be dropped.

* `StandsFor` — a pruned list that answers for the whole one from now on;
* `countP_within_le` — events that are let through only when the window ending at them
  is not full are never more than that in any window.
-/

namespace SlidingWindow

/-- `t` lies in the half-open window of length `w` that ends at `now`. -/
def recent (w now t : Nat) : Bool := decide (now < t + w)

theorem recent_mono {w now later t : Nat} (hle : now ≤ later) (h : recent w later t = true) :
    recent w now t = true := by
  simp only [recent, decide_eq_true_eq] at *
  omega

/-! ## pruning -/

/-- No reading of the clock from `last` on tells `kept` from `all`. -/
def StandsFor (w last : Nat) (kept all : List Nat) : Prop :=
  ∀ now, last ≤ now → kept.filter (recent w now) = all.filter (recent w now)

theorem standsFor_refl (w last : Nat) (all : List Nat) : StandsFor w last all all :=
  fun _ _ => rfl

theorem StandsFor.later {w last now : Nat} {kept all : List Nat} (h : StandsFor w last kept all)
    (hle : last ≤ now) : StandsFor w now kept all :=
  fun later hlater => h later (Nat.le_trans hle hlater)

/-- What has left the window can go. -/
theorem StandsFor.prune {w last now : Nat} {kept all : List Nat} (h : StandsFor w last kept all)
    (hle : last ≤ now) : StandsFor w now (kept.filter (recent w now)) all := by
  intro later hlater
  have hsame : (kept.filter (recent w now)).filter (recent w later) = kept.filter (recent w later) := by
    rw [List.filter_filter]
    refine List.filter_congr fun t _ => ?_
    cases hr : recent w later t with
    | true => simp [recent_mono hlater hr]
    | false => rfl
  rw [hsame, h later (Nat.le_trans hle hlater)]

theorem StandsFor.append {w last : Nat} {kept all : List Nat} (h : StandsFor w last kept all)
    (ts : List Nat) : StandsFor w last (kept ++ ts) (all ++ ts) := by
  intro now hle
  rw [List.filter_append, List.filter_append, h now hle]

theorem StandsFor.length_filter {w last now : Nat} {kept all : List Nat}
    (h : StandsFor w last kept all) (hle : last ≤ now) :
    (kept.filter (recent w now)).length = all.countP (recent w now) := by
  rw [h now hle, List.countP_eq_length_filter]

/-- Where everything has left the window, nothing stands for it. -/
theorem StandsFor.of_expired {w last now : Nat} {kept all : List Nat} (h : StandsFor w last kept all)
    (hle : last ≤ now) (hgone : ∀ t ∈ kept, t + w ≤ now) : StandsFor w now [] all := by
  have hnone : kept.filter (recent w now) = [] := by
    rw [List.filter_eq_nil_iff]
    intro t ht
    have hout := hgone t ht
    simp only [recent, decide_eq_true_eq]
    omega
  have hprune := h.prune hle
  rwa [hnone] at hprune

/-! ## a full window -/

/-- The time lies in the window of length `w` from `a` on. -/
def within (w a t : Nat) : Bool := decide (a ≤ t) && decide (t < a + w)

/-- **No window holds too many**: an event is let through only where the window ending at it
holds at most `limit` events, so at most `limit` of those let through lie in any window. -/
theorem countP_within_le {w limit : Nat} {es : List (Nat × Bool)}
    (hsorted : es.Pairwise fun d e => d.1 ≤ e.1)
    (hlimit : ∀ pre t post, es = pre ++ (t, true) :: post →
      (pre.map Prod.fst).countP (recent w t) + 1 ≤ limit) (a : Nat) :
    es.countP (fun e => e.2 && within w a e.1) ≤ limit := by
  induction es using List.reverseRecOn with
  | nil => simp
  | append_singleton es e ih =>
      rw [List.pairwise_append] at hsorted
      obtain ⟨hes, -, hlast⟩ := hsorted
      have hih := ih hes fun pre t post heq =>
        hlimit pre t (post ++ [e]) (by rw [heq, List.append_assoc, List.cons_append])
      obtain ⟨t, ok⟩ := e
      rw [List.countP_append, List.countP_singleton]
      by_cases hin : (ok && within w a t) = true
      · -- what lies in the window from `a` also lies in the one ending at `t`
        rw [Bool.and_eq_true] at hin
        obtain ⟨rfl, hin⟩ := hin
        have hcount := hlimit es t [] rfl
        have hle : es.countP (fun e => e.2 && within w a e.1) ≤
            (es.map Prod.fst).countP (recent w t) := by
          rw [List.countP_map]
          refine List.countP_mono_left fun d hd hwin => ?_
          simp only [within, recent, Function.comp_apply, Bool.and_eq_true,
            decide_eq_true_eq] at hin hwin ⊢
          omega
        simp only [hin, Bool.and_self, if_true]
        omega
      · rw [if_neg hin]
        exact hih

end SlidingWindow
