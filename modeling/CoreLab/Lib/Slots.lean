import Mathlib.Data.List.Basic

/-!
# Lib.Slots

Records that are kept under their number in a list: one is changed, or one joins at the end.

* `getElem?_change`, `getElem?_join` — what stands under a number afterwards;
* `All.change`, `All.join` — what holds of every record still does.
-/

namespace Slots

variable {α : Type} {l : List α} {k i : Nat} {x y z : α}

theorem getElem?_change (hk : l[k]? = some y) :
    (l.set k x)[i]? = some z ↔ (i = k ∧ z = x) ∨ (i ≠ k ∧ l[i]? = some z) := by
  by_cases h : i = k
  · subst h
    rw [List.getElem?_set_self (List.getElem?_eq_some_iff.mp hk).1, Option.some_inj]
    simp [eq_comm]
  · rw [List.getElem?_set_ne (Ne.symm h)]
    simp [h]

theorem getElem?_join :
    (l ++ [x])[i]? = some z ↔ l[i]? = some z ∨ (i = l.length ∧ z = x) := by
  rw [List.getElem?_append]
  split
  · next h => simp [Nat.ne_of_lt h]
  · next h =>
      rw [List.getElem?_singleton, List.getElem?_eq_none (Nat.le_of_not_lt h)]
      by_cases hi : i = l.length
      · simp [hi, eq_comm]
      · have hsub : i - l.length ≠ 0 := by omega
        simp [hi, hsub]

/-- What holds of every record under its number. -/
def All (P : Nat → α → Prop) (l : List α) : Prop := ∀ i x, l[i]? = some x → P i x

theorem All.nil {P : Nat → α → Prop} : All P [] := fun i x h => by simp at h

theorem All.change {P Q : Nat → α → Prop} (h : All P l) (hk : l[k]? = some y) (hx : Q k x)
    (hmono : ∀ i z, i ≠ k → P i z → Q i z) : All Q (l.set k x) := by
  intro i z hz
  rcases (getElem?_change hk).mp hz with ⟨rfl, rfl⟩ | ⟨hne, hz⟩
  · exact hx
  · exact hmono i z hne (h i z hz)

theorem All.join {P Q : Nat → α → Prop} (h : All P l) (hx : Q l.length x)
    (hmono : ∀ i z, P i z → Q i z) : All Q (l ++ [x]) := by
  intro i z hz
  rcases getElem?_join.mp hz with hz | ⟨rfl, rfl⟩
  · exact hmono i z (h i z hz)
  · exact hx

end Slots
