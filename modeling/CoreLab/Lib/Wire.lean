import Mathlib.Data.List.Perm.Basic

/-!
# Lib.Wire

Messages in flight, delivered or lost in any order: a list from which any
element may be taken next.

* `take_perm` — taking one message leaves exactly the others;
* `countP_take` — how a count over the messages splits.
-/

namespace Wire

variable {α : Type}

/-- Take the `i`-th message out. -/
def take (msgs : List α) (i : Nat) : Option (α × List α) :=
  msgs[i]?.map fun a => (a, msgs.eraseIdx i)

theorem getElem?_of_take {msgs rest : List α} {i : Nat} {a : α}
    (h : take msgs i = some (a, rest)) : msgs[i]? = some a := by
  obtain ⟨b, hb, heq⟩ := Option.map_eq_some_iff.mp h
  obtain ⟨rfl, -⟩ := Prod.mk.inj heq
  exact hb

theorem take_perm {msgs rest : List α} {i : Nat} {a : α} (h : take msgs i = some (a, rest)) :
    msgs.Perm (a :: rest) := by
  obtain ⟨b, hb, heq⟩ := Option.map_eq_some_iff.mp h
  obtain ⟨hi, rfl⟩ := List.getElem?_eq_some_iff.mp hb
  obtain ⟨rfl, rfl⟩ := Prod.mk.inj heq
  exact (List.getElem_cons_eraseIdx_perm hi).symm

theorem mem_rest_of_take {msgs rest : List α} {i : Nat} {a b : α}
    (h : take msgs i = some (a, rest)) (hb : b ∈ rest) : b ∈ msgs :=
  (take_perm h).mem_iff.mpr (List.mem_cons_of_mem a hb)

/-- A message is the one taken or one of the others. -/
theorem eq_or_mem_rest {msgs rest : List α} {i : Nat} {a b : α}
    (h : take msgs i = some (a, rest)) (hb : b ∈ msgs) : b = a ∨ b ∈ rest :=
  List.mem_cons.mp ((take_perm h).mem_iff.mp hb)

theorem countP_take {msgs rest : List α} {i : Nat} {a : α} (h : take msgs i = some (a, rest))
    (p : α → Bool) : msgs.countP p = (if p a then 1 else 0) + rest.countP p := by
  rw [(take_perm h).countP_eq, List.countP_cons, Nat.add_comm]

end Wire
