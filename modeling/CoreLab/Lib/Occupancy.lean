import Mathlib.Algebra.Order.BigOperators.Group.List
import Mathlib.Algebra.Order.Ring.Nat
import Mathlib.Data.List.Perm.Basic

/-!
# Lib.Occupancy

A resource that is either taken whole by one occupant or shared by several,
each with a declared demand on two budgets.  Occupants hold half-open
intervals `[start, finish)` of a linear order of instants.

* `Fits` — what may hold the resource at one instant;
* `Fits.sublist` — it is closed under removing occupants;
* `fits_cons_of_admits` — an occupant that is admitted against every occupant
  overlapping its interval fits at every instant of it;
* `covers_overlaps` — who is present at an instant of an interval overlaps it.
-/

namespace Occupancy

/-- What one occupant takes: everything, or a share of both budgets. -/
inductive Demand where
  | exclusive
  | shared (memory share : Nat)
deriving DecidableEq, Repr

/-- The two budgets; `memory = none` is unlimited. -/
structure Capacity where
  memory : Option Nat
  share : Nat
deriving DecidableEq, Repr

namespace Demand

def isShared : Demand → Bool
  | exclusive => false
  | shared .. => true

def memory : Demand → Nat
  | exclusive => 0
  | shared m _ => m

def share : Demand → Nat
  | exclusive => 0
  | shared _ s => s

end Demand

/-- Total demand on the memory budget. -/
def memorySum (ds : List Demand) : Nat := (ds.map Demand.memory).sum

/-- Total demand on the share budget. -/
def shareSum (ds : List Demand) : Nat := (ds.map Demand.share).sum

/-- `n` is within an optional limit. -/
def WithinLimit (limit : Option Nat) (n : Nat) : Prop := ∀ m, limit = some m → n ≤ m

/-- All demands are shared, and their sums are within the budgets. -/
structure SharedWithin (cap : Capacity) (ds : List Demand) : Prop where
  shared : ∀ d ∈ ds, d.isShared = true
  memory : WithinLimit cap.memory (memorySum ds)
  share : shareSum ds ≤ cap.share

/-- What may hold the resource at one instant: nobody, one exclusive occupant,
or sharing ones within the budgets. -/
def Fits (cap : Capacity) (ds : List Demand) : Prop :=
  ((∀ d ∈ ds, d = .exclusive) ∧ ds.length ≤ 1) ∨ SharedWithin cap ds

@[simp] theorem memorySum_nil : memorySum [] = 0 := rfl
@[simp] theorem shareSum_nil : shareSum [] = 0 := rfl

@[simp] theorem memorySum_cons (d : Demand) (ds : List Demand) :
    memorySum (d :: ds) = d.memory + memorySum ds := rfl

@[simp] theorem shareSum_cons (d : Demand) (ds : List Demand) :
    shareSum (d :: ds) = d.share + shareSum ds := rfl

@[simp] theorem memorySum_append (ds es : List Demand) :
    memorySum (ds ++ es) = memorySum ds + memorySum es := by simp [memorySum]

@[simp] theorem shareSum_append (ds es : List Demand) :
    shareSum (ds ++ es) = shareSum ds + shareSum es := by simp [shareSum]

theorem memorySum_sublist {ds es : List Demand} (h : ds.Sublist es) :
    memorySum ds ≤ memorySum es := List.Sublist.sum_le_sum (h.map _) (fun _ _ => Nat.zero_le _)

theorem shareSum_sublist {ds es : List Demand} (h : ds.Sublist es) :
    shareSum ds ≤ shareSum es := List.Sublist.sum_le_sum (h.map _) (fun _ _ => Nat.zero_le _)

theorem WithinLimit.mono {limit : Option Nat} {m n : Nat} (h : WithinLimit limit n) (hmn : m ≤ n) :
    WithinLimit limit m := fun k hk => Nat.le_trans hmn (h k hk)

/-- An exclusive demand is present only when it is alone. -/
theorem Fits.eq_singleton {cap : Capacity} {ds : List Demand} (h : Fits cap ds)
    (hd : .exclusive ∈ ds) : ds = [.exclusive] := by
  rcases h with ⟨hall, hlen⟩ | hshared
  · match ds, hlen with
    | [d], _ => rw [hall d List.mem_cons_self]
  · exact absurd (hshared.shared _ hd) (by decide)

/-- Demands without an exclusive one that fit are within the budgets. -/
theorem Fits.sharedWithin {cap : Capacity} {ds : List Demand} (h : Fits cap ds)
    (hd : ∀ d ∈ ds, d.isShared = true) : SharedWithin cap ds := by
  rcases h with ⟨hall, -⟩ | hshared
  · match ds with
    | [] => exact ⟨hd, fun m _ => Nat.zero_le m, Nat.zero_le _⟩
    | d :: _ =>
        have he := hall d List.mem_cons_self
        have hs := hd d List.mem_cons_self
        rw [he] at hs
        cases hs
  · exact hshared

/-- At most one of several demands is exclusive: two that fit are shared. -/
theorem Fits.sharedWithin_of_two_le {cap : Capacity} {ds : List Demand} (h : Fits cap ds)
    (hlen : 2 ≤ ds.length) : SharedWithin cap ds := by
  rcases h with ⟨-, hone⟩ | hshared
  · omega
  · exact hshared

/-- No occupant asks for more than the whole memory. -/
theorem Fits.memory_le {cap : Capacity} {ds : List Demand} (h : Fits cap ds) {d : Demand}
    (hd : d ∈ ds) : WithinLimit cap.memory d.memory := by
  rcases h with ⟨hall, -⟩ | hshared
  · rw [hall d hd]
    exact fun m _ => Nat.zero_le m
  · exact hshared.memory.mono (List.le_sum_of_mem (List.mem_map.mpr ⟨d, hd, rfl⟩))

theorem SharedWithin.sublist {cap : Capacity} {ds es : List Demand} (h : SharedWithin cap es)
    (hs : ds.Sublist es) : SharedWithin cap ds :=
  ⟨fun d hd => h.shared d (hs.subset hd), h.memory.mono (memorySum_sublist hs),
    Nat.le_trans (shareSum_sublist hs) h.share⟩

/-- Removing occupants keeps the others within the resource. -/
theorem Fits.sublist {cap : Capacity} {ds es : List Demand} (h : Fits cap es)
    (hs : ds.Sublist es) : Fits cap ds := by
  rcases h with ⟨hall, hlen⟩ | hshared
  · exact Or.inl ⟨fun d hd => hall d (hs.subset hd), Nat.le_trans hs.length_le hlen⟩
  · exact Or.inr (hshared.sublist hs)

/-- The order of occupants does not matter. -/
theorem Fits.perm {cap : Capacity} {ds es : List Demand} (h : Fits cap ds) (hp : ds.Perm es) :
    Fits cap es := by
  rcases h with ⟨hall, hlen⟩ | hshared
  · exact Or.inl ⟨fun d hd => hall d (hp.mem_iff.mpr hd), hp.length_eq ▸ hlen⟩
  · have hmem : memorySum es = memorySum ds := ((hp.map _).sum_eq).symm
    have hshare : shareSum es = shareSum ds := ((hp.map _).sum_eq).symm
    exact Or.inr ⟨fun d hd => hshared.shared d (hp.mem_iff.mpr hd), hmem ▸ hshared.memory,
      hshare ▸ hshared.share⟩

theorem fits_nil (cap : Capacity) : Fits cap [] := Or.inl ⟨by simp, by simp⟩

theorem fits_exclusive (cap : Capacity) : Fits cap [.exclusive] := Or.inl ⟨by simp, by simp⟩

/-! ## admission -/

/-- A new demand is admitted against the occupants of its whole interval.  An
empty interval admits anything; the share budget is not looked at by a demand
that declares none. -/
def Admits (cap : Capacity) (window : List Demand) : Demand → Prop
  | .exclusive => window = []
  | .shared m s => window = [] ∨
      ((∀ d ∈ window, d.isShared = true) ∧ WithinLimit cap.memory (memorySum window + m) ∧
        (s = 0 ∨ shareSum window + s ≤ cap.share))

/-- A shared demand is admitted beside shared ones only. -/
theorem Admits.isShared_of_shared {cap : Capacity} {window : List Demand} {d : Demand}
    (h : Admits cap window d) (hd : d.isShared = true) : ∀ e ∈ window, e.isShared = true := by
  cases d with
  | exclusive => cases hd
  | shared m s =>
      rcases h with hwindow | ⟨hall, -⟩
      · rw [hwindow]; simp
      · exact hall

/-- **Admission is sound for one newcomer**: a demand admitted against the
occupants of its interval, and within the budgets by itself, fits beside any
of them that fitted before. -/
theorem fits_cons_of_admits {cap : Capacity} {window present : List Demand} {d : Demand}
    (hadm : Admits cap window d) (hsub : present.Sublist window) (hfit : Fits cap present)
    (hmem : WithinLimit cap.memory d.memory) (hshare : d.share ≤ cap.share) :
    Fits cap (d :: present) := by
  cases d with
  | exclusive =>
      have hwindow : window = [] := hadm
      rw [hwindow, List.sublist_nil] at hsub
      exact hsub ▸ fits_exclusive cap
  | shared m s =>
      refine Or.inr ?_
      rcases hadm with hwindow | ⟨hall, hm, hs⟩
      · rw [hwindow, List.sublist_nil] at hsub
        subst hsub
        exact ⟨by simp [Demand.isShared], by simpa using hmem, by simpa using hshare⟩
      · have hpresent := hfit.sharedWithin fun d hd => hall d (hsub.subset hd)
        refine ⟨?_, hm.mono ?_, ?_⟩
        · intro e he
          cases he with
          | head => rfl
          | tail _ he => exact hpresent.shared e he
        · have := memorySum_sublist hsub
          rw [memorySum_cons, Demand.memory]
          omega
        · rw [shareSum_cons, Demand.share]
          rcases hs with rfl | hs
          · simpa using hpresent.share
          · have := shareSum_sublist hsub
            omega

/-! ## intervals -/

section Intervals

variable {ι τ : Type} [LinearOrder τ] (start finish : ι → τ)

/-- The occupant's interval contains the instant. -/
def Covers (t : τ) (i : ι) : Prop := start i ≤ t ∧ t < finish i

/-- The occupant's interval meets `[a, b)`. -/
def Overlaps (a b : τ) (i : ι) : Prop := start i < b ∧ a < finish i

instance (t : τ) (i : ι) : Decidable (Covers start finish t i) :=
  inferInstanceAs (Decidable (_ ∧ _))

instance (a b : τ) (i : ι) : Decidable (Overlaps start finish a b i) :=
  inferInstanceAs (Decidable (_ ∧ _))

/-- Who is present at an instant of `[a, b)` overlaps `[a, b)`. -/
theorem covers_overlaps {a b t : τ} {i : ι} (ha : a ≤ t) (hb : t < b)
    (hi : Covers start finish t i) : Overlaps start finish a b i :=
  ⟨lt_of_le_of_lt hi.1 hb, lt_of_le_of_lt ha hi.2⟩

end Intervals

end Occupancy
