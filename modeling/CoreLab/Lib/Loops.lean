import Mathlib.Logic.Basic

/-!
# Lib.Loops

Loops whose body may fail, over `Except`.

* `raiseIf_eq_ok_iff` — a guard passes exactly when its condition fails;
* `returns_bind_iff` — when a sequence returns at all;
* `forM_eq_ok_iff` — a loop of checks passes exactly when every check passes;
* `foldlM_ok` — a loop that returns is the plain fold of what its body
  computes, and keeps the invariant its body keeps;
* `foldlM_keeps` — an invariant of the body is one of the loop;
* `foldlM_total` — a loop whose body always returns returns;
* `mapM_of_isSome` — a conversion that fails nowhere converts every element;
* `mapM_map_of_comm` — a conversion of encoded elements that commutes with the
  encoding commutes with it on the list.
-/

namespace Loops

variable {ε α σ : Type}

theorem bind_eq_ok_iff {β : Type} {x : Except ε α} {f : α → Except ε β} {b : β} :
    (x >>= f) = .ok b ↔ ∃ a, x = .ok a ∧ f a = .ok b := by
  cases x with
  | error e => exact ⟨fun h => (nomatch h), fun ⟨_, h, _⟩ => nomatch h⟩
  | ok a => exact ⟨fun h => ⟨a, rfl, h⟩, fun ⟨_, h, hb⟩ => Except.ok.inj h ▸ hb⟩

theorem map_eq_ok_iff {β : Type} {x : Except ε α} {f : α → β} {b : β} :
    x.map f = .ok b ↔ ∃ a, x = .ok a ∧ f a = b := by
  cases x with
  | error e => exact ⟨fun h => (nomatch h), fun ⟨_, h, _⟩ => nomatch h⟩
  | ok a => exact ⟨fun h => ⟨a, rfl, Except.ok.inj h⟩, fun ⟨_, h, hb⟩ => Except.ok.inj h ▸ hb ▸ rfl⟩

theorem toOption_eq_some_iff {x : Except ε α} {a : α} : x.toOption = some a ↔ x = .ok a := by
  cases x with
  | error e => exact ⟨fun h => (nomatch h), fun h => (nomatch h)⟩
  | ok b => exact ⟨fun h => congrArg _ (Option.some.inj h), fun h => congrArg _ (Except.ok.inj h)⟩

/-- A check followed by the rest of the body. -/
theorem check_bind_eq_ok_iff {β : Type} {x : Except ε Unit} {f : Unit → Except ε β} {b : β} :
    (x >>= f) = .ok b ↔ x = .ok () ∧ f () = .ok b := by
  rw [bind_eq_ok_iff]
  exact ⟨fun ⟨_, hx, hf⟩ => ⟨hx, hf⟩, fun ⟨hx, hf⟩ => ⟨(), hx, hf⟩⟩

/-- A check followed by the rest fails where either does. -/
theorem check_bind_eq_error {β : Type} {x : Except ε Unit} {f : Unit → Except ε β} {e : ε}
    (h : (x >>= f) = .error e) : x = .error e ∨ f () = .error e := by
  cases x with
  | error e' => exact Or.inl (congrArg _ (Except.error.inj h))
  | ok _ => exact Or.inr h

/-- `if cond: raise e`. -/
def raiseIf (cond : Bool) (e : ε) : Except ε Unit := if cond then .error e else .ok ()

@[simp] theorem raiseIf_eq_ok_iff {cond : Bool} {e : ε} :
    raiseIf cond e = .ok () ↔ cond = false := by
  cases cond <;> simp [raiseIf]

/-- The computation returns a value. -/
def Returns (x : Except ε α) : Prop := ∃ a, x = .ok a

@[simp] theorem returns_ok (a : α) : Returns (.ok a : Except ε α) := ⟨a, rfl⟩

@[simp] theorem not_returns_error (e : ε) : ¬ Returns (.error e : Except ε α) :=
  fun ⟨_, h⟩ => nomatch h

theorem returns_ok_imp_iff {a : α} {P : Prop} : (Returns (.ok a : Except ε α) → P) ↔ P :=
  ⟨fun h => h (returns_ok a), fun h _ => h⟩

/-- A sequence returns exactly when its first part does and the rest does from there. -/
theorem returns_bind_iff {β : Type} {x : Except ε α} {f : α → Except ε β} :
    Returns (x >>= f) ↔ ∃ a, x = .ok a ∧ Returns (f a) := by
  constructor
  · rintro ⟨b, hb⟩
    obtain ⟨a, ha, hf⟩ := bind_eq_ok_iff.mp hb
    exact ⟨a, ha, b, hf⟩
  · rintro ⟨a, ha, b, hb⟩
    exact ⟨b, bind_eq_ok_iff.mpr ⟨a, ha, hb⟩⟩

theorem returns_check_bind_iff {β : Type} {x : Except ε Unit} {f : Unit → Except ε β} :
    Returns (x >>= f) ↔ Returns x ∧ Returns (f ()) := by
  rw [returns_bind_iff]
  exact ⟨fun ⟨_, hx, hf⟩ => ⟨⟨_, hx⟩, hf⟩, fun ⟨⟨_, hx⟩, hf⟩ => ⟨_, hx, hf⟩⟩

/-- A step taken under a condition, before a result that does not depend on it. -/
theorem returns_ite_check_iff {c : Prop} [Decidable c] {x : Except ε Unit} {a : α} :
    Returns (if c then x >>= fun _ => .ok a else .ok a) ↔ (c → Returns x) := by
  by_cases hc : c
  · rw [if_pos hc, returns_check_bind_iff]
    exact ⟨fun h _ => h.1, fun h => ⟨h hc, returns_ok a⟩⟩
  · rw [if_neg hc]
    exact ⟨fun _ h => absurd h hc, fun _ => returns_ok a⟩

@[simp] theorem returns_raiseIf_iff {cond : Bool} {e : ε} : Returns (raiseIf cond e) ↔ cond = false := by
  cases cond <;> simp [raiseIf]

@[simp] theorem mapError_ok {ε' : Type} (f : ε → ε') (a : α) :
    (Except.ok a : Except ε α).mapError f = .ok a :=
  rfl

@[simp] theorem mapError_error {ε' : Type} (f : ε → ε') (e : ε) :
    (Except.error e : Except ε α).mapError f = .error (f e) :=
  rfl

/-- Errors of one type, as errors of another. -/
@[simp] theorem returns_mapError_iff {ε' : Type} {x : Except ε α} {f : ε → ε'} :
    Returns (x.mapError f) ↔ Returns x := by
  cases x <;> simp

@[simp] theorem mapError_eq_ok_iff {ε' : Type} {x : Except ε α} {f : ε → ε'} {a : α} :
    x.mapError f = .ok a ↔ x = .ok a := by
  cases x <;> simp

/-- A loop of checks over one element is its check. -/
theorem forM_singleton (check : α → Except ε Unit) (a : α) : [a].forM check = check a := by
  show (check a >>= fun _ => pure ()) = check a
  cases check a <;> rfl

/-- A loop of checks passes exactly when each of them does. -/
theorem forM_eq_ok_iff {check : α → Except ε Unit} {l : List α} :
    l.forM check = .ok () ↔ ∀ a ∈ l, check a = .ok () := by
  induction l with
  | nil => simp [pure, Except.pure]
  | cons a l ih =>
      have hcons : (a :: l).forM check = (check a >>= fun _ => l.forM check) := rfl
      rw [hcons, bind_eq_ok_iff]
      constructor
      · rintro ⟨_, ha, hl⟩ b hb
        cases hb with
        | head => exact ha
        | tail _ hb => exact ih.mp hl b hb
      · intro h
        exact ⟨(), h a List.mem_cons_self, ih.mpr fun b hb => h b (List.mem_cons_of_mem a hb)⟩

/-- A loop whose body, where it returns, computes `f` and keeps `I`. -/
theorem foldlM_ok (I : σ → Prop) {body : σ → α → Except ε σ} {f : σ → α → σ} {l : List α}
    (hbody : ∀ a ∈ l, ∀ s t, I s → body s a = .ok t → t = f s a ∧ I t) {s t : σ} (hs : I s)
    (h : l.foldlM body s = .ok t) : t = l.foldl f s ∧ I t := by
  induction l generalizing s with
  | nil =>
      have hst : s = t := Except.ok.inj h
      exact ⟨hst.symm, hst ▸ hs⟩
  | cons a l ih =>
      rw [List.foldlM_cons, bind_eq_ok_iff] at h
      obtain ⟨u, hu, ht⟩ := h
      obtain ⟨rfl, hI⟩ := hbody a List.mem_cons_self s u hs hu
      exact ih (fun b hb => hbody b (List.mem_cons_of_mem a hb)) hI ht

/-- A loop that returns keeps the invariant its body keeps. -/
theorem foldlM_keeps (I : σ → Prop) {body : σ → α → Except ε σ} {l : List α}
    (hbody : ∀ s a t, I s → body s a = .ok t → I t) {s t : σ} (hs : I s)
    (h : l.foldlM body s = .ok t) : I t := by
  induction l generalizing s with
  | nil => exact Except.ok.inj h ▸ hs
  | cons a l ih =>
      rw [List.foldlM_cons, bind_eq_ok_iff] at h
      obtain ⟨u, hu, ht⟩ := h
      exact ih (hbody s a u hs hu) ht

/-- A loop whose body returns from every state on every element returns. -/
theorem foldlM_total {body : σ → α → Except ε σ} {l : List α}
    (hbody : ∀ a ∈ l, ∀ s, ∃ t, body s a = .ok t) (s : σ) : ∃ t, l.foldlM body s = .ok t := by
  induction l generalizing s with
  | nil => exact ⟨s, rfl⟩
  | cons a l ih =>
      obtain ⟨u, hu⟩ := hbody a List.mem_cons_self s
      obtain ⟨t, ht⟩ := ih (fun b hb => hbody b (List.mem_cons_of_mem a hb)) u
      exact ⟨t, by rw [List.foldlM_cons, bind_eq_ok_iff]; exact ⟨u, hu, ht⟩⟩

/-- A conversion that fails on no element converts exactly the elements. -/
theorem mapM_of_isSome {β : Type} {f : α → Option β} {l : List α} (h : ∀ x ∈ l, (f x).isSome) :
    ∃ l', l.mapM f = some l' ∧ ∀ y, y ∈ l' ↔ ∃ x ∈ l, f x = some y := by
  induction l with
  | nil => exact ⟨[], rfl, by simp⟩
  | cons x l ih =>
      obtain ⟨l', hl', hmem⟩ := ih fun y hy => h y (List.mem_cons_of_mem x hy)
      obtain ⟨y, hy⟩ := Option.isSome_iff_exists.mp (h x List.mem_cons_self)
      refine ⟨y :: l', by simp [List.mapM_cons, hy, hl'], fun z => ?_⟩
      simp [hmem, hy, eq_comm]

/-- A conversion of mapped elements, where each element is converted as `g` says. -/
theorem mapM_map_of_comm {β γ δ : Type} {enc : α → γ} {f : γ → Option δ} {g : α → Option β}
    {dec : β → δ} {l : List α} (h : ∀ a ∈ l, f (enc a) = (g a).map dec) :
    (l.map enc).mapM f = (l.mapM g).map (List.map dec) := by
  induction l with
  | nil => rfl
  | cons a l ih =>
      have hl := ih fun b hb => h b (List.mem_cons_of_mem a hb)
      rw [List.map_cons, List.mapM_cons, List.mapM_cons, h a List.mem_cons_self, hl]
      cases g a <;> cases l.mapM g <;> rfl

theorem mapM_map_eq_some {β γ : Type} {enc : α → γ} {f : γ → Option β} {dec : α → β} {l : List α}
    (h : ∀ a ∈ l, f (enc a) = some (dec a)) : (l.map enc).mapM f = some (l.map dec) := by
  induction l with
  | nil => rfl
  | cons a l ih =>
      rw [List.map_cons, List.mapM_cons, h a List.mem_cons_self,
        ih fun b hb => h b (List.mem_cons_of_mem a hb)]
      rfl

/-- A conversion of a list succeeds exactly when it does on every element. -/
theorem mapM_isSome_iff {β : Type} {f : α → Option β} {l : List α} :
    (l.mapM f).isSome ↔ ∀ a ∈ l, (f a).isSome := by
  induction l with
  | nil => exact ⟨fun _ a ha => (nomatch ha), fun _ => rfl⟩
  | cons a l ih =>
      rw [List.forall_mem_cons, ← ih, List.mapM_cons]
      cases f a <;> cases l.mapM f <;> simp

end Loops
