import Mathlib.Data.List.DropRight

/-!
# Lib.Parsers

Parsers that read a value off the front of a text, some with a bound on their steps, and
that look ahead no further than the end of the line.

* `Local` — what such a parser reads it reads wherever the line goes on in the same way;
* `LocalAt` — the same of a parser with a bound, which may then be any that covers what is
  read;
* `Inline` — what such a parser reads has no line end;
* `pure`, `bind` and the parsers of characters keep all three.
-/

/-- A parser of values off the front of a text. -/
abbrev Parser (α : Type) := StateT (List Char) Option α

namespace Parser

variable {α β : Type}

/-- The texts agree to the end of their lines. -/
def Agree (t t' : List Char) : Prop := ∃ d r r', t = d ++ '\n' :: r ∧ t' = d ++ '\n' :: r'

theorem Agree.append {t t' : List Char} (h : Agree t t') (c : List Char) :
    Agree (c ++ t) (c ++ t') := by
  obtain ⟨d, r, r', rfl, rfl⟩ := h
  exact ⟨c ++ d, r, r', (List.append_assoc _ _ _).symm, (List.append_assoc _ _ _).symm⟩

theorem agree_newline (r r' : List Char) : Agree ('\n' :: r) ('\n' :: r') := ⟨[], r, r', rfl, rfl⟩

theorem Agree.head?_eq {t t' : List Char} (h : Agree t t') : t.head? = t'.head? := by
  obtain ⟨d, r, r', rfl, rfl⟩ := h
  cases d <;> rfl

/-- The rest of the line. -/
def restOfLine (t : List Char) : List Char := t.takeWhile (· ≠ '\n')

theorem restOfLine_append_newline (d r : List Char) :
    restOfLine (d ++ '\n' :: r) = restOfLine d := by
  induction d with
  | nil => rfl
  | cons c d ih =>
      rw [restOfLine, restOfLine, List.cons_append, List.takeWhile_cons, List.takeWhile_cons]
      split
      · exact congrArg (c :: ·) ih
      · rfl

theorem Agree.restOfLine_eq {t t' : List Char} (h : Agree t t') : restOfLine t = restOfLine t' := by
  obtain ⟨d, r, r', rfl, rfl⟩ := h
  rw [restOfLine_append_newline, restOfLine_append_newline]

/-! ## local parsers -/

/-- What the parser reads, at least `j` characters, it reads wherever the line goes on in the
same way. -/
def Local (j : Nat) (p : Parser α) : Prop :=
  ∀ s a t, p.run s = some (a, t) → ∃ c, s = c ++ t ∧ j ≤ c.length ∧
    ∀ t', Agree t t' → p.run (c ++ t') = some (a, t')

/-- What the parser reads with the bound `n` it reads with every bound that covers it but for
`k` steps. -/
def LocalAt (n k j : Nat) (p : Nat → Parser α) : Prop :=
  ∀ s a t, (p n).run s = some (a, t) → ∃ c, s = c ++ t ∧ j ≤ c.length ∧
    ∀ m t', c.length ≤ m + k → Agree t t' → (p m).run (c ++ t') = some (a, t')

theorem Local.localAt {n k j : Nat} {p : Parser α} (h : Local j p) : LocalAt n k j fun _ => p := by
  intro s a t hp
  obtain ⟨c, hs, hj, hread⟩ := h s a t hp
  exact ⟨c, hs, hj, fun _ t' _ => hread t'⟩

theorem Local.mono {i j : Nat} {p : Parser α} (h : Local j p) (hij : i ≤ j) : Local i p := by
  intro s a t hp
  obtain ⟨c, hs, hj, hread⟩ := h s a t hp
  exact ⟨c, hs, hij.trans hj, hread⟩

theorem LocalAt.mono {n k l i j : Nat} {p : Nat → Parser α} (h : LocalAt n k j p) (hl : l ≤ k)
    (hij : i ≤ j) : LocalAt n l i p := by
  intro s a t hp
  obtain ⟨c, hs, hj, hread⟩ := h s a t hp
  exact ⟨c, hs, hij.trans hj, fun m t' hm => hread m t' (by omega)⟩

theorem Local.pure (a : α) : Local 0 (pure a : Parser α) := by
  intro s b t hp
  obtain ⟨rfl, rfl⟩ := Prod.mk.inj (Option.some.inj hp)
  exact ⟨[], rfl, Nat.zero_le _, fun _ _ => rfl⟩

theorem Local.failure (j : Nat) : Local j (failure : Parser α) := by
  intro s a t hp
  cases hp

theorem run_bind_eq_some_iff {p : Parser α} {q : α → Parser β} {s t : List Char} {b : β} :
    (p >>= q).run s = some (b, t) ↔
      ∃ a u, p.run s = some (a, u) ∧ (q a).run u = some (b, t) := by
  rw [StateT.run_bind]
  show (p.run s).bind _ = _ ↔ _
  rw [Option.bind_eq_some_iff]
  exact ⟨fun ⟨⟨a, u⟩, hp, hq⟩ => ⟨a, u, hp, hq⟩, fun ⟨a, u, hp, hq⟩ => ⟨(a, u), hp, hq⟩⟩

theorem run_map_eq_some_iff {p : Parser α} {f : α → β} {s t : List Char} {b : β} :
    (f <$> p).run s = some (b, t) ↔ ∃ a, p.run s = some (a, t) ∧ f a = b := by
  rw [map_eq_pure_bind, run_bind_eq_some_iff]
  constructor
  · rintro ⟨a, u, hp, hf⟩
    obtain ⟨hb, rfl⟩ := Prod.mk.inj (Option.some.inj hf)
    exact ⟨a, hp, hb⟩
  · rintro ⟨a, hp, rfl⟩
    exact ⟨a, t, hp, rfl⟩

theorem run_map_of_eq_some {p : Parser α} (f : α → β) {s t : List Char} {a : α}
    (h : p.run s = some (a, t)) : (f <$> p).run s = some (f a, t) :=
  run_map_eq_some_iff.mpr ⟨a, h, rfl⟩

theorem Local.bind {i j : Nat} {p : Parser α} {q : α → Parser β} (hp : Local i p)
    (hq : ∀ a, Local j (q a)) : Local (i + j) (p >>= q) := by
  intro s b t h
  obtain ⟨a, u, ha, hb⟩ := run_bind_eq_some_iff.mp h
  obtain ⟨c, rfl, hi, hc⟩ := hp s a u ha
  obtain ⟨d, rfl, hj, hd⟩ := hq a u b t hb
  refine ⟨c ++ d, (List.append_assoc _ _ _).symm, by rw [List.length_append]; omega,
    fun t' ht => ?_⟩
  rw [List.append_assoc]
  exact run_bind_eq_some_iff.mpr ⟨a, d ++ t', hc _ (ht.append d), hd t' ht⟩

/-- In a sequence each part covers the steps of the other. -/
theorem LocalAt.bind {n k l i j : Nat} {p : Nat → Parser α} {q : Nat → α → Parser β}
    (hp : LocalAt n k i p) (hq : ∀ a, LocalAt n l j fun m => q m a) :
    LocalAt n (min (k + j) (l + i)) (i + j) fun m => p m >>= q m := by
  intro s b t h
  obtain ⟨a, u, ha, hb⟩ := run_bind_eq_some_iff.mp h
  obtain ⟨c, rfl, hi, hc⟩ := hp s a u ha
  obtain ⟨d, rfl, hj, hd⟩ := hq a u b t hb
  refine ⟨c ++ d, (List.append_assoc _ _ _).symm, by rw [List.length_append]; omega,
    fun m t' hm ht => ?_⟩
  rw [List.length_append] at hm
  rw [List.append_assoc]
  exact run_bind_eq_some_iff.mpr
    ⟨a, d ++ t', hc m _ (by omega) (ht.append d), hd m t' (by omega) ht⟩

/-- A look ahead, or what reads nothing more than blanks. -/
theorem Local.skip {j : Nat} {p : Parser α} {q : α → Parser β} (hp : Local 0 p)
    (hq : ∀ a, Local j (q a)) : Local j (p >>= q) :=
  (hp.bind hq).mono (by omega)

theorem Local.then {j : Nat} {p : Parser α} {q : α → Parser β} (hp : Local j p)
    (hq : ∀ a, Local 0 (q a)) : Local j (p >>= q) :=
  (hp.bind hq).mono (by omega)

theorem Local.ite {j : Nat} {p q : Parser α} {c : Prop} [Decidable c] (hp : Local j p)
    (hq : Local j q) : Local j (if c then p else q) := by
  split
  · exact hp
  · exact hq

theorem Local.map {j : Nat} {p : Parser α} (f : α → β) (hp : Local j p) : Local j (f <$> p) := by
  rw [map_eq_pure_bind]
  exact hp.then fun a => Local.pure (f a)

theorem LocalAt.skip {n k j : Nat} {p : Parser α} {q : Nat → α → Parser β} (hp : Local 0 p)
    (hq : ∀ a, LocalAt n k j fun m => q m a) : LocalAt n k j fun m => p >>= q m :=
  have hp' : LocalAt n (k + j) 0 fun _ => p := hp.localAt
  (hp'.bind hq).mono (by omega) (by omega)

/-- A character covers a step of what follows. -/
theorem LocalAt.step {n : Nat} {p : Parser α} {q : Nat → α → Parser β} (hp : Local 1 p)
    (hq : ∀ a, LocalAt n 0 0 fun m => q m a) : LocalAt n 1 1 fun m => p >>= q m :=
  have hp' : LocalAt n 1 1 fun _ => p := hp.localAt
  (hp'.bind hq).mono (by omega) (by omega)

theorem LocalAt.seq {n : Nat} {p : Nat → Parser α} {q : Nat → α → Parser β}
    (hp : LocalAt n 0 0 p) (hq : ∀ a, LocalAt n 0 0 fun m => q m a) :
    LocalAt n 0 0 fun m => p m >>= q m :=
  (hp.bind hq).mono (by omega) (by omega)

/-- Of two parts that both read something each covers a step of the other. -/
theorem LocalAt.cover {n : Nat} {p : Nat → Parser α} {q : Nat → α → Parser β}
    (hp : LocalAt n 0 1 p) (hq : ∀ a, LocalAt n 0 1 fun m => q m a) :
    LocalAt n 1 1 fun m => p m >>= q m :=
  (hp.bind hq).mono (by omega) (by omega)

theorem LocalAt.ite {n k j : Nat} {p q : Nat → Parser α} {c : Prop} [Decidable c]
    (hp : LocalAt n k j p) (hq : LocalAt n k j q) :
    LocalAt n k j fun m => if c then p m else q m := by
  by_cases hc : c
  · simpa only [if_pos hc] using hp
  · simpa only [if_neg hc] using hq

theorem LocalAt.map {n k j : Nat} {p : Nat → Parser α} (f : α → β) (hp : LocalAt n k j p) :
    LocalAt n k j fun m => f <$> p m := by
  have hpure : ∀ a, LocalAt n (k + j) 0 fun _ : Nat => (Pure.pure (f a) : Parser β) := fun a =>
    (Local.pure (f a)).localAt
  have hbind := (hp.bind hpure).mono (l := k) (i := j) (by omega) (by omega)
  simpa only [map_eq_pure_bind] using hbind

/-- A parser with a bound that takes a step on a character. -/
theorem LocalAt.succ {n j : Nat} {p : Nat → Parser α} {body : Nat → Parser α}
    (hsucc : ∀ n, p (n + 1) = body n) (hj : 1 ≤ j) (h : LocalAt n 1 j body) :
    LocalAt (n + 1) 0 j p := by
  intro s a t hp
  rw [hsucc] at hp
  obtain ⟨c, hs, hc, hread⟩ := h s a t hp
  refine ⟨c, hs, hc, fun m t' hm ht => ?_⟩
  cases m with
  | zero => omega
  | succ m =>
      rw [hsucc]
      exact hread m t' (by omega) ht

theorem LocalAt.zero {j : Nat} {p : Nat → Parser α} (hzero : p 0 = failure) : LocalAt 0 0 j p := by
  intro s a t hp
  rw [hzero] at hp
  cases hp

/-! ## characters -/

/-- The next character. -/
def peek : Parser (Option Char) := fun s => some (s.head?, s)

theorem local_peek : Local 0 peek := by
  intro s a t hp
  obtain ⟨rfl, rfl⟩ := Prod.mk.inj (Option.some.inj hp)
  refine ⟨[], rfl, Nat.zero_le _, fun t' ht => ?_⟩
  rw [List.nil_append, ht.head?_eq]
  rfl

/-- Whether the line goes on with a word. -/
def ahead (w : List Char) : Parser Bool := fun s => some (w.isPrefixOf (restOfLine s), s)

theorem local_ahead (w : List Char) : Local 0 (ahead w) := by
  intro s a t hp
  obtain ⟨rfl, rfl⟩ := Prod.mk.inj (Option.some.inj hp)
  refine ⟨[], rfl, Nat.zero_le _, fun t' ht => ?_⟩
  rw [List.nil_append, ht.restOfLine_eq]
  rfl

/-- The next character, if a test selects it. -/
def satisfy (p : Char → Bool) : Parser Char := fun s =>
  match s with
  | c :: r => if p c then some (c, r) else none
  | [] => none

theorem local_satisfy (p : Char → Bool) : Local 1 (satisfy p) := by
  intro s a t hp
  cases s with
  | nil => cases hp
  | cons c r =>
      have hif : (if p c then some (c, r) else none) = some (a, t) := hp
      by_cases hc : p c = true
      · rw [if_pos hc] at hif
        obtain ⟨rfl, rfl⟩ := Prod.mk.inj (Option.some.inj hif)
        refine ⟨[c], rfl, le_rfl, fun t' _ => ?_⟩
        show (if p c then some (c, t') else none) = _
        rw [if_pos hc]
      · rw [if_neg hc] at hif
        cases hif

/-- One character. -/
def char (c : Char) : Parser Char := satisfy (· = c)

theorem local_char (c : Char) : Local 1 (char c) := local_satisfy _

/-- The characters that a test selects, up to the first that it does not. -/
def span (p : Char → Bool) : Parser (List Char) := fun s => some (s.takeWhile p, s.dropWhile p)

theorem local_span (p : Char → Bool) : Local 0 (span p) := by
  intro s a t h
  obtain ⟨rfl, rfl⟩ := Prod.mk.inj (Option.some.inj h)
  refine ⟨s.takeWhile p, (List.takeWhile_append_dropWhile ..).symm, Nat.zero_le _,
    fun t' ht => ?_⟩
  have hhead : ∀ c, t'.head? = some c → p c = false := by
    intro c hc
    rw [← ht.head?_eq] at hc
    cases hrest : s.dropWhile p with
    | nil => rw [hrest] at hc; cases hc
    | cons d r =>
        rw [hrest] at hc
        obtain rfl := Option.some.inj hc
        have hd := List.head_dropWhile_not p (by rw [hrest]; exact List.cons_ne_nil _ _)
        simpa [hrest] using hd
  have hall : ∀ c ∈ s.takeWhile p, p c = true := fun c hc => List.mem_takeWhile_imp hc
  have htake : t'.takeWhile p = [] ∧ t'.dropWhile p = t' := by
    cases t' with
    | nil => exact ⟨rfl, rfl⟩
    | cons c r =>
        have hc := hhead c rfl
        exact ⟨List.takeWhile_cons_of_neg (by simp [hc]), List.dropWhile_cons_of_neg (by simp [hc])⟩
  show some ((s.takeWhile p ++ t').takeWhile p, (s.takeWhile p ++ t').dropWhile p) = _
  rw [List.takeWhile_append_of_pos hall, List.dropWhile_append_of_pos hall, htake.1, htake.2,
    List.append_nil]

/-- The front of the line, as long as a function of the line says. -/
def lexeme (f : List Char → Option Nat) : Parser (List Char) := fun s =>
  match f (restOfLine s) with
  | some n => if 0 < n ∧ n ≤ (restOfLine s).length then some (s.take n, s.drop n) else none
  | none => none

theorem length_restOfLine_le (s : List Char) : (restOfLine s).length ≤ s.length :=
  (List.takeWhile_prefix _).length_le

theorem run_lexeme_eq_some_iff {f : List Char → Option Nat} {s a t : List Char} :
    (lexeme f).run s = some (a, t) ↔ ∃ n, f (restOfLine s) = some n ∧
      (0 < n ∧ n ≤ (restOfLine s).length) ∧ a = s.take n ∧ t = s.drop n := by
  unfold lexeme
  rw [StateT.run]
  cases f (restOfLine s) with
  | none => simp
  | some n => simp [eq_comm]

theorem local_lexeme (f : List Char → Option Nat) : Local 1 (lexeme f) := by
  intro s a t h
  obtain ⟨n, hf, hn, rfl, rfl⟩ := run_lexeme_eq_some_iff.mp h
  have hlength : (s.take n).length = n :=
    List.length_take_of_le (hn.2.trans (length_restOfLine_le s))
  refine ⟨s.take n, (List.take_append_drop n s).symm, by omega, fun t' ht => ?_⟩
  have hline : restOfLine (s.take n ++ t') = restOfLine s := by
    rw [← (ht.append (s.take n)).restOfLine_eq, List.take_append_drop]
  refine run_lexeme_eq_some_iff.mpr ⟨n, by rw [hline, hf], by rwa [hline], ?_, ?_⟩
  · rw [List.take_left' hlength]
  · rw [List.drop_left' hlength]

/-! ## parsers of a line -/

theorem eq_cons_of_run_satisfy {p : Char → Bool} {s t : List Char} {d : Char}
    (h : (satisfy p).run s = some (d, t)) : s = d :: t ∧ p d = true := by
  cases s with
  | nil => cases h
  | cons c r =>
      have hif : (if p c then some (c, r) else none) = some (d, t) := h
      split_ifs at hif with hc
      obtain ⟨rfl, rfl⟩ := Prod.mk.inj (Option.some.inj hif)
      exact ⟨rfl, hc⟩

theorem eq_cons_of_run_char {c d : Char} {s t : List Char} (h : (char c).run s = some (d, t)) :
    s = c :: t := by
  obtain ⟨rfl, hd⟩ := eq_cons_of_run_satisfy h
  rw [of_decide_eq_true hd]

/-- What the parser reads has no line end. -/
def Inline (p : Parser α) : Prop :=
  ∀ s a t, p.run s = some (a, t) → ∃ c, s = c ++ t ∧ '\n' ∉ c

theorem Inline.pure (a : α) : Inline (pure a : Parser α) := by
  intro s b t h
  obtain ⟨-, rfl⟩ := Prod.mk.inj (Option.some.inj h)
  exact ⟨[], rfl, List.not_mem_nil⟩

theorem Inline.failure : Inline (failure : Parser α) := by
  intro s a t h
  cases h

theorem Inline.bind {p : Parser α} {q : α → Parser β} (hp : Inline p) (hq : ∀ a, Inline (q a)) :
    Inline (p >>= q) := by
  intro s b t h
  obtain ⟨a, u, ha, hb⟩ := run_bind_eq_some_iff.mp h
  obtain ⟨c, rfl, hc⟩ := hp s a u ha
  obtain ⟨d, rfl, hd⟩ := hq a u b t hb
  exact ⟨c ++ d, (List.append_assoc _ _ _).symm, fun hmem => (List.mem_append.mp hmem).elim hc hd⟩

theorem Inline.ite {p q : Parser α} {c : Prop} [Decidable c] (hp : Inline p) (hq : Inline q) :
    Inline (if c then p else q) := by
  split
  · exact hp
  · exact hq

theorem inline_peek : Inline peek := by
  intro s a t h
  obtain ⟨-, rfl⟩ := Prod.mk.inj (Option.some.inj h)
  exact ⟨[], rfl, List.not_mem_nil⟩

theorem inline_satisfy {p : Char → Bool} (hp : p '\n' = false) : Inline (satisfy p) := by
  intro s a t h
  obtain ⟨rfl, ha⟩ := eq_cons_of_run_satisfy h
  refine ⟨[a], rfl, fun hmem => ?_⟩
  rw [← List.mem_singleton.mp hmem, hp] at ha
  cases ha

theorem inline_char {c : Char} (hc : c ≠ '\n') : Inline (char c) :=
  inline_satisfy (decide_eq_false hc.symm)

theorem inline_span {p : Char → Bool} (hp : p '\n' = false) : Inline (span p) := by
  intro s a t h
  obtain ⟨rfl, rfl⟩ := Prod.mk.inj (Option.some.inj h)
  refine ⟨s.takeWhile p, (List.takeWhile_append_dropWhile ..).symm, fun hmem => ?_⟩
  have hnewline := List.mem_takeWhile_imp hmem
  rw [hp] at hnewline
  cases hnewline

end Parser
