import CoreLab.Lib.TomlStrings

/-!
# Lib.TomlArrays

An array of strings that runs over several lines, where no string does: what its lines begin
with, and that none of them but the first can be read as a statement.

* `InArray` — what is left of such an array at a blank, an item, a comma or the bracket;
* `exists_of_run_line_array` — a line that assigns an array comes to one;
* `InArray.after_newline`, `items_eq_none` — after each line end the array goes on, and no
  document begins there.
-/

namespace Toml

open Parser Lines

/-! ## parts of a line -/

section Inline

variable {q : Quoting} {e : Escape} {src out : List Char}

/-- A string on one line has no line end. -/
theorem Spells.not_newline (h : Spells q e src out) (hq : q.multiline = false)
    (he : ∀ newline, e ≠ .trim newline) : '\n' ∉ src := by
  induction h with
  | nil => simp
  | @cons e e' c rest src out read hstep _ ih =>
      have hc : c ≠ '\n' ∧ ∀ newline, e' ≠ .trim newline := by
        cases e with
        | none =>
            have hplain : plainStep q c rest = .next read e' := hstep
            unfold plainStep at hplain
            simp only [hq, Bool.not_false, Bool.true_or, if_true, Bool.false_and, Bool.and_true]
              at hplain
            split_ifs at hplain with hquote hescape hillegal
            · obtain ⟨-, rfl⟩ := StringStep.next.inj hplain
              refine ⟨?_, by simp⟩
              rintro rfl
              simp at hescape
            · obtain ⟨-, rfl⟩ := StringStep.next.inj hplain
              refine ⟨?_, by simp⟩
              rintro rfl
              exact hillegal (by decide)
        | start =>
            simp only [stringStep, hq, Bool.false_and, Bool.false_eq_true, if_false] at hstep
            split_ifs at hstep with hu hU
            · obtain ⟨-, rfl⟩ := StringStep.next.inj hstep
              exact ⟨by rw [hu]; decide, by simp⟩
            · obtain ⟨-, rfl⟩ := StringStep.next.inj hstep
              exact ⟨by rw [hU]; decide, by simp⟩
            · split at hstep
              · next d hd =>
                  obtain ⟨-, rfl⟩ := StringStep.next.inj hstep
                  refine ⟨?_, by simp⟩
                  rintro rfl
                  cases hd
              · cases hstep
        | hex left value =>
            simp only [stringStep] at hstep
            split at hstep
            · cases hstep
            · next d hd =>
                have hne : c ≠ '\n' := by
                  rintro rfl
                  cases hd
                split_ifs at hstep
                · obtain ⟨-, rfl⟩ := StringStep.next.inj hstep
                  exact ⟨hne, by simp⟩
                · obtain ⟨-, rfl⟩ := StringStep.next.inj hstep
                  exact ⟨hne, by simp⟩
        | trim newline => exact absurd rfl (he newline)
      rw [List.mem_cons]
      rintro (hmem | hmem)
      · exact hc.1 hmem.symm
      · exact ih hc.2 hmem

theorem inline_oneLineString (hq : q.multiline = false) (hquote : q.quote ≠ '\n') :
    Inline (oneLineString q) := by
  intro s out t h
  obtain ⟨src, rfl, hspells⟩ := exists_of_run_oneLineString h
  have hcloser : closer q = [q.quote] := by simp [closer, hq]
  refine ⟨q.quote :: (src ++ [q.quote]), by simp [hcloser], ?_⟩
  simp [hquote.symm, hspells.not_newline hq (by simp)]

theorem inline_ws : Inline (span isWs) := inline_span rfl

theorem inline_keyPart : Inline keyPart :=
  inline_peek.bind fun _ => (inline_oneLineString rfl (by decide)).ite <|
    (inline_oneLineString rfl (by decide)).ite <|
      (inline_satisfy rfl).bind fun _ => (inline_span rfl).bind fun _ => Inline.pure _

theorem inline_key (n : Nat) : Inline (key n) := by
  induction n with
  | zero => exact Inline.failure
  | succ n ih =>
      exact inline_keyPart.bind fun _ => inline_ws.bind fun _ => inline_peek.bind fun _ =>
        ((inline_char (by decide)).bind fun _ => inline_ws.bind fun _ => ih.bind fun _ =>
          Inline.pure _).ite (Inline.pure _)

theorem inline_comment : Inline comment :=
  inline_peek.bind fun _ => ((inline_span rfl).bind fun _ =>
    (Inline.pure ()).ite Inline.failure).ite (Inline.pure ())

end Inline

/-! ## inside of an array -/

/-- The kinds of strings on one line. -/
def IsOneLine (q : Quoting) : Prop := q = basic false ∨ q = literal false

/-- What is left of an array of strings on one line, up to the bracket and the text `r` after it. -/
inductive InArray (r : List Char) : List Char → Prop
  | close : InArray r (']' :: r)
  | comma {s : List Char} (h : InArray r s) : InArray r (',' :: s)
  | blank {c : Char} {s : List Char} (hc : isWs c = true ∨ c = '\n') (h : InArray r s) :
      InArray r (c :: s)
  | comment {body s : List Char} (hbody : '\n' ∉ body) (h : InArray r s) :
      InArray r ('#' :: (body ++ '\n' :: s))
  | string {q : Quoting} {s t u : List Char} (hq : IsOneLine q)
      (hrun : (oneLineString q).run s = some (u, t)) (h : InArray r t) : InArray r s

/-- What an array goes on with after blanks. -/
def marks : List Char := [']', ',', '#', '\n', '"', '\'']

section InArray

variable {r s t : List Char}

theorem IsOneLine.inline {q : Quoting} (hq : IsOneLine q) : Inline (oneLineString q) := by
  rcases hq with rfl | rfl
  · exact inline_oneLineString rfl (by decide)
  · exact inline_oneLineString rfl (by decide)

theorem InArray.exists_mark (h : InArray r s) :
    ∃ ws c s', s = ws ++ c :: s' ∧ (∀ d ∈ ws, isWs d = true) ∧ c ∈ marks := by
  induction h with
  | close => exact ⟨[], ']', r, rfl, by simp, by decide⟩
  | @comma s _ _ => exact ⟨[], ',', s, rfl, by simp, by decide⟩
  | @blank c s hc _ ih =>
      rcases hc with hc | rfl
      · obtain ⟨ws, d, s', rfl, hws, hd⟩ := ih
        exact ⟨c :: ws, d, s', rfl, List.forall_mem_cons.mpr ⟨hc, hws⟩, hd⟩
      · exact ⟨[], '\n', s, rfl, by simp, by decide⟩
  | @comment body s _ _ _ => exact ⟨[], '#', _, rfl, by simp, by decide⟩
  | string hq hrun _ _ =>
      obtain ⟨src, rfl, -⟩ := exists_of_run_oneLineString hrun
      refine ⟨[], _, _, rfl, by simp, ?_⟩
      rcases hq with rfl | rfl <;> decide

theorem InArray.ne_nil (h : InArray r s) : s ≠ [] := by
  obtain ⟨ws, c, s', rfl, -⟩ := h.exists_mark
  simp

/-- The text after the bracket is the end. -/
theorem InArray.exists_append (h : InArray r s) : ∃ src, s = src ++ ']' :: r := by
  induction h with
  | close => exact ⟨[], rfl⟩
  | @comma s _ ih =>
      obtain ⟨src, rfl⟩ := ih
      exact ⟨',' :: src, rfl⟩
  | @blank c s _ _ ih =>
      obtain ⟨src, rfl⟩ := ih
      exact ⟨c :: src, rfl⟩
  | @comment body s _ _ ih =>
      obtain ⟨src, rfl⟩ := ih
      exact ⟨'#' :: (body ++ '\n' :: src), by simp⟩
  | string hq hrun _ ih =>
      obtain ⟨src, rfl⟩ := ih
      obtain ⟨src', rfl, -⟩ := hq.inline _ _ _ hrun
      exact ⟨src' ++ src, (List.append_assoc _ _ _).symm⟩

/-- A text without line ends is passed before the first line end. -/
theorem eq_append_of_append_newline {a b c t : List Char} (h : c ++ t = a ++ '\n' :: b)
    (hc : '\n' ∉ c) : ∃ a', a = c ++ a' ∧ t = a' ++ '\n' :: b := by
  rcases List.append_eq_append_iff.mp h with ⟨a', rfl, ht⟩ | ⟨c', rfl, hb⟩
  · exact ⟨a', rfl, ht⟩
  · cases c' with
    | nil => exact ⟨[], by simp, by simpa using hb.symm⟩
    | cons d c' =>
        obtain ⟨rfl, -⟩ := List.cons.inj hb
        simp at hc

/-- **After a line end** the array goes on. -/
theorem InArray.after_newline (h : InArray r s) {a b : List Char} (hs : s = a ++ '\n' :: b)
    (hb : r.length ≤ b.length) : InArray r b := by
  induction h generalizing a with
  | close =>
      have hlength := congrArg List.length hs
      simp only [List.length_cons, List.length_append] at hlength
      have ha : a = [] := List.eq_nil_of_length_eq_zero (by omega)
      rw [ha] at hs
      cases (List.cons.inj hs).1
  | comma h ih =>
      obtain ⟨a', rfl, ht⟩ := eq_append_of_append_newline (c := [',']) hs (by decide)
      exact ih ht
  | @blank c s hc h ih =>
      by_cases hnewline : c = '\n'
      · subst hnewline
        cases a with
        | nil => exact (List.cons.inj hs).2 ▸ h
        | cons d a => exact ih (List.cons.inj hs).2
      · obtain ⟨a', rfl, ht⟩ := eq_append_of_append_newline (c := [c]) hs
          (by simpa using Ne.symm hnewline)
        exact ih ht
  | @comment body s hbody h ih =>
      have hnone : '\n' ∉ '#' :: body := by simp [hbody]
      obtain ⟨a', rfl, ht⟩ := eq_append_of_append_newline (c := '#' :: body) hs hnone
      cases a' with
      | nil => exact (List.cons.inj ht).2 ▸ h
      | cons d a' => exact ih (List.cons.inj ht).2
  | string hq hrun h ih =>
      obtain ⟨c, rfl, hc⟩ := hq.inline _ _ _ hrun
      obtain ⟨a', rfl, ht⟩ := eq_append_of_append_newline hs hc
      exact ih ht

/-! ### no document -/

theorem items_eq_none {n : Nat} (hs : s ≠ [])
    (h : ∀ m st rest, (line (m + 1)).run s = some (st, '\n' :: rest) → items m rest = none) :
    items n s = none := by
  cases hitems : items n s with
  | none => rfl
  | some l =>
      obtain ⟨m, st, rest, src, l', -, hline, hrest, -⟩ := exists_of_items hs hitems
      rw [h m st rest hline] at hrest
      cases hrest

theorem exists_of_run_line_ws {n : Nat} {ws : List Char} {st : Option Statement}
    (hws : ∀ d ∈ ws, isWs d = true) {c : Char} (hc : isWs c = false)
    (h : (line n).run (ws ++ c :: s) = some (st, t)) :
    ∃ u, (statement n).run (c :: s) = some (st, u) ∧
      comment.run (u.dropWhile isWs) = some ((), t) := by
  obtain ⟨_, s₁, h₁, g₁⟩ := run_bind_eq_some_iff.mp h
  obtain ⟨st', s₂, h₂, g₂⟩ := run_bind_eq_some_iff.mp g₁
  obtain ⟨_, s₃, h₃, g₃⟩ := run_bind_eq_some_iff.mp g₂
  obtain ⟨_, s₄, h₄, g₄⟩ := run_bind_eq_some_iff.mp g₃
  obtain ⟨rfl, rfl⟩ := Prod.mk.inj (Option.some.inj g₄)
  obtain ⟨-, hs₁⟩ := Prod.mk.inj (Option.some.inj h₁)
  obtain ⟨-, rfl⟩ := Prod.mk.inj (Option.some.inj h₃)
  rw [List.dropWhile_append_of_pos hws, List.dropWhile_cons_of_neg (by simp [hc])] at hs₁
  exact ⟨s₂, hs₁ ▸ h₂, h₄⟩

theorem run_statement_blank (n : Nat) {c : Char} (hc : c = '\n' ∨ c = '#') :
    (statement n).run (c :: s) = some (none, c :: s) := by
  have hpeek : peek.run (c :: s) = some (some c, c :: s) := rfl
  rw [statement, run_bind_of_eq_some hpeek, if_pos (by simpa using hc)]
  rfl

theorem run_ahead_ite {α : Type} {w : List Char} {x y : Parser α} {out : α × List Char}
    (h : (ahead w >>= fun b => if b = true then x else y).run s = some out) :
    x.run s = some out ∨ y.run s = some out := by
  rw [run_ahead_bind rfl] at h
  split at h
  · exact Or.inl h
  · exact Or.inr h

theorem ne_nil_of_run_key {n : Nat} {k : List Key} (h : (key n).run s = some (k, t)) : k ≠ [] := by
  cases n with
  | zero => cases h
  | succ n =>
      obtain ⟨part, s₁, -, h₁⟩ := run_bind_eq_some_iff.mp h
      obtain ⟨_, s₂, -, h₂⟩ := run_bind_eq_some_iff.mp h₁
      obtain ⟨_, s₃, -, h₃⟩ := run_bind_eq_some_iff.mp h₂
      split_ifs at h₃
      · obtain ⟨_, s₄, -, h₄⟩ := run_bind_eq_some_iff.mp h₃
        obtain ⟨_, s₅, -, h₅⟩ := run_bind_eq_some_iff.mp h₄
        obtain ⟨parts, s₆, -, h₆⟩ := run_bind_eq_some_iff.mp h₅
        obtain ⟨rfl, -⟩ := Prod.mk.inj (Option.some.inj h₆)
        exact List.cons_ne_nil _ _
      · obtain ⟨rfl, -⟩ := Prod.mk.inj (Option.some.inj h₃)
        exact List.cons_ne_nil _ _

/-- A line has no statement or opens a table, or it assigns a value. -/
theorem run_statement_cases {n : Nat} {st : Option Statement}
    (h : (statement n).run s = some (st, t)) :
    (∃ c s', s = c :: s' ∧ (c = '\n' ∨ c = '#' ∨ c = '[') ∧
      ∀ st' ∈ st, ∃ k, k ≠ [] ∧ (st' = .table k ∨ st' = .arrayTable k)) ∨
      ∃ k v u w u', st = some (.keyValue k v) ∧ (key n).run s = some (k, '=' :: u) ∧
        (span isWs).run u = some (w, u') ∧ (value n).run u' = some (v, t) := by
  obtain ⟨next, _, hpeek, h₁⟩ := run_bind_eq_some_iff.mp h
  obtain ⟨rfl, rfl⟩ := Prod.mk.inj (Option.some.inj hpeek)
  split_ifs at h₁ with hblank
  · obtain ⟨rfl, rfl⟩ := Prod.mk.inj (Option.some.inj h₁)
    rcases hblank with hblank | hblank
    · exact Or.inl ⟨_, _, List.eq_cons_of_mem_head? hblank, Or.inl rfl, by simp⟩
    · exact Or.inl ⟨_, _, List.eq_cons_of_mem_head? hblank, Or.inr (Or.inl rfl), by simp⟩
  · rcases run_ahead_ite h₁ with h₁ | h₁
    · obtain ⟨_, _, hchar, h₁⟩ := run_bind_eq_some_iff.mp h₁
      obtain ⟨_, _, -, h₁⟩ := run_bind_eq_some_iff.mp h₁
      obtain ⟨_, _, -, h₁⟩ := run_bind_eq_some_iff.mp h₁
      obtain ⟨k, _, hkey, h₁⟩ := run_bind_eq_some_iff.mp h₁
      obtain ⟨_, _, -, h₁⟩ := run_bind_eq_some_iff.mp h₁
      obtain ⟨_, _, -, h₁⟩ := run_bind_eq_some_iff.mp h₁
      obtain ⟨rfl, -⟩ := Prod.mk.inj (Option.some.inj h₁)
      exact Or.inl ⟨_, _, eq_cons_of_run_char hchar, Or.inr (Or.inr rfl),
        fun st' hst' => ⟨k, ne_nil_of_run_key hkey, Or.inr (Option.some.inj hst').symm⟩⟩
    rcases run_ahead_ite h₁ with h₁ | h₁
    · obtain ⟨_, _, hchar, h₁⟩ := run_bind_eq_some_iff.mp h₁
      obtain ⟨_, _, -, h₁⟩ := run_bind_eq_some_iff.mp h₁
      obtain ⟨k, _, hkey, h₁⟩ := run_bind_eq_some_iff.mp h₁
      obtain ⟨_, _, -, h₁⟩ := run_bind_eq_some_iff.mp h₁
      obtain ⟨rfl, -⟩ := Prod.mk.inj (Option.some.inj h₁)
      exact Or.inl ⟨_, _, eq_cons_of_run_char hchar, Or.inr (Or.inr rfl),
        fun st' hst' => ⟨k, ne_nil_of_run_key hkey, Or.inl (Option.some.inj hst').symm⟩⟩
    · obtain ⟨k, _, hkey, h₁⟩ := run_bind_eq_some_iff.mp h₁
      obtain ⟨_, u, hchar, h₁⟩ := run_bind_eq_some_iff.mp h₁
      obtain ⟨w, u', hblanks, h₁⟩ := run_bind_eq_some_iff.mp h₁
      obtain ⟨v, _, hvalue, h₁⟩ := run_bind_eq_some_iff.mp h₁
      obtain ⟨rfl, rfl⟩ := Prod.mk.inj (Option.some.inj h₁)
      exact Or.inr ⟨k, v, u, w, u', rfl, eq_cons_of_run_char hchar ▸ hkey, hblanks, hvalue⟩

/-- A statement that begins with neither a bracket nor the end of the line assigns. -/
theorem exists_of_run_statement {n : Nat} {c : Char} {st : Option Statement}
    (hc : c ≠ '\n' ∧ c ≠ '#' ∧ c ≠ '[') (h : (statement n).run (c :: s) = some (st, t)) :
    ∃ k u, (key n).run (c :: s) = some (k, '=' :: u) := by
  rcases run_statement_cases h with ⟨d, s', hs, hd, -⟩ | ⟨k, v, u, w, u', -, hkey, -⟩
  · obtain ⟨rfl, -⟩ := List.cons.inj hs
    simp [hc] at hd
  · exact ⟨k, u, hkey⟩

/-- The name that a statement is about is not empty. -/
theorem Reads.subject_ne_nil {x : Item} (h : Reads x) {st : Statement} (hst : x.1 = some st) :
    subject [] st ≠ [] := by
  have hline := h x.2.length [] le_rfl
  rw [hst] at hline
  obtain ⟨_, s₁, -, h₁⟩ := run_bind_eq_some_iff.mp hline
  obtain ⟨st', s₂, h₂, g₂⟩ := run_bind_eq_some_iff.mp h₁
  obtain ⟨_, s₃, -, g₃⟩ := run_bind_eq_some_iff.mp g₂
  obtain ⟨_, s₄, -, g₄⟩ := run_bind_eq_some_iff.mp g₃
  obtain ⟨rfl, -⟩ := Prod.mk.inj (Option.some.inj g₄)
  rcases run_statement_cases h₂ with ⟨_, _, -, -, htable⟩ | ⟨k, v, _, _, _, hassign, hkey, -⟩
  · obtain ⟨k, hk, rfl | rfl⟩ := htable st rfl
    · exact hk
    · exact hk
  · obtain rfl := Option.some.inj hassign
    exact ne_nil_of_run_key hkey

/-- A comment is read to the end of its line. -/
theorem eq_of_run_comment {body : List Char} (hbody : '\n' ∉ body)
    (h : comment.run (List.dropWhile isWs ('#' :: (body ++ '\n' :: s))) = some ((), t)) :
    t = '\n' :: s := by
  have hpeek : peek.run ('#' :: (body ++ '\n' :: s)) =
      some (some '#', '#' :: (body ++ '\n' :: s)) := rfl
  have hdrop : ('#' :: (body ++ '\n' :: s)).dropWhile (· ≠ '\n') = '\n' :: s := by
    have hall : ∀ c ∈ '#' :: body, decide (c ≠ '\n') = true := by
      intro c hc
      rw [decide_eq_true_iff]
      rintro rfl
      simp [hbody] at hc
    rw [← List.cons_append, List.dropWhile_append_of_pos hall,
      List.dropWhile_cons_of_neg (by simp)]
  rw [List.dropWhile_cons_of_neg (by decide), comment, run_bind_of_eq_some hpeek, if_pos rfl] at h
  obtain ⟨b, s₁, hspan, hcheck⟩ := run_bind_eq_some_iff.mp h
  obtain ⟨-, rfl⟩ := Prod.mk.inj (Option.some.inj hspan)
  rw [hdrop] at hcheck
  unfold check at hcheck
  split at hcheck
  · exact (Prod.mk.inj (Option.some.inj hcheck)).2.symm
  · cases hcheck

theorem run_keyPart_string {q : Quoting} {u : List Char} (hq : IsOneLine q)
    (h : (oneLineString q).run s = some (u, t)) : keyPart.run s = some (u, t) := by
  obtain ⟨src, rfl, -⟩ := exists_of_run_oneLineString h
  have hpeek : ∀ r, peek.run (q.quote :: r) = some (some q.quote, q.quote :: r) := fun _ => rfl
  rw [keyPart, run_bind_of_eq_some (hpeek _)]
  rcases hq with rfl | rfl
  · rw [if_neg (by decide), if_pos (by decide)]
    exact h
  · rw [if_pos (by decide)]
    exact h

theorem not_run_keyPart {c : Char} (hc : c = ']' ∨ c = ',') (s : List Char) :
    keyPart.run (c :: s) = none := by
  rcases hc with rfl | rfl <;> rfl

theorem InArray.dropWhile_ws (h : InArray r s) :
    ∃ c s', s.dropWhile isWs = c :: s' ∧ c ∈ marks := by
  obtain ⟨ws, c, s', rfl, hws, hc⟩ := h.exists_mark
  have hnot := List.all_eq_true.mp (by decide : marks.all (!isWs ·) = true) c hc
  exact ⟨c, s', by rw [List.dropWhile_append_of_pos hws,
    List.dropWhile_cons_of_neg (by simpa using hnot)], hc⟩

/-- No key is read inside of an array. -/
theorem not_key_of_inArray {n : Nat} {k : List Key} {q : Quoting} {u x : List Char}
    (hq : IsOneLine q) (hrun : (oneLineString q).run s = some (u, t)) (h : InArray r t) :
    (key n).run s ≠ some (k, '=' :: x) := by
  intro hkey
  cases n with
  | zero => cases hkey
  | succ n =>
      rw [key, run_bind_of_eq_some (run_keyPart_string hq hrun)] at hkey
      obtain ⟨_, s₁, h₁, g₁⟩ := run_bind_eq_some_iff.mp hkey
      obtain ⟨-, rfl⟩ := Prod.mk.inj (Option.some.inj h₁)
      obtain ⟨c, s', hdrop, hc⟩ := h.dropWhile_ws
      have hmark : c ≠ '.' ∧ c ≠ '=' := by
        simpa using List.all_eq_true.mp
          (by decide : marks.all (fun c => c ≠ '.' && c ≠ '=') = true) c hc
      rw [hdrop] at g₁
      have hpeek : peek.run (c :: s') = some (some c, c :: s') := rfl
      rw [run_bind_of_eq_some hpeek, if_neg (by simp [hmark.1])] at g₁
      obtain ⟨-, hrest⟩ := Prod.mk.inj (Option.some.inj g₁)
      exact hmark.2 (List.cons.inj hrest).1

theorem not_key_of_mark {n : Nat} {k : List Key} {c : Char} {x : List Char}
    (hc : c = ']' ∨ c = ',') : (key n).run (c :: s) ≠ some (k, x) := by
  intro hkey
  cases n with
  | zero => cases hkey
  | succ n =>
      obtain ⟨_, _, hpart, -⟩ := run_bind_eq_some_iff.mp hkey
      rw [not_run_keyPart hc] at hpart
      cases hpart

/-- **No document** begins inside of an array. -/
theorem InArray.items_eq_none (h : InArray r s) (ws : List Char) (hws : ∀ d ∈ ws, isWs d = true)
    (n : Nat) : items n (ws ++ s) = none := by
  have hmark : ∀ {c : Char} {s ws : List Char}, (∀ d ∈ ws, isWs d = true) → c = ']' ∨ c = ',' →
      ∀ n, items n (ws ++ c :: s) = none := by
    intro c s ws hws hc n
    have hnot : isWs c = false := by rcases hc with rfl | rfl <;> rfl
    refine Toml.items_eq_none (by simp) fun m st rest hline => ?_
    obtain ⟨u, hst, -⟩ := exists_of_run_line_ws hws hnot hline
    obtain ⟨k, x, hkey⟩ := exists_of_run_statement (by rcases hc with rfl | rfl <;> decide) hst
    exact absurd hkey (not_key_of_mark hc)
  induction h generalizing ws n with
  | close => exact hmark hws (Or.inl rfl) n
  | comma h ih => exact hmark hws (Or.inr rfl) n
  | @blank c s hc h ih =>
      rcases hc with hc | rfl
      · have hcons := ih (ws ++ [c])
          (List.forall_mem_append.mpr ⟨hws, by simpa using hc⟩) n
        rwa [List.append_assoc] at hcons
      · refine Toml.items_eq_none (by simp) fun m st rest hline => ?_
        obtain ⟨u, hst, hcomment⟩ := exists_of_run_line_ws hws rfl hline
        rw [run_statement_blank (m + 1) (Or.inl rfl)] at hst
        obtain ⟨-, rfl⟩ := Prod.mk.inj (Option.some.inj hst)
        obtain ⟨-, hrest⟩ := Prod.mk.inj (Option.some.inj hcomment)
        obtain rfl := (List.cons.inj hrest).2
        exact ih [] (by simp) m
  | @comment body s hbody h ih =>
      refine Toml.items_eq_none (by simp) fun m st rest hline => ?_
      obtain ⟨u, hst, hcomment⟩ := exists_of_run_line_ws hws rfl hline
      rw [run_statement_blank (m + 1) (Or.inr rfl)] at hst
      obtain ⟨-, rfl⟩ := Prod.mk.inj (Option.some.inj hst)
      have hrest := eq_of_run_comment hbody hcomment
      obtain rfl := (List.cons.inj hrest).2
      exact ih [] (by simp) m
  | @string q s t u hq hrun h ih =>
      obtain ⟨src, rfl, -⟩ := exists_of_run_oneLineString hrun
      have hquote : isWs q.quote = false ∧ (q.quote ≠ '\n' ∧ q.quote ≠ '#' ∧ q.quote ≠ '[') := by
        rcases hq with rfl | rfl <;> decide
      refine Toml.items_eq_none (by simp) fun m st rest hline => ?_
      obtain ⟨v, hst, -⟩ := exists_of_run_line_ws hws hquote.1 hline
      obtain ⟨k, x, hkey⟩ := exists_of_run_statement hquote.2 hst
      exact absurd hkey (not_key_of_inArray hq hrun h)

/-! ### what is read of an array -/

theorem inArray_of_run_arrayBlanks {inComment : Bool}
    (h : (arrayBlanks inComment).run s = some ((), t)) (ht : InArray r t) :
    (inComment = false → InArray r s) ∧
      (inComment = true → ∀ body, '\n' ∉ body → InArray r ('#' :: (body ++ s))) := by
  induction s generalizing inComment with
  | nil =>
      have hnil : t = [] := by cases inComment <;> exact (Prod.mk.inj (Option.some.inj h)).2.symm
      exact absurd hnil ht.ne_nil
  | cons c s ih =>
      have hrun : (arrayBlanks inComment).run (c :: s) = arrayBlanks inComment (c :: s) := rfl
      rw [hrun, arrayBlanks] at h
      cases inComment with
      | false =>
          refine ⟨fun _ => ?_, by simp⟩
          cases hstep : blankStep c false with
          | fail => rw [hstep] at h; cases h
          | stop =>
              rw [hstep] at h
              exact (Prod.mk.inj (Option.some.inj h)).2 ▸ ht
          | next inComment' =>
              rw [hstep] at h
              unfold blankStep at hstep
              simp only at hstep
              split_ifs at hstep with hblank hcomment
              · obtain rfl := BlankStep.next.inj hstep
                exact .blank (by simpa using hblank) ((ih h).1 rfl)
              · obtain rfl := BlankStep.next.inj hstep
                exact hcomment ▸ (ih h).2 rfl [] (by simp)
      | true =>
          refine ⟨by simp, fun _ body hbody => ?_⟩
          cases hstep : blankStep c true with
          | fail => rw [hstep] at h; cases h
          | stop =>
              unfold blankStep at hstep
              simp only at hstep
              split_ifs at hstep
          | next inComment' =>
              rw [hstep] at h
              unfold blankStep at hstep
              simp only at hstep
              split_ifs at hstep with hnewline hillegal
              · obtain rfl := BlankStep.next.inj hstep
                exact hnewline ▸ .comment hbody ((ih h).1 rfl)
              · obtain rfl := BlankStep.next.inj hstep
                have hcons := (ih h).2 rfl (body ++ [c]) (by simp [hbody, Ne.symm hnewline])
                rwa [List.append_assoc] at hcons

/-- Three quotes, as around a string that may have line ends. -/
def tripled : List Char → Bool
  | [] => false
  | c :: s => ((c = '"' || c = '\'') && [c, c].isPrefixOf s) || tripled s

theorem tripled_of_append {a b : List Char} (h : tripled (a ++ b) = false) : tripled b = false := by
  induction a with
  | nil => exact h
  | cons c a ih =>
      rw [List.cons_append, tripled, Bool.or_eq_false_iff] at h
      exact ih h.2

/-- The value of a string or an array. -/
theorem run_value_cases {n : Nat} {v : Value} (h : (value n).run s = some (v, t)) :
    (∃ u q, v = .string u ∧ IsOneLine q ∧ (oneLineString q).run s = some (u, t)) ∨
      (∃ u q, v = .string u ∧ (q = basic true ∨ q = literal true) ∧
        (multilineString q).run s = some (u, t)) ∨
      (∃ m vs s₁ s₂, v = .array vs ∧ s = '[' :: s₁ ∧ (arrayBlanks false).run s₁ = some ((), s₂) ∧
        (arrayItems m).run s₂ = some (vs, t)) ∨
      (∀ u, v ≠ .string u) ∧ ∀ vs, v ≠ .array vs := by
  cases n with
  | zero => cases h
  | succ m =>
      rw [value] at h
      rcases run_ahead_ite h with h | h
      · obtain ⟨u, hrun, rfl⟩ := run_map_eq_some_iff.mp h
        exact Or.inr (Or.inl ⟨u, _, rfl, Or.inl rfl, hrun⟩)
      rcases run_ahead_ite h with h | h
      · obtain ⟨u, hrun, rfl⟩ := run_map_eq_some_iff.mp h
        exact Or.inl ⟨u, _, rfl, Or.inl rfl, hrun⟩
      rcases run_ahead_ite h with h | h
      · obtain ⟨u, hrun, rfl⟩ := run_map_eq_some_iff.mp h
        exact Or.inr (Or.inl ⟨u, _, rfl, Or.inr rfl, hrun⟩)
      rcases run_ahead_ite h with h | h
      · obtain ⟨u, hrun, rfl⟩ := run_map_eq_some_iff.mp h
        exact Or.inl ⟨u, _, rfl, Or.inr rfl, hrun⟩
      refine Or.inr (Or.inr ?_)
      rcases run_ahead_ite h with h | h
      · obtain ⟨_, -, rfl⟩ := run_map_eq_some_iff.mp h
        exact Or.inr ⟨by simp, by simp⟩
      rcases run_ahead_ite h with h | h
      · obtain ⟨_, -, rfl⟩ := run_map_eq_some_iff.mp h
        exact Or.inr ⟨by simp, by simp⟩
      rcases run_ahead_ite h with h | h
      · obtain ⟨_, s₁, hchar, h₁⟩ := run_bind_eq_some_iff.mp h
        obtain ⟨_, s₂, hblanks, h₂⟩ := run_bind_eq_some_iff.mp h₁
        obtain ⟨vs, hitems, rfl⟩ := run_map_eq_some_iff.mp h₂
        exact Or.inl ⟨m, vs, s₁, s₂, rfl, eq_cons_of_run_char hchar, hblanks, hitems⟩
      refine Or.inr ?_
      rcases run_ahead_ite h with h | h
      · obtain ⟨_, s₁, -, h₁⟩ := run_bind_eq_some_iff.mp h
        obtain ⟨_, s₂, -, h₂⟩ := run_bind_eq_some_iff.mp h₁
        rcases run_ahead_ite h₂ with h | h
        · obtain ⟨_, -, rfl⟩ := run_map_eq_some_iff.mp h
          exact ⟨by simp, by simp⟩
        · obtain ⟨pairs, s₃, -, h₃⟩ := run_bind_eq_some_iff.mp h
          unfold tableOf at h₃
          split at h₃
          · obtain ⟨rfl, -⟩ := Prod.mk.inj (Option.some.inj h₃)
            exact ⟨by simp, by simp⟩
          · cases h₃
      · obtain ⟨text, s₁, -, h₁⟩ := run_bind_eq_some_iff.mp h
        obtain ⟨rfl, -⟩ := Prod.mk.inj (Option.some.inj h₁)
        exact ⟨by simp, by simp⟩

/-- An array of strings on one line. -/
theorem inArray_of_run_arrayItems {n : Nat} {us : List (List Char)}
    (h : (arrayItems n).run s = some (us.map Value.string, t))
    (hs : ∀ src, s = src ++ t → tripled src = false) : InArray t s := by
  induction n generalizing s us with
  | zero => cases h
  | succ n ih =>
      rcases run_arrayItems_cases h with ⟨rfl, -⟩ | ⟨m, v, s₂, s₃, hn, hvalue, hblanks, hrest⟩
      · exact .close
      · obtain rfl := Nat.succ.inj hn
        obtain ⟨c₁, hs₁, -⟩ := (localAt_value n).1 _ _ _ hvalue
        obtain ⟨c₂, hs₂, -⟩ := local_arrayBlanks false _ _ _ hblanks
        have hrest' : InArray t s₃ ∧ ∃ u, v = .string u := by
          rcases hrest with ⟨rfl, hvs⟩ | ⟨s₄, s₅, vs, rfl, hblanks', hitems, hvs⟩
          · cases us with
            | nil => cases hvs
            | cons u us => exact ⟨.close, u, (List.cons.inj hvs).1.symm⟩
          · cases us with
            | nil => cases hvs
            | cons u us =>
                obtain ⟨hu, hus⟩ := List.cons.inj hvs
                obtain ⟨c₃, hs₄, -⟩ := local_arrayBlanks false _ _ _ hblanks'
                refine ⟨.comma ((inArray_of_run_arrayBlanks hblanks'
                  (ih (hus ▸ hitems) fun src hsrc => ?_)).1 rfl), u, hu.symm⟩
                have hall := hs (c₁ ++ c₂ ++ ',' :: c₃ ++ src) (by
                  rw [hs₁, hs₂, hs₄, hsrc]
                  simp)
                exact tripled_of_append hall
        obtain ⟨hs₃, u, rfl⟩ := hrest'
        have hin := (inArray_of_run_arrayBlanks hblanks hs₃).1 rfl
        rcases run_value_cases hvalue with ⟨u', q, -, hq, hrun⟩ | ⟨u', q, -, hq, hrun⟩ |
          ⟨_, _, _, _, harray, -⟩ | hother
        · exact .string hq hrun hin
        · obtain ⟨newline, src, body, quotes, rfl, -⟩ := exists_of_run_multilineString hrun
          obtain ⟨x, rfl⟩ := hin.exists_append
          have hall := hs (q.quote :: q.quote :: q.quote ::
            (newline ++ src ++ (closer q ++ quotes ++ (x ++ [']'])))) (by simp)
          rcases hq with rfl | rfl <;> simp [tripled, basic, literal] at hall
        · cases harray
        · exact absurd rfl (hother.1 u)

/-! ### a line that assigns -/

/-- A line that assigns has nothing but its value that may have line ends. -/
theorem exists_of_run_line_assign {n : Nat} {k : List Key} {v : Value}
    (h : (line n).run s = some (some (.keyValue k v), t)) : ∃ a s₁ c, s = a ++ s₁ ∧ '\n' ∉ a ∧
      (value n).run s₁ = some (v, c ++ t) ∧ '\n' ∉ c := by
  obtain ⟨_, s₁, h₁, g₁⟩ := run_bind_eq_some_iff.mp h
  obtain ⟨st, s₂, h₂, g₂⟩ := run_bind_eq_some_iff.mp g₁
  obtain ⟨_, s₃, h₃, g₃⟩ := run_bind_eq_some_iff.mp g₂
  obtain ⟨_, s₄, h₄, g₄⟩ := run_bind_eq_some_iff.mp g₃
  obtain ⟨hst, rfl⟩ := Prod.mk.inj (Option.some.inj g₄)
  obtain ⟨w, rfl, hw⟩ := inline_ws _ _ _ h₁
  obtain ⟨w', rfl, hw'⟩ := inline_ws _ _ _ h₃
  obtain ⟨c, rfl, hc⟩ := inline_comment _ _ _ h₄
  rcases run_statement_cases h₂ with
    ⟨_, _, -, -, htable⟩ | ⟨k', v', u, w₁, u', hassign, hkey, hws, hvalue⟩
  · obtain ⟨k', -, hst' | hst'⟩ := htable _ hst
    · cases hst'
    · cases hst'
  · obtain ⟨rfl, rfl⟩ := Statement.keyValue.inj (Option.some.inj (hst.symm.trans hassign))
    obtain ⟨a, rfl, ha⟩ := inline_key n _ _ _ hkey
    obtain ⟨a', rfl, ha'⟩ := inline_ws _ _ _ hws
    refine ⟨w ++ (a ++ '=' :: a'), u', w' ++ c, by simp, by simp [hw, ha, ha'], ?_,
      by simp [hw', hc]⟩
    rw [List.append_assoc]
    exact hvalue

theorem tripled_of_append_left {a b : List Char} (h : tripled (a ++ b) = false) :
    tripled a = false := by
  induction a with
  | nil => rfl
  | cons c a ih =>
      rw [List.cons_append, tripled, Bool.or_eq_false_iff] at h
      rw [tripled, ih h.2, Bool.or_false, Bool.eq_false_iff]
      intro htrue
      rw [Bool.and_eq_true, List.isPrefixOf_iff_prefix] at htrue
      have hprefix := htrue.2.trans (List.prefix_append a b)
      rw [htrue.1, List.isPrefixOf_iff_prefix.mpr hprefix] at h
      cases h.1

/-- A text without line ends at the end of another comes after each of its line ends. -/
theorem exists_append_of_append_newline {a b c z : List Char} (h : z ++ c = a ++ '\n' :: b)
    (hc : '\n' ∉ c) : ∃ d, b = d ++ c := by
  rcases List.append_eq_append_iff.mp h with ⟨a', rfl, rfl⟩ | ⟨c', rfl, hb⟩
  · simp at hc
  · cases c' with
    | nil =>
        rw [← (show '\n' :: b = c from hb)] at hc
        simp at hc
    | cons d c' => exact ⟨c', (List.cons.inj hb).2⟩

/-- **After each line end** of a line that assigns a string or strings an array goes on. -/
theorem Reads.inArray {x : Item} (h : Reads x) {k : List Key} {v : Value}
    (hst : x.1 = some (.keyValue k v))
    (hv : (∃ u, v = .string u) ∨ ∃ us : List (List Char), v = .array (us.map Value.string))
    (htripled : tripled x.2 = false) {a b : List Char} (hx : x.2 = a ++ '\n' :: b)
    (rest : List Char) : ∃ r, InArray r (b ++ '\n' :: rest) := by
  have hline := h x.2.length rest le_rfl
  rw [hst] at hline
  obtain ⟨p, s₁, c, hs, hp, hvalue, hc⟩ := exists_of_run_line_assign hline
  have hsource : ∀ src, s₁ = src ++ (c ++ '\n' :: rest) → x.2 = p ++ src ++ c := by
    rintro src rfl
    exact (List.append_left_inj ('\n' :: rest)).mp (by simpa using hs)
  rcases run_value_cases hvalue with ⟨u, q, -, hq, hrun⟩ | ⟨u, q, -, hq, hrun⟩ |
    ⟨m, vs, s₂, s₃, rfl, rfl, hblanks, hitems⟩ | hother
  · obtain ⟨src, hsrc, hnone⟩ := hq.inline _ _ _ hrun
    have hmem : '\n' ∈ p ++ src ++ c := by
      rw [← hsource src hsrc, hx]
      simp
    simp [hp, hnone, hc] at hmem
  · obtain ⟨newline, src, body, quotes, rfl, -⟩ := exists_of_run_multilineString hrun
    have hall := hsource (q.quote :: q.quote :: q.quote ::
      (newline ++ src ++ (closer q ++ quotes))) (by simp)
    rw [hall] at htripled
    have hquotes := tripled_of_append (tripled_of_append_left htripled)
    rcases hq with rfl | rfl <;> simp [tripled, basic, literal] at hquotes
  · obtain ⟨us, rfl⟩ : ∃ us : List (List Char), vs = us.map Value.string := by
      rcases hv with ⟨u, hv⟩ | ⟨us, hv⟩
      · cases hv
      · exact ⟨us, Value.array.inj hv⟩
    obtain ⟨blanks, rfl, -⟩ := local_arrayBlanks false _ _ _ hblanks
    have hin : InArray (c ++ '\n' :: rest) s₃ := by
      refine inArray_of_run_arrayItems hitems fun src hsrc => ?_
      have hall := hsource ('[' :: (blanks ++ src)) (by simp [hsrc])
      rw [hall] at htripled
      exact tripled_of_append (tripled_of_append (a := ['[']) (tripled_of_append
        (tripled_of_append_left htripled)))
    obtain ⟨src, hsrc⟩ := hin.exists_append
    have hall := hsource ('[' :: (blanks ++ (src ++ [']']))) (by simp [hsrc])
    obtain ⟨d, rfl⟩ := exists_append_of_append_newline (hall.symm.trans hx) hc
    have htext : (p ++ ['[']) ++ (blanks ++ s₃) = a ++ '\n' :: (d ++ c ++ '\n' :: rest) := by
      rw [hx] at hs
      simpa using hs.symm
    obtain ⟨a', -, hrest⟩ := eq_append_of_append_newline htext (by simp [hp])
    exact ⟨_, ((inArray_of_run_arrayBlanks hblanks hin).1 rfl).after_newline hrest (by simp)⟩
  · rcases hv with ⟨u, rfl⟩ | ⟨us, rfl⟩
    · exact absurd rfl (hother.1 u)
    · exact absurd rfl (hother.2 _)

end InArray

end Toml
