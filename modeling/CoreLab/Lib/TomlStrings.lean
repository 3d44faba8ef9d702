import CoreLab.Lib.Toml

/-!
# Lib.TomlStrings

Arrays of strings that are written between quotes as they are, and what a reader makes of
them.

* `run_value_array` — strings without quotes, backslashes and control characters are read
  back;
* `plainText_of_run_arrayItems` — no others are;
* `reads_assignment`, `exists_of_run_line` — the same of a line that assigns such an array.
-/

namespace Toml

open Parser Lines

/-! ## strings that are written -/

/-- A string without characters to escape. -/
def PlainText (s : List Char) : Prop := ∀ c ∈ s, c ≠ '"' ∧ c ≠ '\\' ∧ illegal c = false

instance (s : List Char) : Decidable (PlainText s) :=
  List.decidableBAll (fun c => c ≠ '"' ∧ c ≠ '\\' ∧ illegal c = false) s

/-- The string in quotes. -/
def quoted (s : List Char) : List Char := '"' :: s ++ ['"']

/-- The strings in quotes, between commas. -/
def quotedItems (ss : List (List Char)) : List Char := [',', ' '].intercalate (ss.map quoted)

theorem run_stringBody_plain {s : List Char} (h : PlainText s) (rest : List Char) :
    (stringBody (basic false) .none).run (s ++ '"' :: rest) = some (s, rest) := by
  induction s with
  | nil => exact run_stringBody_done rfl
  | cons c s ih =>
      obtain ⟨hquote, hbackslash, hlegal⟩ := h c List.mem_cons_self
      have hstep : stringStep (basic false) c (s ++ '"' :: rest) .none = .next (some c) .none := by
        show plainStep (basic false) c _ = _
        simp [plainStep, basic, hquote, hbackslash, hlegal]
      rw [List.cons_append, run_stringBody_next hstep,
        ih fun d hd => h d (List.mem_cons_of_mem c hd)]
      rfl

theorem run_ahead_bind {β : Type} {w s : List Char} {b : Bool} {q : Bool → Parser β}
    (h : w.isPrefixOf (restOfLine s) = b) : (ahead w >>= q).run s = (q b).run s := by
  rw [← h]
  rfl

/-- A string in quotes is read back, unless a quote follows. -/
theorem run_value_quoted {s : List Char} (h : PlainText s) (n : Nat) {c : Char} (hc : c ≠ '"')
    (rest : List Char) :
    (value (n + 1)).run (quoted s ++ c :: rest) = some (.string s, c :: rest) := by
  have htext : quoted s ++ c :: rest = '"' :: (s ++ '"' :: c :: rest) := by simp [quoted]
  have hthree : (['"', '"', '"'] : List Char).isPrefixOf
      (restOfLine ('"' :: (s ++ '"' :: c :: rest))) = false := by
    cases s with
    | nil =>
        simp only [restOfLine, List.nil_append, List.takeWhile_cons]
        grind
    | cons d s =>
        have hd := (h d List.mem_cons_self).1
        simp only [restOfLine, List.cons_append, List.takeWhile_cons]
        grind
  have hone : (['"'] : List Char).isPrefixOf
      (restOfLine ('"' :: (s ++ '"' :: c :: rest))) = true := rfl
  rw [htext, value, run_ahead_bind hthree, if_neg (by decide), run_ahead_bind hone,
    if_pos rfl]
  have hbody : (oneLineString (basic false)).run ('"' :: (s ++ '"' :: c :: rest)) =
      some (s, c :: rest) := run_stringBody_plain h (c :: rest)
  exact run_map_of_eq_some Value.string hbody

theorem quotedItems_cons_cons (s s' : List Char) (ss : List (List Char)) :
    quotedItems (s :: s' :: ss) = quoted s ++ ',' :: ' ' :: quotedItems (s' :: ss) := by
  simp [quotedItems, List.intercalate]

theorem exists_quotedItems_cons (s : List Char) (ss : List (List Char)) :
    ∃ r, quotedItems (s :: ss) = '"' :: r := by
  cases ss with
  | nil => exact ⟨s ++ ['"'], by simp [quotedItems, quoted, List.intercalate]⟩
  | cons s' ss => exact ⟨s ++ ['"'] ++ ',' :: ' ' :: quotedItems (s' :: ss), by
      rw [quotedItems_cons_cons]; simp [quoted]⟩

/-- An item of an array begins with a string. -/
theorem run_arrayItems_succ {n : Nat} {s : List Char} (h : PlainText s) {c : Char} (hc : c ≠ '"')
    (rest : List Char) : (arrayItems (n + 2)).run (quoted s ++ c :: rest) =
      (arrayBlanks false >>= fun _ => ahead [']'] >>= fun last =>
        if last = true then (fun _ => [Value.string s]) <$> Parser.char ']'
        else Parser.char ',' >>= fun _ => arrayBlanks false >>= fun _ =>
          (Value.string s :: ·) <$> arrayItems (n + 1)).run (c :: rest) := by
  have hahead : ([']'] : List Char).isPrefixOf (restOfLine (quoted s ++ c :: rest)) = false := rfl
  rw [arrayItems, run_ahead_bind hahead, if_neg (by decide), StateT.run_bind,
    run_value_quoted h n hc rest]
  rfl

/-- The items of an array of strings are read back. -/
theorem run_arrayItems_quoted {s : List Char} {ss : List (List Char)}
    (h : ∀ x ∈ s :: ss, PlainText x) {n : Nat} (hn : (quotedItems (s :: ss)).length ≤ n)
    (rest : List Char) : (arrayItems n).run (quotedItems (s :: ss) ++ ']' :: rest) =
      some ((s :: ss).map Value.string, rest) := by
  induction ss generalizing s n with
  | nil =>
      have hitems : quotedItems [s] = quoted s := by simp [quotedItems, List.intercalate]
      rw [hitems] at hn ⊢
      obtain ⟨m, rfl⟩ : ∃ m, n = m + 2 := ⟨n - 2, by simp [quoted] at hn; omega⟩
      rw [run_arrayItems_succ (h s List.mem_cons_self) (by decide)]
      rfl
  | cons s' ss ih =>
      rw [quotedItems_cons_cons] at hn ⊢
      rw [List.length_append, List.length_cons, List.length_cons] at hn
      obtain ⟨m, rfl⟩ : ∃ m, n = m + 2 := ⟨n - 2, by simp [quoted] at hn; omega⟩
      have hrest := ih (s := s') (n := m + 1) (fun x hx => h x (List.mem_cons_of_mem s hx))
        (by simp [quoted] at hn; omega)
      obtain ⟨r, hr⟩ := exists_quotedItems_cons s' ss
      rw [List.append_assoc, List.cons_append, List.cons_append,
        run_arrayItems_succ (h s List.mem_cons_self) (by decide)]
      rw [hr, List.cons_append] at hrest ⊢
      exact run_map_of_eq_some (Value.string s :: ·) hrest

/-- An array of strings is read back. -/
theorem run_value_array {s : List Char} {ss : List (List Char)}
    (h : ∀ x ∈ s :: ss, PlainText x) {n : Nat} (hn : (quotedItems (s :: ss)).length ≤ n)
    (rest : List Char) : (value (n + 1)).run ('[' :: quotedItems (s :: ss) ++ ']' :: rest) =
      some (.array ((s :: ss).map Value.string), rest) := by
  have hitems := run_arrayItems_quoted h hn rest
  obtain ⟨r, hr⟩ := exists_quotedItems_cons s ss
  rw [List.cons_append]
  rw [hr, List.cons_append] at hitems ⊢
  exact run_map_of_eq_some Value.array hitems

/-! ## what a string is read from -/

/-- The quotes at the end of a string. -/
def closer (q : Quoting) : List Char :=
  if q.multiline then [q.quote, q.quote, q.quote] else [q.quote]

/-- The characters that a string is read from, and those that it has. -/
inductive Spells (q : Quoting) : Escape → List Char → List Char → Prop
  | nil (e : Escape) : Spells q e [] []
  | cons {e e' : Escape} {c : Char} {rest src out : List Char} {read : Option Char}
      (hstep : stringStep q c rest e = .next read e') (h : Spells q e' src out) :
      Spells q e (c :: src) (read.toList ++ out)

variable {q : Quoting} {e : Escape} {src out : List Char}

theorem eq_closer_of_done {c : Char} {rest : List Char} (h : stringStep q c rest e = .done) :
    c :: rest = closer q ++ closing q rest := by
  have hplain := plainStep_of_done h
  unfold plainStep at hplain
  by_cases hc : c = q.quote
  · subst hc
    rw [if_pos rfl] at hplain
    cases hm : q.multiline with
    | false => simp [closer, closing, hm]
    | true =>
        have hquotes : [q.quote, q.quote].isPrefixOf (restOfLine rest) = true := by
          rw [hm] at hplain
          grind
        obtain ⟨r, rfl⟩ := (List.isPrefixOf_iff_prefix.mp hquotes).trans
          (List.takeWhile_prefix _ : restOfLine rest <+: rest)
        simp [closer, closing, hm]
  · rw [if_neg hc] at hplain
    grind

/-- A string is spelt up to the quotes that end it. -/
theorem exists_spells {s t : List Char} (h : (stringBody q e).run s = some (out, t)) :
    ∃ src, s = src ++ (closer q ++ t) ∧ Spells q e src out := by
  induction s generalizing e out with
  | nil => cases h
  | cons c rest ih =>
      cases hstep : stringStep q c rest e with
      | done =>
          rw [run_stringBody_done hstep] at h
          obtain ⟨rfl, rfl⟩ := Prod.mk.inj (Option.some.inj h)
          exact ⟨[], eq_closer_of_done hstep, .nil e⟩
      | next read e' =>
          rw [run_stringBody_next hstep] at h
          obtain ⟨⟨out', t'⟩, hrest, hout⟩ := Option.map_eq_some_iff.mp h
          obtain ⟨rfl, rfl⟩ := Prod.mk.inj hout
          obtain ⟨src, rfl, hspells⟩ := ih hrest
          exact ⟨c :: src, rfl, .cons hstep hspells⟩
      | fail =>
          have hnone : (stringBody q e).run (c :: rest) = none := by
            show stringBody q e (c :: rest) = _
            rw [stringBody, hstep]
          rw [hnone] at h
          cases h

/-- An escape sequence is longer than its character. -/
theorem Spells.length_le (h : Spells q e src out) : out.length ≤ src.length := by
  induction h with
  | nil => simp
  | @cons _ _ _ _ _ _ read _ _ ih =>
      have hread : read.toList.length ≤ 1 := by cases read <;> simp
      rw [List.length_append, List.length_cons]
      omega

/-- The character stands for itself. -/
def Raw (q : Quoting) (c : Char) : Prop :=
  ∀ e e' rest read, stringStep q c rest e = .next read e' → read = some c

theorem Spells.count_le {c : Char} (hc : Raw q c) (h : Spells q e src out) :
    src.count c ≤ out.count c := by
  induction h with
  | nil => simp
  | @cons e e' d rest _ _ read hstep _ ih =>
      by_cases hd : d = c
      · subst hd
        obtain rfl := hc e e' rest read hstep
        simpa using ih
      · rw [List.count_cons_of_ne hd, List.count_append]
        omega

/-- A string that is as long as what it is read from is read as it is. -/
theorem Spells.plain (h : Spells (basic false) .none src out) (hlength : src.length ≤ out.length) :
    src = out ∧ PlainText src := by
  generalize he : Escape.none = e at h
  induction h with
  | nil => exact ⟨rfl, fun c hc => (nomatch hc)⟩
  | @cons e e' c rest src out read hstep hrest ih =>
      subst he
      have hle := hrest.length_le
      have hif : (if c = '"' then StringStep.done else if c = '\\' then .next none .start
          else if illegal c then .fail else .next (some c) .none) = .next read e' := by
        simpa [stringStep, plainStep, basic] using hstep
      split_ifs at hif with hquote hbackslash hillegal
      · obtain ⟨rfl, -⟩ := StringStep.next.inj hif
        simp only [Option.toList_none, List.nil_append, List.length_cons] at hlength
        omega
      · obtain ⟨rfl, rfl⟩ := StringStep.next.inj hif
        obtain ⟨rfl, hplain⟩ := ih (by simpa using hlength) rfl
        refine ⟨rfl, List.forall_mem_cons.mpr ⟨⟨hquote, hbackslash, ?_⟩, hplain⟩⟩
        simpa using hillegal

/-- A comma and a bracket stand for themselves, escaped or not. -/
theorem raw_basic {multiline : Bool} {c : Char} (hc : c = ',' ∨ c = ']') :
    Raw (basic multiline) c := by
  intro e e' rest read hstep
  have hplain : plainStep (basic multiline) c rest = .next (some c) .none := by
    rcases hc with rfl | rfl <;> rfl
  cases e with
  | none =>
      rw [stringStep, hplain] at hstep
      exact (StringStep.next.inj hstep).1.symm
  | start => rcases hc with rfl | rfl <;> cases multiline <;> cases hstep
  | hex left value => rcases hc with rfl | rfl <;> cases hstep
  | trim newline =>
      have hif : (if newline then plainStep (basic multiline) c rest else .fail) =
          .next read e' := by
        rcases hc with rfl | rfl <;> exact hstep
      rw [hplain] at hif
      split_ifs at hif
      exact (StringStep.next.inj hif).1.symm

/-- A character that is not in `b` is before it or after. -/
theorem count_lt_or_length_le {α : Type} [DecidableEq α] {v r a b t : List α} {c : α}
    (h : v ++ c :: r = a ++ (b ++ t)) (hb : c ∉ b) :
    v.count c < a.count c ∨ (a ++ b).length ≤ v.length := by
  rcases List.append_eq_append_iff.mp h with ⟨a', rfl, ha⟩ | ⟨b', rfl, hb'⟩
  · cases a' with
    | nil =>
        cases b with
        | nil => simp
        | cons d b =>
            obtain rfl := (List.cons.inj ha).1
            exact absurd List.mem_cons_self hb
    | cons d a' =>
        obtain rfl := (List.cons.inj ha).1
        simp
  · rcases List.append_eq_append_iff.mp hb' with ⟨b'', rfl, -⟩ | ⟨t', rfl, ht⟩
    · simp
    · cases t' with
      | nil => simp
      | cons d t' =>
          obtain rfl := (List.cons.inj ht).1
          simp at hb

/-! ## what is read of strings -/

theorem eq_append_of_run_optional {c : Char} {s l t : List Char}
    (h : (optional c).run s = some (l, t)) : s = l ++ t ∧ ∀ d ∈ l, d = c := by
  obtain ⟨next, u, hpeek, h⟩ := run_bind_eq_some_iff.mp h
  obtain ⟨-, rfl⟩ := Prod.mk.inj (Option.some.inj hpeek)
  split_ifs at h
  · obtain ⟨d, v, hchar, h⟩ := run_bind_eq_some_iff.mp h
    obtain ⟨rfl, rfl⟩ := Prod.mk.inj (Option.some.inj h)
    exact ⟨eq_cons_of_run_char hchar, by simp⟩
  · obtain ⟨rfl, rfl⟩ := Prod.mk.inj (Option.some.inj h)
    exact ⟨rfl, by simp⟩

/-- What a string on one line is read from. -/
theorem exists_of_run_oneLineString {s t : List Char}
    (h : (oneLineString q).run s = some (out, t)) :
    ∃ src, s = q.quote :: (src ++ (closer q ++ t)) ∧ Spells q .none src out := by
  obtain ⟨c, u, hchar, hbody⟩ := run_bind_eq_some_iff.mp h
  obtain ⟨src, rfl, hspells⟩ := exists_spells hbody
  exact ⟨src, eq_cons_of_run_char hchar, hspells⟩

/-- What a multi-line string is read from: a line end, the string, and quotes. -/
theorem exists_of_run_multilineString {s t : List Char}
    (h : (multilineString q).run s = some (out, t)) :
    ∃ newline src body quotes,
      s = q.quote :: q.quote :: q.quote :: (newline ++ src ++ (closer q ++ quotes ++ t)) ∧
      (∀ d ∈ newline, d = '\n') ∧ Spells q .none src body ∧ (∀ d ∈ quotes, d = q.quote) ∧
      out = body ++ quotes := by
  obtain ⟨_, s₁, h₁, g₁⟩ := run_bind_eq_some_iff.mp h
  obtain ⟨_, s₂, h₂, g₂⟩ := run_bind_eq_some_iff.mp g₁
  obtain ⟨_, s₃, h₃, g₃⟩ := run_bind_eq_some_iff.mp g₂
  obtain ⟨newline, s₄, h₄, g₄⟩ := run_bind_eq_some_iff.mp g₃
  obtain ⟨body, s₅, h₅, g₅⟩ := run_bind_eq_some_iff.mp g₄
  obtain ⟨first, s₆, h₆, g₆⟩ := run_bind_eq_some_iff.mp g₅
  obtain ⟨rfl, hnewline⟩ := eq_append_of_run_optional h₄
  obtain ⟨src, rfl, hspells⟩ := exists_spells h₅
  obtain ⟨rfl, hfirst⟩ := eq_append_of_run_optional h₆
  rw [eq_cons_of_run_char h₁, eq_cons_of_run_char h₂, eq_cons_of_run_char h₃]
  split_ifs at g₆ with hnil
  · obtain ⟨rfl, rfl⟩ := Prod.mk.inj (Option.some.inj g₆)
    exact ⟨newline, src, body, [], by simp [hnil], hnewline, hspells, by simp, by simp⟩
  · obtain ⟨second, s₇, h₇, g₇⟩ := run_bind_eq_some_iff.mp g₆
    obtain ⟨rfl, hsecond⟩ := eq_append_of_run_optional h₇
    obtain ⟨rfl, rfl⟩ := Prod.mk.inj (Option.some.inj g₇)
    refine ⟨newline, src, body, first ++ second, by simp, hnewline, hspells, ?_, by simp⟩
    exact fun d hd => (List.mem_append.mp hd).elim (hfirst d) (hsecond d)

/-- A string that is read back where it may be longer than what was written, and has no more commas
or brackets. -/
theorem plainText_of_run_value {n : Nat} {u w r t : List Char} {c : Char} (hc : c = ',' ∨ c = ']')
    (hlength : w.length ≤ u.length) (hcount : u.count c ≤ w.count c)
    (h : (value n).run (quoted w ++ c :: r) = some (.string u, t)) : w = u ∧ PlainText u := by
  cases n with
  | zero => cases h
  | succ n =>
      have hraw : ∀ multiline, Raw (basic multiline) c := fun _ => raw_basic hc
      have hquote : c ≠ '"' := by rcases hc with rfl | rfl <;> decide
      have htext : quoted w ++ c :: r = '"' :: (w ++ ['"'] ++ c :: r) := by simp [quoted]
      have hone : (['"'] : List Char).isPrefixOf
          (restOfLine ('"' :: (w ++ ['"'] ++ c :: r))) = true := rfl
      rw [htext, value] at h
      by_cases hthree : (['"', '"', '"'] : List Char).isPrefixOf
          (restOfLine ('"' :: (w ++ ['"'] ++ c :: r))) = true
      · rw [run_ahead_bind hthree, if_pos rfl] at h
        obtain ⟨out, hrun, hout⟩ := run_map_eq_some_iff.mp h
        obtain rfl := Value.string.inj hout
        obtain ⟨newline, src, body, quotes, heq, hnewline, hspells, hquotes, rfl⟩ :=
          exists_of_run_multilineString hrun
        have hrest : w ++ ['"'] ++ c :: r = (['"', '"'] ++ newline ++ src) ++
            (closer (basic true) ++ quotes ++ t) := by
          simpa [basic] using (List.cons.inj heq).2
        have hcloser : closer (basic true) = ['"', '"', '"'] := rfl
        have hnone : c ∉ closer (basic true) ++ quotes := by
          intro hmem
          rcases List.mem_append.mp hmem with hmem | hmem
          · simp [hcloser, hquote] at hmem
          · exact hquote (hquotes c hmem)
        have hle := hspells.length_le
        rcases count_lt_or_length_le hrest hnone with hlt | hshort
        · have hsource := hspells.count_le (hraw true)
          have hzero : newline.count c = 0 := List.count_eq_zero.mpr fun hmem => by
            have := hnewline c hmem
            rcases hc with rfl | rfl <;> cases this
          simp [hquote.symm, hzero] at hlt hcount
          omega
        · simp [hcloser] at hshort hlength
          omega
      · rw [run_ahead_bind (Bool.eq_false_iff.mpr hthree), if_neg (by decide), run_ahead_bind hone,
          if_pos rfl] at h
        obtain ⟨out, hrun, hout⟩ := run_map_eq_some_iff.mp h
        obtain rfl := Value.string.inj hout
        obtain ⟨src, heq, hspells⟩ := exists_of_run_oneLineString hrun
        have hrest : w ++ ['"'] ++ c :: r = src ++ (['"'] ++ t) := (List.cons.inj heq).2
        have hle := hspells.length_le
        rcases count_lt_or_length_le hrest (by simpa using hquote) with hlt | hshort
        · have hsource := hspells.count_le (hraw false)
          have hsame : (w ++ ['"']).count c = w.count c := by simp [hquote.symm]
          omega
        · simp only [List.length_append, List.length_singleton] at hshort
          obtain ⟨rfl, hplain⟩ := hspells.plain (by omega)
          have hsrc : w = src := by
            have htake := congrArg (List.take src.length) hrest
            rw [List.append_assoc, List.take_left' (by omega), List.take_left] at htake
            exact htake
          exact ⟨hsrc, hplain⟩

/-- The items of an array: none, one before the bracket, or one and more after a comma. -/
theorem run_arrayItems_cases {n : Nat} {s t : List Char} {vs : List Value}
    (h : (arrayItems n).run s = some (vs, t)) : (s = ']' :: t ∧ vs = []) ∨
      ∃ m v s₂ s₃, n = m + 1 ∧ (value m).run s = some (v, s₂) ∧
        (arrayBlanks false).run s₂ = some ((), s₃) ∧
        ((s₃ = ']' :: t ∧ vs = [v]) ∨ ∃ s₄ s₅ vs', s₃ = ',' :: s₄ ∧
          (arrayBlanks false).run s₄ = some ((), s₅) ∧ (arrayItems m).run s₅ = some (vs', t) ∧
          vs = v :: vs') := by
  cases n with
  | zero => cases h
  | succ m =>
      rw [arrayItems] at h
      obtain ⟨last, s₁, hahead, h₁⟩ := run_bind_eq_some_iff.mp h
      obtain ⟨-, rfl⟩ := Prod.mk.inj (Option.some.inj hahead)
      split_ifs at h₁
      · obtain ⟨c, hchar, hnil⟩ := run_map_eq_some_iff.mp h₁
        exact Or.inl ⟨eq_cons_of_run_char hchar, hnil.symm⟩
      · obtain ⟨v, s₂, hvalue, h₂⟩ := run_bind_eq_some_iff.mp h₁
        obtain ⟨_, s₃, hblanks, h₃⟩ := run_bind_eq_some_iff.mp h₂
        obtain ⟨_, s₄, hahead', h₄⟩ := run_bind_eq_some_iff.mp h₃
        obtain ⟨-, rfl⟩ := Prod.mk.inj (Option.some.inj hahead')
        refine Or.inr ⟨m, v, s₂, s₃, rfl, hvalue, hblanks, ?_⟩
        split_ifs at h₄
        · obtain ⟨_, hchar, hvs⟩ := run_map_eq_some_iff.mp h₄
          exact Or.inl ⟨eq_cons_of_run_char hchar, hvs.symm⟩
        · obtain ⟨_, s₅, hchar, h₅⟩ := run_bind_eq_some_iff.mp h₄
          obtain ⟨_, s₆, hblanks', h₆⟩ := run_bind_eq_some_iff.mp h₅
          obtain ⟨vs', hitems, hvs⟩ := run_map_eq_some_iff.mp h₆
          exact Or.inr ⟨s₅, s₆, vs', eq_cons_of_run_char hchar, hblanks', hitems, hvs.symm⟩

theorem exists_of_run_arrayItems_quoted {n : Nat} {s r t : List Char} {vs : List Value}
    (h : (arrayItems n).run (quoted s ++ r) = some (vs, t)) :
    ∃ v vs' m t', vs = v :: vs' ∧ n = m + 1 ∧ (value m).run (quoted s ++ r) = some (v, t') := by
  rcases run_arrayItems_cases h with ⟨hend, -⟩ | ⟨m, v, t', _, rfl, hvalue, -, hrest⟩
  · simp [quoted] at hend
  · rcases hrest with ⟨-, rfl⟩ | ⟨_, _, vs', -, -, -, rfl⟩
    · exact ⟨v, [], m, t', rfl, rfl, hvalue⟩
    · exact ⟨v, vs', m, t', rfl, rfl, hvalue⟩

/-- **An array of strings** that is read back where they may be longer than what was written:
no string needs an escape. -/
theorem plainText_of_run_arrayItems {f : List Char → List Char}
    (hlength : ∀ s, (f s).length ≤ s.length)
    (hcount : ∀ s c, c = ',' ∨ c = ']' → s.count c ≤ (f s).count c)
    {s : List Char} {ss : List (List Char)} {n : Nat} {rest t : List Char}
    (h : (arrayItems n).run (quotedItems ((s :: ss).map f) ++ ']' :: rest) =
      some ((s :: ss).map Value.string, t)) :
    ∀ x ∈ s :: ss, f x = x ∧ PlainText x := by
  induction ss generalizing s n with
  | nil =>
      have hitems : quotedItems [f s] = quoted (f s) := by simp [quotedItems, List.intercalate]
      rw [List.map_cons, List.map_nil, hitems] at h
      obtain ⟨_, _, m, t', hvs, -, hvalue⟩ := exists_of_run_arrayItems_quoted h
      obtain ⟨rfl, -⟩ := List.cons.inj hvs
      have hplain := plainText_of_run_value (Or.inr rfl) (hlength s)
        (hcount s ']' (Or.inr rfl)) hvalue
      simpa using hplain
  | cons s' ss ih =>
      rw [List.map_cons, List.map_cons, quotedItems_cons_cons, List.append_assoc,
        List.cons_append, List.cons_append] at h
      obtain ⟨_, _, m, t', hvs, rfl, hvalue⟩ := exists_of_run_arrayItems_quoted h
      obtain ⟨rfl, -⟩ := List.cons.inj hvs
      obtain ⟨hs, hplain⟩ := plainText_of_run_value (Or.inl rfl) (hlength s)
        (hcount s ',' (Or.inl rfl)) hvalue
      refine List.forall_mem_cons.mpr ⟨⟨hs, hplain⟩, ?_⟩
      cases m with
      | zero => cases hvalue
      | succ m =>
          obtain ⟨r, hr⟩ := exists_quotedItems_cons (f s') (ss.map f)
          rw [hs, run_arrayItems_succ hplain (by decide), hr, List.cons_append] at h
          have hrest : ((Value.string s :: ·) <$> arrayItems (m + 1)).run ('"' :: (r ++ ']' :: rest)) =
              some ((s :: s' :: ss).map Value.string, t) := h
          obtain ⟨vs, hvs, hcons⟩ := run_map_eq_some_iff.mp hrest
          rw [(List.cons.inj hcons).2, ← List.cons_append, ← hr] at hvs
          exact ih hvs

/-! ## a line that assigns an array -/

/-- The line that assigns strings to a name. -/
def assigned (k : Key) (ss : List (List Char)) : List Char :=
  k ++ " = [".toList ++ quotedItems ss ++ [']']

/-- A name that needs no quotes. -/
structure Bare (k : Key) : Prop where
  ne_nil : k ≠ []
  all : ∀ c ∈ k, isBareKey c = true

theorem run_bind_of_eq_some {α β : Type} {p : Parser α} {g : α → Parser β} {s t : List Char} {a : α}
    (h : p.run s = some (a, t)) : (p >>= g).run s = (g a).run t := by
  rw [StateT.run_bind, h]
  rfl

theorem run_keyPart {k : Key} (hk : Bare k) (s : List Char) :
    keyPart.run (k ++ ' ' :: s) = some (k, ' ' :: s) := by
  obtain ⟨c, cs, rfl⟩ := List.exists_cons_of_ne_nil hk.ne_nil
  obtain ⟨hc, hcs⟩ := List.forall_mem_cons.mp hk.all
  have hsingle : (some c : Option Char) ≠ some '\'' := by
    rintro he
    rw [Option.some.inj he] at hc
    cases hc
  have hdouble : (some c : Option Char) ≠ some '"' := by
    rintro he
    rw [Option.some.inj he] at hc
    cases hc
  have hpeek : peek.run (c :: cs ++ ' ' :: s) = some (some c, c :: cs ++ ' ' :: s) := rfl
  have hfirst : (satisfy isBareKey).run (c :: cs ++ ' ' :: s) = some (c, cs ++ ' ' :: s) := by
    show (if isBareKey c then some (c, cs ++ ' ' :: s) else none) = _
    rw [if_pos hc]
  have hspan : (span isBareKey).run (cs ++ ' ' :: s) = some (cs, ' ' :: s) := by
    show some ((cs ++ ' ' :: s).takeWhile isBareKey, (cs ++ ' ' :: s).dropWhile isBareKey) = _
    rw [List.takeWhile_append_of_pos hcs, List.dropWhile_append_of_pos hcs,
      List.takeWhile_cons_of_neg (by decide), List.dropWhile_cons_of_neg (by decide),
      List.append_nil]
  rw [keyPart, run_bind_of_eq_some hpeek, if_neg hsingle, if_neg hdouble,
    run_bind_of_eq_some hfirst, run_bind_of_eq_some hspan]
  rfl

theorem run_key {k : Key} (hk : Bare k) (n : Nat) (s : List Char) :
    (key (n + 1)).run (k ++ ' ' :: '=' :: s) = some ([k], '=' :: s) := by
  rw [key, run_bind_of_eq_some (run_keyPart hk _)]
  rfl

/-- The line of an array is read as its value is. -/
theorem run_line_assigned {k : Key} (hk : Bare k) (n : Nat) (s : List Char) :
    (line (n + 1)).run (k ++ " = [".toList ++ s) = (value (n + 1) >>= fun v => span isWs >>= fun _ =>
      comment >>= fun _ => pure (some (Statement.keyValue [k] v))).run ('[' :: s) := by
  obtain ⟨c, cs, hcs⟩ := List.exists_cons_of_ne_nil hk.ne_nil
  have hc : isBareKey c = true := hk.all c (hcs ▸ List.mem_cons_self)
  have htext : k ++ " = [".toList ++ s = k ++ ' ' :: '=' :: ' ' :: '[' :: s := by simp
  have hbare : ∀ {d : Char}, isBareKey d = false → c ≠ d := fun hd he => by
    rw [he, hd] at hc
    cases hc
  have hblank : (span isWs).run (k ++ ' ' :: '=' :: ' ' :: '[' :: s) =
      some ([], k ++ ' ' :: '=' :: ' ' :: '[' :: s) := by
    have hws : isWs c = false := by simp [isWs, hbare (d := ' ') rfl, hbare (d := '\t') rfl]
    rw [hcs]
    show some (List.takeWhile isWs (c :: _), List.dropWhile isWs (c :: _)) = _
    rw [List.takeWhile_cons_of_neg (by simp [hws]), List.dropWhile_cons_of_neg (by simp [hws])]
    rfl
  have hpeek : peek.run (k ++ ' ' :: '=' :: ' ' :: '[' :: s) =
      some (some c, k ++ ' ' :: '=' :: ' ' :: '[' :: s) := by
    rw [hcs]
    rfl
  have hahead : ∀ w, ('[' :: w).isPrefixOf (restOfLine (k ++ ' ' :: '=' :: ' ' :: '[' :: s)) =
      false := by
    intro w
    rw [hcs, restOfLine, List.cons_append, List.takeWhile_cons_of_pos (by simp [hbare (d := '\n') rfl]),
      List.isPrefixOf_cons_cons, beq_false_of_ne (hbare (d := '[') rfl).symm, Bool.false_and]
  have hassign : (statement (n + 1)).run (k ++ ' ' :: '=' :: ' ' :: '[' :: s) =
      (value (n + 1) >>= fun v => pure (some (Statement.keyValue [k] v))).run ('[' :: s) := by
    rw [statement, run_bind_of_eq_some hpeek,
      if_neg (by simp [hbare (d := '\n') rfl, hbare (d := '#') rfl]), run_ahead_bind (hahead _),
      if_neg (by decide), run_ahead_bind (hahead _), if_neg (by decide),
      run_bind_of_eq_some (run_key hk n _)]
    rfl
  rw [htext, line, run_bind_of_eq_some hblank, StateT.run_bind, hassign]
  simp only [StateT.run_bind, StateT.run_pure, bind_assoc, pure_bind]

/-- Strings without characters to escape are read back from their line. -/
theorem reads_assigned {k : Key} (hk : Bare k) {s : List Char} {ss : List (List Char)}
    (h : ∀ x ∈ s :: ss, PlainText x) :
    Reads (some (.keyValue [k] (.array ((s :: ss).map Value.string))), assigned k (s :: ss)) := by
  intro m rest hm
  cases m with
  | zero => simp [assigned] at hm
  | succ m =>
      have htext : assigned k (s :: ss) ++ '\n' :: rest =
          k ++ " = [".toList ++ (quotedItems (s :: ss) ++ ']' :: '\n' :: rest) := by simp [assigned]
      have hitems : (quotedItems (s :: ss)).length ≤ m := by
        simp only [assigned, List.length_append, List.length_singleton] at hm
        omega
      rw [htext, run_line_assigned hk, ← List.cons_append,
        run_bind_of_eq_some (run_value_array h hitems ('\n' :: rest))]
      rfl

/-- A line of strings that is read assigns an array, and if it is read back no string needs an
escape. -/
theorem exists_of_run_line {f : List Char → List Char} (hlength : ∀ s, (f s).length ≤ s.length)
    (hcount : ∀ s c, c = ',' ∨ c = ']' → s.count c ≤ (f s).count c)
    {k : Key} (hk : Bare k) {s : List Char} {ss : List (List Char)} {n : Nat} {rest t : List Char}
    {st : Option Statement}
    (h : (line (n + 1)).run (assigned k ((s :: ss).map f) ++ '\n' :: rest) = some (st, t)) :
    ∃ v, st = some (.keyValue [k] v) ∧ v ≠ .array [] ∧ (v = .array ((s :: ss).map Value.string) →
      ∀ x ∈ s :: ss, f x = x ∧ PlainText x) := by
  have htext : assigned k ((s :: ss).map f) ++ '\n' :: rest =
      k ++ " = [".toList ++ (quotedItems ((s :: ss).map f) ++ ']' :: '\n' :: rest) := by
    simp [assigned]
  rw [htext, run_line_assigned hk] at h
  obtain ⟨v, s₁, hvalue, h₁⟩ := run_bind_eq_some_iff.mp h
  obtain ⟨_, s₂, -, h₂⟩ := run_bind_eq_some_iff.mp h₁
  obtain ⟨_, s₃, -, h₃⟩ := run_bind_eq_some_iff.mp h₂
  obtain ⟨rfl, -⟩ := Prod.mk.inj (Option.some.inj h₃)
  obtain ⟨r, hr⟩ := exists_quotedItems_cons (f s) (ss.map f)
  rw [List.map_cons, hr, List.cons_append] at hvalue
  have hitems : (Value.array <$> arrayItems n).run ('"' :: (r ++ ']' :: '\n' :: rest)) =
      some (v, s₁) := hvalue
  obtain ⟨vs, hvs, rfl⟩ := run_map_eq_some_iff.mp hitems
  refine ⟨_, rfl, fun hnil => ?_, fun hall => ?_⟩
  · obtain rfl := Value.array.inj hnil
    rcases run_arrayItems_cases hvs with ⟨hend, -⟩ | ⟨_, _, _, _, -, -, -, hrest⟩
    · cases hend
    · rcases hrest with ⟨-, hcons⟩ | ⟨_, _, _, -, -, -, hcons⟩ <;> cases hcons
  · obtain rfl := Value.array.inj hall
    rw [← List.cons_append, ← hr] at hvs
    exact plainText_of_run_arrayItems hlength hcount hvs

end Toml
