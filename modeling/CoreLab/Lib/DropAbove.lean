import Mathlib.Data.List.Induction

/-!
# Lib.DropAbove

Deleting the marked elements of a list, and each with the note right above it.
One way looks for the note at the end of what it has kept so far, the other at the
element above in the list itself.

* `dropUp_isSome_iff` — when a note is left at the end, right after a deletion;
* `popAbove_eq_dropAbove_iff` — the lists on which the two ways agree.
-/

namespace DropAbove

variable {α : Type} (marked note : α → Bool)

/-! ## the two ways -/

/-- One element, over what has been kept. -/
def popStep (kept : List α) (x : α) : List α :=
  if marked x then (if kept.getLast?.any note then kept.dropLast else kept) else kept ++ [x]

/-- A marked element takes the note at the end of what is kept. -/
def popAbove (xs : List α) : List α := xs.foldl (popStep marked note) []

/-- A marked element takes the note right above it. -/
def dropAbove : List α → List α
  | [] => []
  | x :: xs =>
    if marked x || (note x && xs.head?.any marked) then dropAbove xs else x :: dropAbove xs

/-- Two notes in a row, later two marked elements in a row, and only notes and marked
elements in between. -/
def Stretch (xs : List α) : Prop :=
  ∃ pre a b mid x y post, xs = pre ++ a :: b :: (mid ++ x :: y :: post) ∧ note a = true ∧
    note b = true ∧ (∀ z ∈ mid, note z = true ∨ marked z = true) ∧ marked x = true ∧ marked y = true

/-! ## from the last element up -/

/-- `popAbove`, on the list from its end. -/
def popUp : List α → List α
  | [] => []
  | x :: xs =>
    if marked x then (if (popUp xs).head?.any note then (popUp xs).tail else popUp xs)
    else x :: popUp xs

/-- `dropAbove`, on the list from its end; `below` says that the element below is marked. -/
def dropUp (below : Bool) : List α → List α
  | [] => []
  | x :: xs =>
    if marked x || (note x && below) then dropUp (marked x) xs else x :: dropUp (marked x) xs

/-- Two notes in a row, and only notes and marked elements after them. -/
def Tall (xs : List α) : Prop :=
  ∃ mid b a rest, xs = mid ++ b :: a :: rest ∧ (∀ z ∈ mid, note z = true ∨ marked z = true) ∧
    note b = true ∧ note a = true

/-- `Stretch`, on the list from its end. -/
def Deep (xs : List α) : Prop :=
  ∃ post y x rest, xs = post ++ y :: x :: rest ∧ marked y = true ∧ marked x = true ∧
    Tall marked note rest

variable {marked note}

theorem popAbove_concat (xs : List α) (x : α) : popAbove marked note (xs ++ [x]) =
    popStep marked note (popAbove marked note xs) x := by simp [popAbove]

/-- What is kept is in the list, and is not marked. -/
theorem of_mem_popAbove {xs : List α} {x : α} (h : x ∈ popAbove marked note xs) :
    x ∈ xs ∧ marked x = false := by
  induction xs using List.reverseRecOn with
  | nil => cases h
  | append_singleton xs y ih =>
      rw [popAbove_concat, popStep] at h
      split at h
      · have hkept : x ∈ popAbove marked note xs := by
          split at h
          · exact List.dropLast_subset _ h
          · exact h
        exact ⟨List.mem_append_left _ (ih hkept).1, (ih hkept).2⟩
      · next hy =>
          rcases List.mem_append.mp h with h | h
          · exact ⟨List.mem_append_left _ (ih h).1, (ih h).2⟩
          · obtain rfl := List.mem_singleton.mp h
            exact ⟨List.mem_append_right _ h, Bool.eq_false_iff.mpr hy⟩

/-- Elements with something beside them. -/
theorem popAbove_map {β : Type} (f : β → α) (xs : List β) : popAbove marked note (xs.map f) =
    (popAbove (fun x => marked (f x)) (fun x => note (f x)) xs).map f := by
  induction xs using List.reverseRecOn with
  | nil => rfl
  | append_singleton xs x ih =>
      rw [List.map_append, List.map_singleton, popAbove_concat, popAbove_concat, ih, popStep, popStep,
        List.getLast?_map, Option.any_map]
      split
      · split <;> simp_all
      · simp

theorem popAbove_eq_popUp (xs : List α) :
    popAbove marked note xs = (popUp marked note xs.reverse).reverse := by
  induction xs using List.reverseRecOn with
  | nil => rfl
  | append_singleton xs x ih =>
      rw [popAbove_concat, ih, List.reverse_append, List.reverse_singleton, List.singleton_append, popUp,
        popStep, List.getLast?_reverse]
      grind

theorem dropUp_concat (below : Bool) (xs : List α) (x : α) :
    dropUp marked note below (xs ++ [x]) = dropUp marked note below xs ++
      if marked x || (note x && xs.getLast?.elim below marked) then [] else [x] := by
  induction xs generalizing below with
  | nil => simp [dropUp]
  | cons y xs ih =>
      have hlast : (y :: xs).getLast?.elim below marked = xs.getLast?.elim (marked y) marked := by
        rw [List.getLast?_cons]
        cases xs.getLast? <;> rfl
      rw [List.cons_append, dropUp, dropUp, ih, hlast]
      split <;> simp

theorem dropAbove_eq_dropUp (xs : List α) :
    dropAbove marked note xs = (dropUp marked note false xs.reverse).reverse := by
  induction xs with
  | nil => rfl
  | cons x xs ih =>
      have hbelow : xs.reverse.getLast?.elim false marked = xs.head?.any marked := by
        rw [List.getLast?_reverse]
        cases xs.head? <;> rfl
      rw [List.reverse_cons, dropUp_concat, List.reverse_append, ← ih, hbelow, dropAbove]
      split <;> simp

theorem stretch_iff_deep (xs : List α) :
    Stretch marked note xs ↔ Deep marked note xs.reverse := by
  constructor
  · rintro ⟨pre, a, b, mid, x, y, post, rfl, ha, hb, hmid, hx, hy⟩
    exact ⟨post.reverse, y, x, mid.reverse ++ b :: a :: pre.reverse, by simp, hy, hx,
      mid.reverse, b, a, pre.reverse, rfl, by simpa using hmid, hb, ha⟩
  · rintro ⟨post, y, x, rest, hxs, hy, hx, mid, b, a, pre, rfl, hmid, hb, ha⟩
    refine ⟨pre.reverse, a, b, mid.reverse, x, y, post.reverse, ?_, ha, hb, by simpa using hmid,
      hx, hy⟩
    rw [List.reverse_eq_iff] at hxs
    simp [hxs]

/-! ## what is left at the end -/

/-- With a marked element below, a note at the end is gone. -/
theorem dropUp_true (h : ∀ x, marked x = true → note x = false) (xs : List α) :
    dropUp marked note true xs =
      if xs.head?.any note then (dropUp marked note false xs).tail
      else dropUp marked note false xs := by
  cases xs with
  | nil => rfl
  | cons x xs =>
      by_cases hn : note x = true
      · have hm : marked x = false := by grind
        simp [dropUp, hn, hm]
      · simp [dropUp, hn]

/-- **A note is left at the end**, right after a deletion, where two notes in a row stand above
nothing but notes and marked elements. -/
theorem dropUp_isSome_iff (h : ∀ x, marked x = true → note x = false) (xs : List α) :
    (dropUp marked note true xs).head?.any note = true ↔ Tall marked note xs := by
  induction xs with
  | nil => simp [dropUp, Tall]
  | cons z xs ih =>
      by_cases hm : marked z = true
      · -- a further deletion leaves the same end
        have hn := h z hm
        have hsame : dropUp marked note true (z :: xs) = dropUp marked note true xs := by
          simp [dropUp, hm]
        rw [hsame, ih]
        constructor
        · rintro ⟨mid, b, a, rest, rfl, hmid, hb, ha⟩
          exact ⟨z :: mid, b, a, rest, rfl, by simpa [hm] using hmid, hb, ha⟩
        · rintro ⟨mid, b, a, rest, heq, hmid, hb, ha⟩
          cases mid with
          | nil => grind
          | cons m mid =>
              obtain ⟨rfl, rfl⟩ := List.cons.inj heq
              exact ⟨mid, b, a, rest, rfl, fun w hw => hmid w (List.mem_cons_of_mem _ hw), hb, ha⟩
      · by_cases hn : note z = true
        · -- the note goes; what is above it decides
          have hgone : dropUp marked note true (z :: xs) = dropUp marked note false xs := by
            simp [dropUp, hm, hn]
          rw [hgone]
          have habove : (dropUp marked note false xs).head?.any note = true ↔
              xs.head?.any note = true ∨ Tall marked note xs := by
            rw [← ih, dropUp_true h]
            cases xs with
            | nil => simp [dropUp]
            | cons w xs =>
                by_cases hw : note w = true
                · have hmw : marked w = false := by grind
                  simp [dropUp, hw, hmw]
                · simp [hw]
          rw [habove]
          constructor
          · rintro (hhead | ⟨mid, b, a, rest, rfl, hmid, hb, ha⟩)
            · cases xs with
              | nil => simp at hhead
              | cons w xs =>
                  exact ⟨[], z, w, xs, rfl, by simp, hn, by simpa using hhead⟩
            · exact ⟨z :: mid, b, a, rest, rfl, by simpa [hn] using hmid, hb, ha⟩
          · rintro ⟨mid, b, a, rest, heq, hmid, hb, ha⟩
            cases mid with
            | nil =>
                obtain ⟨rfl, rfl⟩ := List.cons.inj heq
                exact Or.inl (by simpa using ha)
            | cons m mid =>
                obtain ⟨rfl, rfl⟩ := List.cons.inj heq
                exact Or.inr
                  ⟨mid, b, a, rest, rfl, fun w hw => hmid w (List.mem_cons_of_mem _ hw), hb, ha⟩
        · -- any other element stays, and is at the end
          have hstays : dropUp marked note true (z :: xs) = z :: dropUp marked note false xs := by
            simp [dropUp, hm, hn]
          rw [hstays]
          constructor
          · intro hz
            exact absurd (by simpa using hz) hn
          · rintro ⟨mid, b, a, rest, heq, hmid, hb, ha⟩
            cases mid with
            | nil => grind
            | cons m mid =>
                obtain ⟨rfl, rfl⟩ := List.cons.inj heq
                exact absurd (hmid z List.mem_cons_self) (by simp [hm, hn])

/-! ## where the two ways part -/

theorem deep_cons (z : α) (xs : List α) : Deep marked note (z :: xs) ↔ Deep marked note xs ∨
    (marked z = true ∧ ∃ x rest, xs = x :: rest ∧ marked x = true ∧ Tall marked note rest) := by
  constructor
  · rintro ⟨post, y, x, rest, heq, hy, hx, htall⟩
    cases post with
    | nil =>
        obtain ⟨rfl, rfl⟩ := List.cons.inj heq
        exact Or.inr ⟨hy, x, rest, rfl, hx, htall⟩
    | cons p post =>
        obtain ⟨rfl, rfl⟩ := List.cons.inj heq
        exact Or.inl ⟨post, y, x, rest, rfl, hy, hx, htall⟩
  · rintro (⟨post, y, x, rest, rfl, hy, hx, htall⟩ | ⟨hz, x, rest, rfl, hx, htall⟩)
    · exact ⟨z :: post, y, x, rest, rfl, hy, hx, htall⟩
    · exact ⟨[], z, x, rest, rfl, hz, hx, htall⟩

/-- The two ways agree, or the one that looks at what is kept has kept less; it has kept less
where it found a note that is not right above. -/
theorem popUp_cases (h : ∀ x, marked x = true → note x = false) (xs : List α) :
    (¬ Deep marked note xs ∧ popUp marked note xs = dropUp marked note false xs) ∨
      (Deep marked note xs ∧
        (popUp marked note xs).length < (dropUp marked note false xs).length) := by
  induction xs with
  | nil => exact Or.inl ⟨by simp [Deep], rfl⟩
  | cons z xs ih =>
      by_cases hm : marked z = true
      · have hpop : popUp marked note (z :: xs) = if (popUp marked note xs).head?.any note then
            (popUp marked note xs).tail else popUp marked note xs := by simp [popUp, hm]
        have hdrop : dropUp marked note false (z :: xs) = if xs.head?.any note then
            (dropUp marked note false xs).tail else dropUp marked note false xs := by
          rw [← dropUp_true h]
          simp [dropUp, hm]
        rw [deep_cons, hpop, hdrop]
        cases xs with
        | nil => exact Or.inl ⟨by simp [Deep], rfl⟩
        | cons w xs =>
            by_cases hw : note w = true
            · -- the note is at the end of both, and goes
              have hmw : marked w = false := by grind
              have hpopw : popUp marked note (w :: xs) = w :: popUp marked note xs := by
                simp [popUp, hmw]
              have hdropw : dropUp marked note false (w :: xs) = w :: dropUp marked note false xs := by
                simp [dropUp, hmw]
              rw [hpopw, hdropw] at ih ⊢
              simp only [List.head?_cons, Option.any_some, hw, if_true, List.tail_cons]
              grind
            · have hend : (dropUp marked note false (w :: xs)).head?.any note = true ↔
                  marked w = true ∧ Tall marked note xs := by
                rw [← dropUp_isSome_iff h]
                by_cases hmw : marked w = true
                · simp [dropUp, hmw]
                · simp [dropUp, hmw, hw]
              have hnone : (w :: xs).head?.any note = false := by simpa using hw
              rw [hnone]
              obtain ⟨hdeep, heq⟩ | ⟨hdeep, hlt⟩ := ih
              · rw [heq]
                by_cases hleft : (dropUp marked note false (w :: xs)).head?.any note = true
                · -- the one that looks at what is kept takes a note of another
                  obtain ⟨hmw, htall⟩ := hend.mp hleft
                  refine Or.inr ⟨Or.inr ⟨hm, w, xs, rfl, hmw, htall⟩, ?_⟩
                  rw [if_pos hleft]
                  cases hd : dropUp marked note false (w :: xs) with
                  | nil => simp [hd] at hleft
                  | cons d ds => simp
                · refine Or.inl ⟨?_, by rw [if_neg hleft]; rfl⟩
                  rintro (hd | ⟨-, x, rest, hx, hmx, htall⟩)
                  · exact hdeep hd
                  · obtain ⟨rfl, rfl⟩ := List.cons.inj hx
                    exact hleft (hend.mpr ⟨hmx, htall⟩)
              · refine Or.inr ⟨Or.inl hdeep, ?_⟩
                have htail : (popUp marked note (w :: xs)).tail.length ≤
                    (popUp marked note (w :: xs)).length := by simp
                split <;> grind
      · have hpop : popUp marked note (z :: xs) = z :: popUp marked note xs := by simp [popUp, hm]
        have hdrop : dropUp marked note false (z :: xs) = z :: dropUp marked note false xs := by
          simp [dropUp, hm]
        rw [deep_cons, hpop, hdrop]
        grind

/-- **The two ways agree** exactly on the lists without such a stretch. -/
theorem popAbove_eq_dropAbove_iff (h : ∀ x, marked x = true → note x = false) (xs : List α) :
    popAbove marked note xs = dropAbove marked note xs ↔ ¬ Stretch marked note xs := by
  rw [popAbove_eq_popUp, dropAbove_eq_dropUp, List.reverse_inj, stretch_iff_deep]
  obtain ⟨hdeep, heq⟩ | ⟨hdeep, hlt⟩ := popUp_cases h xs.reverse
  · exact iff_of_true heq hdeep
  · exact iff_of_false (fun heq => by rw [heq] at hlt; omega) (not_not_intro hdeep)

/-! ## what the rest is read as -/

/-- Readings that a marked element alone has, and no note has any, go with the marked elements. -/
theorem filterMap_popAbove {β : Type} [DecidableEq β] {g : α → Option β} {b : β}
    (hmarked : ∀ x, marked x = true ↔ g x = some b) (hnote : ∀ x, note x = true → g x = none)
    (xs : List α) :
    (popAbove marked note xs).filterMap g = (xs.filterMap g).filter (· ≠ b) := by
  induction xs using List.reverseRecOn with
  | nil => rfl
  | append_singleton xs x ih =>
      have hstep : popAbove marked note (xs ++ [x]) =
          popStep marked note (popAbove marked note xs) x := by simp [popAbove]
      rw [hstep, List.filterMap_append, List.filter_append, ← ih, popStep]
      split
      · next hx =>
          have hgone : ([x].filterMap g).filter (· ≠ b) = [] := by simp [(hmarked x).mp hx]
          rw [hgone, List.append_nil]
          split
          · next hlast =>
              rcases List.eq_nil_or_concat (popAbove marked note xs) with hnil | ⟨kept, y, hkept⟩
              · rw [hnil] at hlast
                cases hlast
              · rw [List.concat_eq_append] at hkept
                rw [hkept] at hlast ⊢
                have hy := hnote y (by simpa using hlast)
                simp [hy]
          · rfl
      · next hx =>
          have hother : ([x].filterMap g).filter (· ≠ b) = [x].filterMap g := by
            cases hg : g x with
            | none => simp [hg]
            | some c =>
                have hne : c ≠ b := fun heq => hx ((hmarked x).mpr (heq ▸ hg))
                simp [hg, hne]
          rw [hother, List.filterMap_append]

end DropAbove
