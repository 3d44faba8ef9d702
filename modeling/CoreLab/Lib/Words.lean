import CoreLab.Lib.Lines

/-!
# Lib.Words

Splitting off a bounded number of words.

* `splitMax` — at most `n` words, and the rest as it is;
* `split_of_splitMax` — the words that are split off are the first words of the line.
-/

namespace Lines

/-- `str.split(maxsplit=n)`: the rest after `n` words begins with a word and keeps its blanks. -/
def splitMax : Nat → Line → List Line
  | 0, l => if lstrip l = [] then [] else [lstrip l]
  | n + 1, l =>
    if lstrip l = [] then []
    else (lstrip l).takeWhile (!isSpace ·) :: splitMax n ((lstrip l).dropWhile (!isSpace ·))

theorem split_nil : split [] = [] := rfl

/-- A text without blanks is one word. -/
theorem split_word {w : Line} (hne : w ≠ []) (hw : ∀ c ∈ w, isSpace c = false) : split w = [w] := by
  rw [split, List.splitOnP_eq_singleton hw]
  simp [hne]

/-- **The first word**, and the words of what follows it. -/
theorem split_eq_cons {l : Line} (h : lstrip l ≠ []) :
    split l = (lstrip l).takeWhile (!isSpace ·) :: split ((lstrip l).dropWhile (!isSpace ·)) := by
  have hword : (lstrip l).takeWhile (!isSpace ·) ≠ [] := by
    have hhead : isSpace ((lstrip l).head h) = false := List.head_dropWhile_not isSpace h
    cases hl : lstrip l with
    | nil => exact absurd hl h
    | cons c cs =>
        simp only [hl, List.head_cons] at hhead
        simp [hhead]
  have hplain : ∀ c ∈ (lstrip l).takeWhile (!isSpace ·), isSpace c = false := by
    intro c hc
    simpa using List.mem_takeWhile_imp hc
  have hsplit : split l = split (lstrip l) := (split_dropWhile l).symm
  rw [hsplit]
  conv_lhs => rw [← List.takeWhile_append_dropWhile (p := (!isSpace ·)) (l := lstrip l)]
  cases hrest : (lstrip l).dropWhile (!isSpace ·) with
  | nil => rw [List.append_nil, split_word hword hplain, split_nil]
  | cons c rest =>
      have hc : isSpace c = true := by
        have hne : (lstrip l).dropWhile (!isSpace ·) ≠ [] := by simp [hrest]
        have hhead := List.head_dropWhile_not (!isSpace ·) hne
        simpa [hrest] using hhead
      have hskip : split (c :: rest) = split rest := by
        rw [← split_dropWhile, List.dropWhile_cons_of_pos hc, split_dropWhile]
      rw [split_append_sep hc, split_word hword hplain, hskip]
      rfl

/-- **What is split off** are the first two words. -/
theorem split_of_splitMax {l a b : Line} {rest : List Line}
    (h : splitMax 2 l = a :: b :: rest) : ∃ more, split l = a :: b :: more := by
  rw [splitMax] at h
  split at h
  · cases h
  · next hne =>
      obtain ⟨rfl, htail⟩ := List.cons.inj h
      rw [splitMax] at htail
      split at htail
      · cases htail
      · next hne' =>
          obtain ⟨rfl, -⟩ := List.cons.inj htail
          exact ⟨_, by rw [split_eq_cons hne, split_eq_cons hne']⟩

end Lines
