import Mathlib.Data.List.DropRight

/-!
# Lib.Lines

Text as Python's `str` methods cut it: `splitlines`, `strip` and `split`, over
lists of characters, and files that are written line by line.

* `splitOnP_joinLines` — a file written from lines is read back as these lines
  by every reader whose line ends none of them contains;
* `not_isLineBreak_of_mem_splitlines` — the lines of `splitlines` are such;
* `split_strip`, `split_append_space` — the words of a text.
-/

namespace Lines

/-- A line, without its end. -/
abbrev Line := List Char

/-- The characters of `str.isspace`. -/
def isSpace (c : Char) : Bool :=
  (9 ≤ c.toNat && c.toNat ≤ 13) || (28 ≤ c.toNat && c.toNat ≤ 32) || c.toNat = 0x85 ||
    c.toNat = 0xa0 || c.toNat = 0x1680 || (0x2000 ≤ c.toNat && c.toNat ≤ 0x200a) ||
    c.toNat = 0x2028 || c.toNat = 0x2029 || c.toNat = 0x202f || c.toNat = 0x205f || c.toNat = 0x3000

/-- The line boundaries of `str.splitlines`: LF, VT, FF, CR, FS, GS, RS, NEL and
the two Unicode separators. -/
def isLineBreak (c : Char) : Bool :=
  (10 ≤ c.toNat && c.toNat ≤ 13) || (28 ≤ c.toNat && c.toNat ≤ 30) || c.toNat = 0x85 ||
    c.toNat = 0x2028 || c.toNat = 0x2029

/-- CR LF is one boundary. -/
def crlf : List Char → List Char
  | '\r' :: '\n' :: cs => '\n' :: crlf cs
  | c :: cs => c :: crlf cs
  | [] => []

/-- Cut at every boundary; no empty line after the last one. -/
def cut (p : Char → Bool) (text : List Char) : List Line :=
  let lines := text.splitOnP p
  if lines.getLast? = some [] then lines.dropLast else lines

/-- `str.splitlines`. -/
def splitlines (text : List Char) : List Line := cut isLineBreak (crlf text)

/-- `str.strip`. -/
def strip (l : Line) : Line := (l.dropWhile isSpace).rdropWhile isSpace

/-- `str.lstrip`. -/
def lstrip (l : Line) : Line := l.dropWhile isSpace

/-- `str.split`: the words between blanks. -/
def split (l : Line) : List Line := (l.splitOnP isSpace).filter (· ≠ [])

/-- Every line with its end. -/
def joinLines (ls : List Line) : List Char := ls.flatMap (· ++ ['\n'])

/-! ## cutting -/

/-- A piece contains no boundary. -/
theorem not_of_mem_splitOnP {p : Char → Bool} {text : List Char} {l : Line}
    (h : l ∈ text.splitOnP p) : ∀ c ∈ l, p c = false := by
  induction text generalizing l with
  | nil =>
      rw [List.splitOnP_nil, List.mem_singleton] at h
      simp [h]
  | cons c text ih =>
      rw [List.splitOnP_cons_eq_if_modifyHead] at h
      split at h
      · rcases List.mem_cons.mp h with rfl | h
        · simp
        · exact ih h
      · next hc =>
          cases hs : text.splitOnP p with
          | nil => rw [hs] at h; cases h
          | cons m ms =>
              rw [hs, List.modifyHead_cons] at h
              rcases List.mem_cons.mp h with rfl | h
              · intro d hd
                rcases List.mem_cons.mp hd with rfl | hd
                · simpa using hc
                · exact ih (hs ▸ List.mem_cons_self) d hd
              · exact ih (hs ▸ List.mem_cons_of_mem m h)

theorem mem_of_mem_cut {p : Char → Bool} {text : List Char} {l : Line} (h : l ∈ cut p text) :
    l ∈ text.splitOnP p := by
  unfold cut at h
  dsimp only at h
  split at h
  · exact (List.dropLast_sublist _).subset h
  · exact h

theorem not_isLineBreak_of_mem_splitlines {text : List Char} {l : Line} (h : l ∈ splitlines text) :
    ∀ c ∈ l, isLineBreak c = false :=
  not_of_mem_splitOnP (mem_of_mem_cut h)

/-- A file written line by line is read back by a reader whose boundaries
include the line end and occur in no line, whatever follows. -/
theorem splitOnP_joinLines_append {p : Char → Bool} (hp : p '\n' = true) {ls : List Line}
    (h : ∀ l ∈ ls, ∀ c ∈ l, p c = false) (rest : List Char) :
    (joinLines ls ++ rest).splitOnP p = ls ++ rest.splitOnP p := by
  induction ls with
  | nil => rfl
  | cons l ls ih =>
      have hjoin : joinLines (l :: ls) ++ rest = l ++ '\n' :: (joinLines ls ++ rest) := by
        simp [joinLines]
      rw [hjoin, List.splitOnP_append_cons _ _ hp,
        List.splitOnP_eq_singleton (h l List.mem_cons_self),
        ih fun m hm => h m (List.mem_cons_of_mem l hm)]
      rfl

theorem splitOnP_joinLines {p : Char → Bool} (hp : p '\n' = true) {ls : List Line}
    (h : ∀ l ∈ ls, ∀ c ∈ l, p c = false) : (joinLines ls).splitOnP p = ls ++ [[]] := by
  have hread := splitOnP_joinLines_append hp h []
  rwa [List.append_nil, List.splitOnP_nil] at hread

theorem crlf_cons {c : Char} (hc : c ≠ '\r') (text : List Char) :
    crlf (c :: text) = c :: crlf text := by
  rw [crlf]
  intro cs hcr
  exact absurd hcr hc

theorem crlf_append_of_not_mem {text : List Char} (h : '\r' ∉ text) (rest : List Char) :
    crlf (text ++ rest) = text ++ crlf rest := by
  induction text with
  | nil => rfl
  | cons c text ih =>
      have hc : c ≠ '\r' := fun he => h (he ▸ List.mem_cons_self)
      rw [List.cons_append, crlf_cons hc, ih fun hmem => h (List.mem_cons_of_mem c hmem)]
      rfl

theorem crlf_eq_self {text : List Char} (h : '\r' ∉ text) : crlf text = text := by
  have happend := crlf_append_of_not_mem h []
  rwa [List.append_nil, crlf, List.append_nil] at happend

/-- A character that ends no line keeps apart what is before it. -/
theorem crlf_append_cons {c : Char} (hreturn : c ≠ '\r') (hnewline : c ≠ '\n')
    (text rest : List Char) : crlf (text ++ c :: rest) = crlf text ++ c :: crlf rest := by
  induction text using crlf.induct with
  | case1 cs ih => simpa [crlf] using ih
  | case2 d cs hd ih =>
      have hleft : crlf (d :: cs) = d :: crlf cs := by
        rw [crlf]
        exact hd
      rw [List.cons_append, hleft, crlf, ih]
      · rfl
      · rintro cs' rfl hcs
        cases cs with
        | nil => exact hnewline (List.cons.inj hcs).1
        | cons d cs =>
            obtain ⟨rfl, -⟩ := List.cons.inj hcs
            exact hd cs rfl rfl
  | case3 => rw [List.nil_append, crlf_cons hreturn]; rfl

theorem length_crlf_le (text : List Char) : (crlf text).length ≤ text.length := by
  induction text using crlf.induct with
  | case1 cs ih =>
      rw [crlf]
      simp only [List.length_cons]
      omega
  | case2 d cs hd ih =>
      rw [crlf]
      · simpa using ih
      · exact hd
  | case3 => simp [crlf]

theorem count_crlf {c : Char} (hc : c ≠ '\r') (text : List Char) :
    (crlf text).count c = text.count c := by
  induction text using crlf.induct with
  | case1 cs ih => simp [crlf, List.count_cons, ih, hc.symm]
  | case2 d cs hd ih =>
      rw [crlf]
      · simp [List.count_cons, ih]
      · exact hd
  | case3 => rfl

/-! ## joining -/

/-- A file is read from the lines that were written first on. -/
theorem splitlines_joinLines_append {ls : List Line} {rest : List Char}
    (h : ∀ l ∈ ls, ∀ c ∈ l, isLineBreak c = false) (hrest : '\r' ∉ rest) :
    splitlines (joinLines ls ++ rest) = ls ++ splitlines rest := by
  have hcr : '\r' ∉ joinLines ls ++ rest := by
    intro hmem
    rcases List.mem_append.mp hmem with hmem | hmem
    · obtain ⟨l, hl, hc⟩ := List.mem_flatMap.mp hmem
      rcases List.mem_append.mp hc with hc | hc
      · exact absurd (h l hl _ hc) (by decide)
      · exact absurd (List.mem_singleton.mp hc) (by decide)
    · exact hrest hmem
  have hne := List.splitOnP_ne_nil isLineBreak rest
  rw [splitlines, splitlines, crlf_eq_self hcr, crlf_eq_self hrest, cut, cut,
    splitOnP_joinLines_append (by decide) h, List.getLast?_append_of_ne_nil _ hne,
    List.dropLast_append_of_ne_nil hne]
  split <;> rfl

/-- Lines that contain no boundary are read back from what is written of them. -/
theorem splitlines_joinLines {ls : List Line} (h : ∀ l ∈ ls, ∀ c ∈ l, isLineBreak c = false) :
    splitlines (joinLines ls) = ls := by
  have hread := splitlines_joinLines_append h (List.not_mem_nil (a := '\r'))
  rwa [List.append_nil, show splitlines [] = [] from rfl, List.append_nil] at hread

theorem splitlines_line {line : Line} (h : ∀ c ∈ line, isLineBreak c = false) :
    splitlines (line ++ ['\n']) = [line] := by
  have hjoin : joinLines [line] = line ++ ['\n'] := by simp [joinLines]
  rw [← hjoin, splitlines_joinLines fun l hl => List.mem_singleton.mp hl ▸ h]

theorem joinLines_append (ls ms : List Line) :
    joinLines (ls ++ ms) = joinLines ls ++ joinLines ms := by
  simp [joinLines]

theorem joinLines_eq_intercalate {ls : List Line} (h : ls ≠ []) :
    joinLines ls = ['\n'].intercalate ls ++ ['\n'] := by
  induction ls with
  | nil => exact absurd rfl h
  | cons l ls ih =>
      cases ls with
      | nil => simp [joinLines]
      | cons m ms =>
          have hrest := ih (List.cons_ne_nil m ms)
          have hcons : joinLines (l :: m :: ms) = l ++ ['\n'] ++ joinLines (m :: ms) := by
            simp [joinLines]
          rw [hcons, hrest, List.intercalate_cons_cons]
          simp

/-- The lines of a text make it up again. -/
theorem joinLines_splitOn (text : List Char) : joinLines (text.splitOn '\n') = text ++ ['\n'] := by
  rw [joinLines_eq_intercalate (List.splitOn_ne_nil _ text), List.intercalate_splitOn]

theorem joinLines_inj {ls ms : List Line} (hl : ∀ l ∈ ls, '\n' ∉ l) (hm : ∀ m ∈ ms, '\n' ∉ m)
    (h : joinLines ls = joinLines ms) : ls = ms := by
  have hsplit : ∀ {ls : List Line}, (∀ l ∈ ls, '\n' ∉ l) →
      (joinLines ls).splitOnP (· = '\n') = ls ++ [[]] := fun hl =>
    splitOnP_joinLines (by decide) fun l hmem c hc => by
      rw [decide_eq_false_iff_not]
      exact fun he => hl l hmem (he ▸ hc)
  have hboth := hsplit hl
  rw [h, hsplit hm] at hboth
  exact (List.append_cancel_right hboth).symm

theorem mem_joinLines {ls : List Line} {c : Char} (h : c ∈ joinLines ls) :
    c = '\n' ∨ ∃ l ∈ ls, c ∈ l := by
  obtain ⟨l, hl, hc⟩ := List.mem_flatMap.mp h
  rcases List.mem_append.mp hc with hc | hc
  · exact Or.inr ⟨l, hl, hc⟩
  · exact Or.inl (List.mem_singleton.mp hc)

/-! ## words -/

theorem split_append_sep {a b : Line} {c : Char} (h : isSpace c = true) :
    split (a ++ c :: b) = split a ++ split b := by
  rw [split, List.splitOnP_append_cons a b h, List.filter_append]
  rfl

/-- Leading blanks make no word. -/
theorem split_dropWhile (l : Line) : split (l.dropWhile isSpace) = split l := by
  induction l with
  | nil => rfl
  | cons c l ih =>
      rw [List.dropWhile_cons]
      split
      · next hc =>
          have hcut : split (c :: l) = split [] ++ split l := split_append_sep (a := []) hc
          rw [ih, hcut]
          rfl
      · rfl

/-- Trailing blanks make no word. -/
theorem split_rdropWhile (l : Line) : split (l.rdropWhile isSpace) = split l := by
  induction l using List.reverseRecOn with
  | nil => rfl
  | append_singleton l c ih =>
      rw [List.rdropWhile_concat]
      split
      · next hc =>
          have hcut : split (l ++ [c]) = split l ++ split [] := split_append_sep hc
          rw [ih, hcut]
          simp [split, List.splitOnP_nil]
      · rfl

/-- The words of a text do not depend on the blanks around it. -/
@[simp] theorem split_strip (l : Line) : split (strip l) = split l := by
  rw [strip, split_rdropWhile, split_dropWhile]

/-- A stripped line is stripped. -/
theorem strip_strip (l : Line) : strip (strip l) = strip l := by
  have hhead : (strip l).dropWhile isSpace = strip l := by
    rw [List.dropWhile_eq_self_iff]
    intro hl
    have hpre : strip l <+: lstrip l := List.rdropWhile_prefix _ _
    rw [hpre.getElem hl]
    exact List.dropWhile_get_zero_not isSpace l (hl.trans_le hpre.length_le)
  conv_lhs => rw [strip, hhead]
  exact List.rdropWhile_idempotent ..

end Lines
