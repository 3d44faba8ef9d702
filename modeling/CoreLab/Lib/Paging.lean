import Mathlib.Data.List.NodupEquivFin
import Mathlib.Data.List.Sort
import Mathlib.Order.WellFounded

/-!
# Lib.Paging

Lists that are read page by page, each page at its own time, while the list grows.

* `page` — the part of a list at a page number, counted from zero;
* `pages` — page after page, each of the list as it is when the page is read;
* `mem_pages` — a reader who goes on until a page is the last one of the list passes nothing over
  that was there at the start, wherever the list grew in between;
* `pageCount` — how many pages those are;
* `flatten_pages` — a list that stays as it is is read in order, each element once.

A list that is kept sorted grows in place when rows join it (`sublist_insertionSort`).
-/

namespace Paging

variable {α : Type} {size number : Nat} {x : α}

/-- The elements on one page. -/
def page (size number : Nat) (l : List α) : List α := (l.drop (number * size)).take size

/-- Page after page from a number on, each of the list as it is by then. -/
def pages (size : Nat) : Nat → List (List α) → List (List α)
  | _, [] => []
  | number, l :: ls => page size number l :: pages size (number + 1) ls

theorem mem_of_mem_page {l : List α} (h : x ∈ page size number l) : x ∈ l :=
  List.mem_of_mem_drop (List.mem_of_mem_take h)

/-- An element stands on the page that its position falls on. -/
theorem mem_page_of_getElem? {l : List α} {i : Nat} (h : l[i]? = some x)
    (hle : number * size ≤ i) (hlt : i < (number + 1) * size) : x ∈ page size number l := by
  rw [Nat.succ_mul] at hlt
  refine List.mem_of_getElem? (i := i - number * size) ?_
  rw [page, List.getElem?_take, if_pos (by omega), List.getElem?_drop, Nat.add_sub_of_le hle, h]

/-- **Nothing is passed over.** What stood at or behind the first page that is read stands on some
page, if the list only grew from page to page and the pages reach to its last length. -/
theorem mem_pages {l : List α} {ls : List (List α)} {i : Nat}
    (hgrow : (l :: ls).IsChain List.Sublist) (hi : l[i]? = some x) (hle : number * size ≤ i)
    (hlast : ((l :: ls).getLast (List.cons_ne_nil _ _)).length ≤ (number + (l :: ls).length) * size) :
    ∃ p ∈ pages size number (l :: ls), x ∈ p := by
  induction ls generalizing l number i with
  | nil =>
      have hlt : i < l.length := (List.getElem?_eq_some_iff.mp hi).1
      refine ⟨_, List.mem_cons_self, mem_page_of_getElem? hi hle (hlt.trans_le ?_)⟩
      simpa using hlast
  | cons m ls ih =>
      by_cases hlt : i < (number + 1) * size
      · exact ⟨_, List.mem_cons_self, mem_page_of_getElem? hi hle hlt⟩
      · -- It stands behind this page, and the growth moves it only further back.
        obtain ⟨hsub, hgrow⟩ := List.isChain_cons_cons.mp hgrow
        obtain ⟨f, hf⟩ := List.sublist_iff_exists_orderEmbedding_getElem?_eq.mp hsub
        have hback : i ≤ f i := f.strictMono.le_apply
        have hrest : ((m :: ls).getLast (List.cons_ne_nil _ _)).length ≤
            (number + 1 + (m :: ls).length) * size := by
          rw [List.getLast_cons (List.cons_ne_nil m ls)] at hlast
          rw [Nat.add_right_comm, Nat.add_assoc]
          exact hlast
        obtain ⟨p, hp, hx⟩ := ih hgrow (hf i ▸ hi) ((not_lt.mp hlt).trans hback) hrest
        exact ⟨p, List.mem_cons_of_mem _ hp, hx⟩

theorem flatten_pages_replicate (l : List α) (n : Nat) :
    (pages size number (List.replicate n l)).flatten =
      (l.drop (number * size)).take (n * size) := by
  induction n generalizing number with
  | zero => simp [pages]
  | succ n ih =>
      rw [List.replicate_succ, pages, List.flatten_cons, ih, page, Nat.succ_mul, Nat.succ_mul,
        Nat.add_comm (n * size) size, List.take_add, List.drop_drop]

/-- **The pages of a list that stays as it is** are its parts, in order. -/
theorem flatten_pages {l : List α} {n : Nat} (h : l.length ≤ n * size) :
    (pages size 0 (List.replicate n l)).flatten = l := by
  rw [flatten_pages_replicate, Nat.zero_mul, List.drop_zero, List.take_of_length_le h]

/-- The number of pages that a list takes. -/
def pageCount (length size : Nat) : Nat := if length = 0 then 0 else (length + size - 1) / size

/-- The pages that are counted hold the list. -/
theorem le_mul_of_pageCount_le {length n : Nat} (hsize : 1 ≤ size) (h : pageCount length size ≤ n) :
    length ≤ n * size := by
  unfold pageCount at h
  split at h
  · omega
  · have hlt := (Nat.div_lt_iff_lt_mul hsize).mp (Nat.lt_succ_of_le h)
    rw [Nat.succ_mul] at hlt
    omega

/-! ## sorted rows -/

/-- Rows that join leave the others in their order. -/
theorem sublist_insertionSort {r : α → α → Prop} [DecidableRel r] [Std.Total r] [IsTrans α r]
    {l m : List α} (h : l.Sublist m) :
    (l.insertionSort r).Sublist (m.insertionSort r) := by
  induction h with
  | slnil => exact List.Sublist.refl _
  | cons a _ ih => exact ih.trans (List.sublist_orderedInsert a _)
  | cons_cons a _ ih => exact ih.orderedInsert_sublist a (List.pairwise_insertionSort r _)

end Paging
