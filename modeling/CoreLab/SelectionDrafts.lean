import CoreLab.Lib.Runs
import CoreLab.ReservationGrid

/-!
# CoreLab.SelectionDrafts

The cells that a user selects are a set of texts, in the order of the clicks, and the drafts
are made from the texts: grouped by GPU, sorted, and walked run by run.

* `parse_cellKey` — a cell key reads back as its GPU and its slot;
* `selectionDrafts_eq_cells` — so the drafts are those of the cells themselves;
* `selectionDrafts_partition` — which are apart, cover the selected cells and cover no others.
-/

namespace CoreLab

namespace SelectionDrafts

open ReservationGrid (SlotKey Selection SelectionDraft walkRuns)

/-! ## cell keys -/

/-- `cellKey`. -/
def cellKey (gpuId slotIndex : Nat) : String := s!"{gpuId}:{slotIndex}"

/-- `Number` of a text of decimal digits; no other text is part of a cell key. -/
def number? (text : List Char) : Option Nat :=
  if text ≠ [] ∧ text.all Char.isDigit then some (Nat.ofDigitChars 10 text 0) else none

/-- `k.split(':').map(Number)`, as the loop takes it apart. -/
def parseCellKey (k : String) : Option SlotKey :=
  match (k.toList.splitOnP (· = ':')).map number? with
  | some g :: some s :: _ => some ⟨g, s⟩
  | _ => none

theorem number?_toDigits (n : Nat) : number? (Nat.toDigits 10 n) = some n := by
  have hdigits : (Nat.toDigits 10 n).all Char.isDigit = true := by
    rw [List.all_eq_true]
    exact fun c hc => Nat.isDigit_of_mem_toDigits (by decide) (by decide) hc
  rw [number?, if_pos ⟨Nat.toDigits_ne_nil, hdigits⟩, Nat.ofDigitChars_ten_toDigits]

theorem not_colon_of_mem_toDigits {n : Nat} {c : Char} (hc : c ∈ Nat.toDigits 10 n) :
    decide (c = ':') = false := by
  have hdigit := Nat.isDigit_of_mem_toDigits (by decide) (by decide) hc
  rw [decide_eq_false_iff_not]
  rintro rfl
  exact absurd hdigit (by decide)

theorem toList_cellKey (gpuId slotIndex : Nat) :
    (cellKey gpuId slotIndex).toList =
      Nat.toDigits 10 gpuId ++ ':' :: Nat.toDigits 10 slotIndex := by
  have hcolon : (toString ":").toList = [':'] := rfl
  simp [cellKey, hcolon]

/-- **A cell key** reads back as what it was made from. -/
@[simp] theorem parse_cellKey (gpuId slotIndex : Nat) :
    parseCellKey (cellKey gpuId slotIndex) = some ⟨gpuId, slotIndex⟩ := by
  have hparts : (cellKey gpuId slotIndex).toList.splitOnP (· = ':') =
      [Nat.toDigits 10 gpuId, Nat.toDigits 10 slotIndex] := by
    rw [toList_cellKey, List.splitOnP_append_cons _ _ (by decide),
      List.splitOnP_eq_singleton fun c hc => not_colon_of_mem_toDigits hc,
      List.splitOnP_eq_singleton fun c hc => not_colon_of_mem_toDigits hc]
    rfl
  rw [parseCellKey, hparts, List.map_cons, List.map_cons, number?_toDigits, number?_toDigits]

theorem cellKey_inj {g g' s s' : Nat} (h : cellKey g s = cellKey g' s') : g = g' ∧ s = s' := by
  have hparse := congrArg parseCellKey h
  simpa using hparse

/-! ## the drafts -/

/-- A `Set` of texts that `cellKey` has produced, in insertion order. -/
structure CellSet where
  texts : List String
  nodup : texts.Nodup
  produced : ∀ k ∈ texts, ∃ gpuId slotIndex, k = cellKey gpuId slotIndex

/-- The first loop of `selectionDrafts`: the slots of each GPU. -/
def slotsByGpu (selecting : List String) : Dict Nat (List Nat) :=
  selecting.foldl (fun byGpu k => match parseCellKey k with
    | none => byGpu
    | some key => byGpu.push key.gpuId key.slotIndex) .empty

/-- `selectionDrafts`. -/
def selectionDrafts (selecting : CellSet) : List SelectionDraft :=
  (slotsByGpu selecting.texts).entries.flatMap fun e =>
    match e.2.insertionSort (· ≤ ·) with
    | [] => []
    | first :: slots => walkRuns e.1 first first slots

/-- The keys from `firstSlot` to `lastSlot`. -/
def cells (draft : SelectionDraft) : List String :=
  (List.range' draft.firstSlot (draft.lastSlot + 1 - draft.firstSlot)).map (cellKey draft.gpuId)

/-- Two drafts of one GPU have a slot between them. -/
def Apart (a b : SelectionDraft) : Prop :=
  a.gpuId = b.gpuId → a.lastSlot + 1 < b.firstSlot ∨ b.lastSlot + 1 < a.firstSlot

/-- The drafts split the selection into contiguous runs, none longer than need be. -/
structure Partition (selecting : CellSet) (drafts : List SelectionDraft) : Prop where
  run : ∀ draft ∈ drafts, draft.firstSlot ≤ draft.lastSlot
  disjoint : drafts.Pairwise fun a b => (cells a).Disjoint (cells b)
  apart : drafts.Pairwise Apart
  union : ∀ k, k ∈ selecting.texts ↔ ∃ draft ∈ drafts, k ∈ cells draft

theorem mem_cells {draft : SelectionDraft} {k : String} : k ∈ cells draft ↔
    ∃ s, draft.firstSlot ≤ s ∧ s ≤ draft.lastSlot ∧ cellKey draft.gpuId s = k := by
  simp only [cells, List.mem_map, List.mem_range'_1, and_assoc]
  refine exists_congr fun s => and_congr_right fun hfirst => and_congr_left' ?_
  omega

theorem cellKey_mem_cells {draft : SelectionDraft} {gpuId s : Nat} :
    cellKey gpuId s ∈ cells draft ↔
      draft.gpuId = gpuId ∧ draft.firstSlot ≤ s ∧ s ≤ draft.lastSlot := by
  rw [mem_cells]
  constructor
  · rintro ⟨t, hfirst, hlast, hkey⟩
    obtain ⟨hgpu, rfl⟩ := cellKey_inj hkey
    exact ⟨hgpu, hfirst, hlast⟩
  · rintro ⟨rfl, hfirst, hlast⟩
    exact ⟨s, hfirst, hlast, rfl⟩

/-- Drafts that are apart have no cell in common. -/
theorem Apart.disjoint {a b : SelectionDraft} (h : Apart a b) : (cells a).Disjoint (cells b) := by
  intro k ha hb
  obtain ⟨s, hfirst, hlast, rfl⟩ := mem_cells.mp ha
  obtain ⟨hgpu, hfirst', hlast'⟩ := cellKey_mem_cells.mp hb
  rcases h hgpu.symm with hlt | hlt <;> omega

/-! ## one GPU -/

/-- The walk finds the runs of a GPU's slots. -/
theorem walkRuns_eq (gpuId runStart prev : Nat) (slots : List Nat) :
    walkRuns gpuId runStart prev slots =
      (Runs.walk (· + 1) runStart prev slots).map fun r => ⟨gpuId, r.1, r.2⟩ := by
  induction slots generalizing runStart prev with
  | nil => rfl
  | cons s slots ih =>
      rw [walkRuns, Runs.walk]
      split
      · exact ih runStart s
      · rw [List.map_cons, ih s s]

/-- The drafts of one GPU. -/
def draftsOf (gpuId : Nat) (slots : List Nat) : List SelectionDraft :=
  (Runs.runs (· + 1) (slots.insertionSort (· ≤ ·))).map fun r => ⟨gpuId, r.1, r.2⟩

theorem selectionDrafts_eq_draftsOf (selecting : CellSet) : selectionDrafts selecting =
    (slotsByGpu selecting.texts).entries.flatMap fun e => draftsOf e.1 e.2 := by
  refine List.flatMap_congr fun e _ => ?_
  rw [draftsOf]
  cases e.2.insertionSort (· ≤ ·) with
  | nil => rfl
  | cons first slots => exact walkRuns_eq e.1 first first slots

section Gpu

variable {gpuId : Nat} {slots : List Nat} {draft : SelectionDraft}

theorem pairwise_insertionSort (hnodup : slots.Nodup) :
    (slots.insertionSort (· ≤ ·)).Pairwise (· < ·) := by
  have hsorted : (slots.insertionSort (· ≤ ·)).Pairwise (· ≤ ·) :=
    List.pairwise_insertionSort (· ≤ ·) slots
  have hdistinct := (List.perm_insertionSort (· ≤ ·) slots).nodup_iff.mpr hnodup
  exact hsorted.imp₂ (fun _ _ hle hne => lt_of_le_of_ne hle hne) hdistinct

theorem gpuId_of_mem_draftsOf (h : draft ∈ draftsOf gpuId slots) : draft.gpuId = gpuId := by
  obtain ⟨r, -, rfl⟩ := List.mem_map.mp h
  rfl

theorem run_of_mem_draftsOf (hnodup : slots.Nodup) (h : draft ∈ draftsOf gpuId slots) :
    draft.firstSlot ≤ draft.lastSlot := by
  obtain ⟨r, hr, rfl⟩ := List.mem_map.mp h
  exact Runs.le_of_mem_runs (pairwise_insertionSort hnodup) hr

/-- The drafts of a GPU cover its slots. -/
theorem exists_mem_draftsOf_iff (gpuId : Nat) (hnodup : slots.Nodup) {s : Nat} :
    (∃ draft ∈ draftsOf gpuId slots, draft.firstSlot ≤ s ∧ s ≤ draft.lastSlot) ↔ s ∈ slots := by
  rw [← List.mem_insertionSort (· ≤ ·), ← Runs.exists_mem_runs_iff (fun _ _ => Nat.succ_le_of_lt)
    (pairwise_insertionSort hnodup)]
  simp [draftsOf]

theorem pairwise_draftsOf (hnodup : slots.Nodup) : (draftsOf gpuId slots).Pairwise Apart := by
  rw [draftsOf, List.pairwise_map]
  exact (Runs.pairwise_runs (fun _ _ => Nat.succ_le_of_lt) (pairwise_insertionSort hnodup)).imp
    fun hgap _ => Or.inl hgap

end Gpu

/-! ## all GPUs -/

section Selection

variable {selecting : CellSet}

/-- The cells of a set of keys. -/
def cellsOf (texts : List String) : List SlotKey := texts.filterMap parseCellKey

theorem slotsByGpu_eq (texts : List String) : slotsByGpu texts =
    (cellsOf texts).foldl (fun byGpu key => byGpu.push key.gpuId key.slotIndex) .empty := by
  rw [slotsByGpu, cellsOf, List.foldl_filterMap]
  congr 1
  funext byGpu k
  cases parseCellKey k <;> rfl

/-- The keys of the cells are the texts again. -/
theorem map_cellsOf {texts : List String}
    (h : ∀ k ∈ texts, ∃ gpuId slotIndex, k = cellKey gpuId slotIndex) :
    (cellsOf texts).map (fun key => cellKey key.gpuId key.slotIndex) = texts := by
  induction texts with
  | nil => rfl
  | cons k texts ih =>
      obtain ⟨g, s, rfl⟩ := h k List.mem_cons_self
      rw [cellsOf, List.filterMap_cons_some (parse_cellKey g s), List.map_cons, ← cellsOf,
        ih fun j hj => h j (List.mem_cons_of_mem _ hj)]

theorem mem_cellsOf {g s : Nat} :
    ⟨g, s⟩ ∈ cellsOf selecting.texts ↔ cellKey g s ∈ selecting.texts := by
  constructor
  · intro hcell
    rw [← map_cellsOf selecting.produced]
    exact List.mem_map.mpr ⟨⟨g, s⟩, hcell, rfl⟩
  · exact fun hk => List.mem_filterMap.mpr ⟨_, hk, parse_cellKey g s⟩

theorem nodup_cellsOf : (cellsOf selecting.texts).Nodup := by
  refine List.Nodup.of_map (fun key => cellKey key.gpuId key.slotIndex) ?_
  rw [map_cellsOf selecting.produced]
  exact selecting.nodup

/-- The slots under a GPU are those of its selected cells. -/
theorem slots_eq {e : Nat × List Nat} (he : e ∈ (slotsByGpu selecting.texts).entries) :
    e.2 = ((cellsOf selecting.texts).filter fun key => key.gpuId = e.1).map SlotKey.slotIndex := by
  have hslots := Dict.getD_foldl_push (cellsOf selecting.texts) SlotKey.gpuId SlotKey.slotIndex
    .empty e.1
  rw [← slotsByGpu_eq, Dict.get?_eq_some_iff.mpr he] at hslots
  simpa using hslots

/-- The drafts of the texts are those of the cells. -/
theorem selectionDrafts_eq_cells (selecting : CellSet) : selectionDrafts selecting =
    ReservationGrid.selectionDrafts ⟨cellsOf selecting.texts, nodup_cellsOf⟩ := by
  rw [selectionDrafts, slotsByGpu_eq]
  rfl

theorem nodup_slots {e : Nat × List Nat} (he : e ∈ (slotsByGpu selecting.texts).entries) :
    e.2.Nodup := by
  rw [slots_eq he]
  refine List.Nodup.map_on (fun a ha b hb hslot => ?_) (nodup_cellsOf.filter _)
  have hgpu := of_decide_eq_true (List.mem_filter.mp ha).2
  have hgpu' := of_decide_eq_true (List.mem_filter.mp hb).2
  cases a
  cases b
  simp_all

/-- A cell is selected if its slot is under its GPU. -/
theorem exists_entry_iff {g s : Nat} :
    (∃ e ∈ (slotsByGpu selecting.texts).entries, e.1 = g ∧ s ∈ e.2) ↔
      cellKey g s ∈ selecting.texts := by
  have hmem : ∀ g, s ∈ ((cellsOf selecting.texts).filter fun key => key.gpuId = g).map
      SlotKey.slotIndex ↔ cellKey g s ∈ selecting.texts := by
    intro g
    rw [← mem_cellsOf]
    simp only [List.mem_map, List.mem_filter, decide_eq_true_eq]
    constructor
    · rintro ⟨key, ⟨hkey, rfl⟩, rfl⟩
      exact hkey
    · exact fun hkey => ⟨⟨g, s⟩, ⟨hkey, rfl⟩, rfl⟩
  constructor
  · rintro ⟨e, he, rfl, hs⟩
    rw [slots_eq he] at hs
    exact (hmem e.1).mp hs
  · intro hkey
    have hslots := Dict.getD_foldl_push (cellsOf selecting.texts) SlotKey.gpuId SlotKey.slotIndex
      .empty g
    rw [← slotsByGpu_eq, Dict.get?_empty, Option.getD_none, List.nil_append] at hslots
    have hs := (hmem g).mpr hkey
    rw [← hslots] at hs
    cases hget : (slotsByGpu selecting.texts).get? g with
    | none => simp [hget] at hs
    | some slots =>
        rw [hget, Option.getD_some] at hs
        exact ⟨(g, slots), Dict.get?_eq_some_iff.mp hget, rfl, hs⟩

/-- **The drafts** are apart, and cover what is selected and no more. -/
theorem selectionDrafts_partition (selecting : CellSet) :
    Partition selecting (selectionDrafts selecting) := by
  have hapart : (selectionDrafts selecting).Pairwise Apart := by
    rw [selectionDrafts_eq_draftsOf, List.pairwise_flatMap]
    refine ⟨fun e he => pairwise_draftsOf (nodup_slots he), ?_⟩
    refine (List.pairwise_map.mp (slotsByGpu selecting.texts).nodup).imp fun hne a ha b hb hgpu => ?_
    rw [gpuId_of_mem_draftsOf ha, gpuId_of_mem_draftsOf hb] at hgpu
    exact absurd hgpu hne
  refine ⟨fun draft hdraft => ?_, hapart.imp fun h => h.disjoint, hapart, fun k => ?_⟩
  · rw [selectionDrafts_eq_draftsOf] at hdraft
    obtain ⟨e, he, hdraft⟩ := List.mem_flatMap.mp hdraft
    exact run_of_mem_draftsOf (nodup_slots he) hdraft
  · constructor
    · intro hk
      obtain ⟨g, s, rfl⟩ := selecting.produced k hk
      obtain ⟨e, he, rfl, hs⟩ := exists_entry_iff.mpr hk
      obtain ⟨draft, hdraft, hspan⟩ := (exists_mem_draftsOf_iff e.1 (nodup_slots he)).mpr hs
      rw [selectionDrafts_eq_draftsOf]
      exact ⟨draft, List.mem_flatMap.mpr ⟨e, he, hdraft⟩,
        cellKey_mem_cells.mpr ⟨gpuId_of_mem_draftsOf hdraft, hspan⟩⟩
    · rintro ⟨draft, hdraft, hk⟩
      obtain ⟨s, hfirst, hlast, rfl⟩ := mem_cells.mp hk
      rw [selectionDrafts_eq_draftsOf] at hdraft
      obtain ⟨e, he, hdraft⟩ := List.mem_flatMap.mp hdraft
      rw [gpuId_of_mem_draftsOf hdraft]
      exact exists_entry_iff.mp ⟨e, he, rfl,
        (exists_mem_draftsOf_iff e.1 (nodup_slots he)).mp ⟨draft, hdraft, hfirst, hlast⟩⟩

end Selection

end SelectionDrafts

end CoreLab
