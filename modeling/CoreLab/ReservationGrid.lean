import CoreLab.Lib.Dict
import CoreLab.ReservationService
import Mathlib.Algebra.Order.BigOperators.Group.List
import Mathlib.Data.List.Sort

/-!
# CoreLab.ReservationGrid

The reservation grid of the web page: one cell for each hour of a day and each
GPU, the hours that a user selects, the drafts that they collapse to, and the
memory that the page lets a shared booking ask for.  The backend checks a draft
against every row that touches its window.

* `mem_selectionDrafts` — a draft spans selected hours only;
* `sharedSelectionMemoryCapMb_eq` — the cap is the least remainder of a selected hour;
* `agree_iff` — the grid's cap keeps the backend from refusing a draft for its memory
  exactly when the rows of each draft together leave no less than some selected hour does;
* `agree_of_commonHour`, `agree_of_oneHour` — that is so where the rows of a draft meet in
  one of its hours;
* `cap_of_own_selection` — the page itself never gets a cap;
* `not_agree` — rows in two hours of one draft are added up by the backend only.
-/

namespace CoreLab

open Relational

namespace ReservationGrid

/-! ## slots -/

def slotMinutes : Nat := 60

def slotsPerDay : Nat := 24

/-- In milliseconds, as the time value of a `Date`. -/
def slotMillis : Int := slotMinutes * 60000

/-- `new Date(iso)` of a stored time: digits after the milliseconds are dropped. -/
def newDate (t : Time) : Int := t / 1000

theorem newDate_lt_iff {t d : Int} : newDate t < d ↔ t < d * 1000 :=
  Int.ediv_lt_iff_lt_mul (by decide)

/-- The dropped digits count at an end only. -/
theorem lt_newDate_of_whole {t d : Int} (hwhole : t % 1000 = 0) (h : d * 1000 < t) : d < newDate t := by
  unfold newDate
  omega

/-- `toISOString`, as the backend reads it. -/
def toISOString (d : Int) : Datetime := .utc (d * 1000)

/-- A cell key. -/
structure SlotKey where
  gpuId : Nat
  slotIndex : Nat
deriving DecidableEq, Repr

/-- The start of a slot, of the day that starts at `dayStart`. -/
def slotStart (dayStart : Int) (slotIndex : Nat) : Int := dayStart + slotIndex * slotMillis

/-- `slotToIsoRange`. -/
def slotToIsoRange (dayStart : Int) (slotIndex : Nat) : Datetime × Datetime :=
  (toISOString (slotStart dayStart slotIndex),
   toISOString (slotStart dayStart slotIndex + slotMillis))

/-- `reservationCoversSlot`, a half-open overlap test. -/
def reservationCoversSlot (res : Reservation) (dayStart : Int) (slotIndex : Nat) : Bool :=
  decide (newDate res.startAt < slotStart dayStart slotIndex + slotMillis) &&
    decide (slotStart dayStart slotIndex < newDate res.endAt)

/-! ## the grid -/

inductive CellState where
  | idle | selecting | mineScheduled | mineActive | othersScheduled | othersActive
  | sharedRemaining | locked | disabledPast
deriving DecidableEq, Repr

structure DerivedCell where
  gpuId : Nat
  slotIndex : Nat
  state : CellState
  reservations : List Reservation
  isCrossNight : Bool
  sharedUsedMb : Nat
  gpuTotalMb : Nat
  sharedRemainingMb : Nat
deriving DecidableEq, Repr

/-- What the page shows. -/
structure Page where
  /-- `dayBounds(dayIso).start`. -/
  dayStart : Int
  gpus : Table Gpu
  /-- The GPUs of the visible columns. -/
  gpuIds : List Nat
  reservations : List Reservation
  currentUserId : Int
  now : Int
  crossNightGroupIds : List String := []

namespace Page

variable (p : Page)

/-- `gpuTotalMemoryMb[gpuId] ?? 0`. -/
def gpuTotalMb (gpuId : Nat) : Nat :=
  ((p.gpus.get? gpuId).map fun g => g.memoryTotalMb.getD 0).getD 0

/-- The rows that touch a slot. -/
def covers (key : SlotKey) : List Reservation :=
  p.reservations.filter fun r =>
    r.gpuId = some key.gpuId && reservationCoversSlot r p.dayStart key.slotIndex

/-- The state of a cell. -/
def cellState (selecting : List SlotKey) (key : SlotKey) : CellState :=
  let covers := p.covers key
  let exclusiveRows := covers.filter (·.gpuMemoryMb.isNone)
  let sharedRows := covers.filter (·.gpuMemoryMb.isSome)
  let sharedRemainingMb := p.gpuTotalMb key.gpuId - usedMemoryMb sharedRows
  let sharedHasRoom := 0 < p.gpuTotalMb key.gpuId ∧ sharedRows ≠ [] ∧ 0 < sharedRemainingMb
  let mine := covers.filter fun r => (r.userId : Int) = p.currentUserId
  let others := covers.filter fun r => (r.userId : Int) ≠ p.currentUserId
  if slotStart p.dayStart key.slotIndex ≤ p.now then .disabledPast
  else if covers = [] then if key ∈ selecting then .selecting else .idle
  else if mine ≠ [] then
    if mine.any (·.status = .active) then .mineActive else .mineScheduled
  else if key ∈ selecting then .selecting
  else if exclusiveRows = [] ∧ sharedHasRoom then .sharedRemaining
  else if others.any (·.status = .active) then .othersActive else .othersScheduled

/-- One cell of `buildGrid`. -/
def deriveCell (selecting : List SlotKey) (key : SlotKey) : DerivedCell :=
  let covers := p.covers key
  let sharedUsedMb := usedMemoryMb (covers.filter (·.gpuMemoryMb.isSome))
  { gpuId := key.gpuId
    slotIndex := key.slotIndex
    state := p.cellState selecting key
    reservations := covers
    isCrossNight := covers.any fun r => r.groupId.any fun g => p.crossNightGroupIds.contains g
    sharedUsedMb := sharedUsedMb
    gpuTotalMb := p.gpuTotalMb key.gpuId
    sharedRemainingMb := p.gpuTotalMb key.gpuId - sharedUsedMb }

/-- The keys of the grid, in the order of its loops. -/
def keys : List SlotKey :=
  p.gpuIds.flatMap fun gpuId => (List.range slotsPerDay).map fun slotIndex => ⟨gpuId, slotIndex⟩

/-- `buildGrid`. -/
def buildGrid (selecting : List SlotKey) : Dict SlotKey DerivedCell :=
  p.keys.foldl (fun cells key => cells.set key (p.deriveCell selecting key)) .empty

end Page

/-! ## the selection -/

/-- A `Set` of cell keys, in insertion order. -/
structure Selection where
  keys : List SlotKey
  nodup : keys.Nodup

structure SelectionDraft where
  gpuId : Nat
  firstSlot : Nat
  lastSlot : Nat
deriving DecidableEq, Repr

/-- The walk of `selectionDrafts` over the rest of the sorted slots. -/
def walkRuns (gpuId runStart prev : Nat) : List Nat → List SelectionDraft
  | [] => [⟨gpuId, runStart, prev⟩]
  | s :: slots =>
    if s = prev + 1 then walkRuns gpuId runStart s slots
    else ⟨gpuId, runStart, prev⟩ :: walkRuns gpuId s s slots

/-- The slots of each GPU, in the order they were selected in. -/
def slotsByGpu (selecting : Selection) : Dict Nat (List Nat) :=
  selecting.keys.foldl (fun byGpu key => byGpu.push key.gpuId key.slotIndex) .empty

/-- `selectionDrafts`. -/
def selectionDrafts (selecting : Selection) : List SelectionDraft :=
  (slotsByGpu selecting).entries.flatMap fun e =>
    match e.2.insertionSort (· ≤ ·) with
    | [] => []
    | first :: slots => walkRuns e.1 first first slots

/-- `draftToRange`. -/
def draftToRange (dayStart : Int) (draft : SelectionDraft) : Datetime × Datetime :=
  ((slotToIsoRange dayStart draft.firstSlot).1, (slotToIsoRange dayStart draft.lastSlot).2)

/-- The item that the page submits for a draft. -/
def draftItem (dayStart : Int) (serverId accountLinkId gpuMemoryMb : Nat)
    (draft : SelectionDraft) : ItemDraft where
  serverId := serverId
  gpuId := some draft.gpuId
  startAt := (draftToRange dayStart draft).1
  endAt := (draftToRange dayStart draft).2
  accountLinkId := accountLinkId
  gpuMemoryMb := some gpuMemoryMb

/-- The remainder of a selected cell, if it counts for the cap. -/
def remainingMb? (cells : Dict SlotKey DerivedCell) (key : SlotKey) : Option Nat :=
  (cells.get? key).bind fun cell =>
    if cell.state ≠ .sharedRemaining then none
    else if cell.sharedRemainingMb ≤ 0 then none
    else some cell.sharedRemainingMb

/-- `sharedSelectionMemoryCapMb`. -/
def sharedSelectionMemoryCapMb (selecting : Selection) (cells : Dict SlotKey DerivedCell) : Option Nat :=
  selecting.keys.foldl (fun cap key => match remainingMb? cells key with
    | none => cap
    | some remaining => match cap with
      | none => some remaining
      | some c => some (min c remaining)) none

/-! ## the backend's side -/

/-- `_window_active_reservations`, of the rows that the page shows. -/
def inWindow (reservations : List Reservation) (gpuId : Nat) (startAt endAt : Time) :
    List Reservation :=
  reservations.filter fun r =>
    r.gpuId = some gpuId && r.occupies && decide (r.startAt < endAt) && decide (startAt < r.endAt)

theorem windowActiveReservations_eq (db : Db) (gpuId : Nat) (startAt endAt : Time) :
    windowActiveReservations db gpuId startAt endAt = inWindow db.reservations.rows gpuId startAt endAt :=
  rfl

/-- The rows that the backend checks a draft against. -/
def Page.draftRows (p : Page) (draft : SelectionDraft) : List Reservation :=
  inWindow p.reservations draft.gpuId (draftToRange p.dayStart draft).1.stored
    (draftToRange p.dayStart draft).2.stored

/-- The conflict is a `memory_exceeded`. -/
def isMemoryExceeded (c : ConflictRecord) : Bool :=
  match c.type with
  | .memoryExceeded .. => true
  | _ => false

/-! ## the property -/

/-- Every selected cell is one that the grid shows as free or as shared with room. -/
def Selectable (p : Page) (shown : List SlotKey) (selecting : Selection) : Prop :=
  ∀ key ∈ selecting.keys, ((p.buildGrid shown).get? key).any fun cell =>
    cell.state = .idle ∨ cell.state = .sharedRemaining

instance (p : Page) (shown : List SlotKey) (selecting : Selection) :
    Decidable (Selectable p shown selecting) :=
  inferInstanceAs (Decidable (∀ key ∈ selecting.keys, ((p.buildGrid shown).get? key).any fun cell =>
    cell.state = .idle ∨ cell.state = .sharedRemaining))

/-- The memory that the page lets a draft of the selection ask for. -/
def Allowed (p : Page) (shown : List SlotKey) (selecting : Selection) (draft : SelectionDraft)
    (gpuMemoryMb : Nat) : Prop :=
  match sharedSelectionMemoryCapMb selecting (p.buildGrid shown) with
  | some cap => gpuMemoryMb ≤ cap
  | none => gpuMemoryMb ≤ p.gpuTotalMb draft.gpuId

/-- No draft that asks for allowed memory is refused for its memory. -/
def Agree (p : Page) (shown : List SlotKey) (selecting : Selection) : Prop :=
  ∀ draft ∈ selectionDrafts selecting, ∀ gpuMemoryMb, Allowed p shown selecting draft gpuMemoryMb →
    ∀ serverId accountLinkId gpu, p.gpus.get? draft.gpuId = some gpu →
      ∀ c ∈ classifyConflict (draftItem p.dayStart serverId accountLinkId gpuMemoryMb draft)
        (p.draftRows draft) gpu, isMemoryExceeded c = false

/-- The draft's window holds shared rows only, on a GPU of known memory. -/
def Contended (p : Page) (draft : SelectionDraft) : Prop :=
  p.draftRows draft ≠ [] ∧ (∀ r ∈ p.draftRows draft, r.gpuMemoryMb.isSome) ∧
    p.gpuTotalMb draft.gpuId ≠ 0

/-- The rows that touch the draft, all taken together, leave no less than the rows that
touch some selected hour; where no selected hour has a row, they use nothing. -/
def LeavesEnough (p : Page) (selecting : Selection) (draft : SelectionDraft) : Prop :=
  (∃ key ∈ selecting.keys, p.covers key ≠ [] ∧
    usedMemoryMb (p.draftRows draft) + (p.gpuTotalMb key.gpuId - usedMemoryMb (p.covers key)) ≤
      p.gpuTotalMb draft.gpuId) ∨
  (∀ key ∈ selecting.keys, p.covers key = []) ∧ usedMemoryMb (p.draftRows draft) = 0

/-! ## the cap -/

theorem foldl_cap (cells : Dict SlotKey DerivedCell) (keys : List SlotKey) (c : Nat) :
    keys.foldl (fun cap key => match remainingMb? cells key with
        | none => cap
        | some remaining => match cap with
          | none => some remaining
          | some c => some (min c remaining)) (some c) =
      some ((keys.filterMap (remainingMb? cells)).foldl min c) := by
  induction keys generalizing c with
  | nil => rfl
  | cons key keys ih =>
      rw [List.foldl_cons, List.filterMap_cons]
      cases hkey : remainingMb? cells key with
      | none => exact ih c
      | some remaining => exact ih (min c remaining)

/-- **The cap** is the least remainder of a selected cell that counts. -/
theorem sharedSelectionMemoryCapMb_eq (selecting : Selection) (cells : Dict SlotKey DerivedCell) :
    sharedSelectionMemoryCapMb selecting cells =
      (selecting.keys.filterMap (remainingMb? cells)).min? := by
  unfold sharedSelectionMemoryCapMb
  induction selecting.keys with
  | nil => rfl
  | cons key keys ih =>
      rw [List.foldl_cons, List.filterMap_cons]
      cases hkey : remainingMb? cells key with
      | none => exact ih
      | some remaining =>
          rw [List.min?_cons']
          exact foldl_cap cells keys remaining

/-- Rows without a memory of their own add nothing. -/
theorem usedMemoryMb_shared (rows : List Reservation) :
    usedMemoryMb (rows.filter (·.gpuMemoryMb.isSome)) = usedMemoryMb rows := by
  unfold usedMemoryMb
  induction rows with
  | nil => rfl
  | cons r rows ih =>
      rw [List.filter_cons]
      split
      · rw [List.map_cons, List.map_cons, List.sum_cons, List.sum_cons, ih]
      · next hnone =>
          rw [List.map_cons, List.sum_cons, ih]
          simp only [Bool.not_eq_true, Option.isSome_eq_false_iff, Option.isNone_iff_eq_none] at hnone
          rw [hnone, Option.getD_none, Nat.zero_add]

namespace Page

variable {p : Page} {shown : List SlotKey} {key : SlotKey}

theorem get?_buildGrid {cell : DerivedCell} (h : (p.buildGrid shown).get? key = some cell) :
    cell = p.deriveCell shown key := by
  by_cases hkey : key ∈ p.keys
  · have hset : (p.buildGrid shown).get? key = some (p.deriveCell shown key) :=
      Dict.get?_foldl_set ⟨key, hkey, rfl⟩ fun k _ hk => by rw [hk]
    exact Option.some.inj (h.symm.trans hset)
  · have hnone : (p.buildGrid shown).get? key = none :=
      Dict.get?_foldl_set_of_ne fun k hk heq => hkey (heq ▸ hk)
    rw [hnone] at h
    cases h

theorem covers_of_idle (h : p.cellState shown key = .idle) : p.covers key = [] := by
  by_contra hcovers
  simp only [cellState, if_neg hcovers] at h
  repeat' split at h
  all_goals cases h

theorem covers_of_sharedRemaining (h : p.cellState shown key = .sharedRemaining) :
    p.covers key ≠ [] ∧ 0 < p.gpuTotalMb key.gpuId - usedMemoryMb (p.covers key) := by
  by_cases hroom : (p.covers key).filter (·.gpuMemoryMb.isNone) = [] ∧
      0 < p.gpuTotalMb key.gpuId ∧ (p.covers key).filter (·.gpuMemoryMb.isSome) ≠ [] ∧
        0 < p.gpuTotalMb key.gpuId - usedMemoryMb ((p.covers key).filter (·.gpuMemoryMb.isSome))
  · rw [usedMemoryMb_shared] at hroom
    refine ⟨fun hnone => hroom.2.2.1 ?_, hroom.2.2.2⟩
    rw [hnone, List.filter_nil]
  · simp only [cellState, if_neg hroom] at h
    repeat' split at h
    all_goals cases h

/-- What a selected cell counts for: the remainder of an hour that has rows. -/
theorem remainingMb?_buildGrid {cell : DerivedCell} (hcell : (p.buildGrid shown).get? key = some cell)
    (hstate : cell.state = .idle ∨ cell.state = .sharedRemaining) :
    remainingMb? (p.buildGrid shown) key = if p.covers key = [] then none
      else some (p.gpuTotalMb key.gpuId - usedMemoryMb (p.covers key)) := by
  obtain rfl := get?_buildGrid hcell
  rw [remainingMb?, hcell, Option.bind_some]
  rcases hstate with hidle | hshared
  · rw [if_pos (by rw [hidle]; decide), if_pos (covers_of_idle hidle)]
  · obtain ⟨hcovers, hroom⟩ := covers_of_sharedRemaining hshared
    have hremaining : (p.deriveCell shown key).sharedRemainingMb =
        p.gpuTotalMb key.gpuId - usedMemoryMb (p.covers key) := by
      rw [← usedMemoryMb_shared]
      rfl
    rw [if_neg (not_not.mpr hshared), hremaining, if_neg (not_le.mpr hroom), if_neg hcovers]

end Page

/-! ## the two sides -/

/-- When the backend refuses a shared item for its memory. -/
theorem memoryExceeded_iff {item : ItemDraft} {rows : List Reservation} {gpu : Gpu} {gpuMemoryMb : Nat}
    (hitem : item.gpuMemoryMb = some gpuMemoryMb) :
    (∃ c ∈ classifyConflict item rows gpu, isMemoryExceeded c = true) ↔
      rows ≠ [] ∧ (∀ r ∈ rows, r.gpuMemoryMb.isSome) ∧ gpu.memoryTotalMb.getD 0 ≠ 0 ∧
        gpu.memoryTotalMb.getD 0 < usedMemoryMb rows + gpuMemoryMb := by
  have hshared : rows.filter (·.gpuMemoryMb.isNone) = [] ↔ ∀ r ∈ rows, r.gpuMemoryMb.isSome := by
    rw [List.filter_eq_nil_iff]
    exact forall₂_congr fun r _ => by simp [Option.isSome_iff_ne_none]
  unfold classifyConflict
  by_cases hrows : rows = []
  · simp [hrows]
  by_cases hexclusive : rows.filter (·.gpuMemoryMb.isNone) = []
  · have hall := hshared.mp hexclusive
    by_cases hover : gpu.memoryTotalMb.getD 0 ≠ 0 ∧
        gpu.memoryTotalMb.getD 0 < usedMemoryMb rows + gpuMemoryMb
    · simp only [if_neg hrows, hitem, hexclusive, ne_eq, not_true_eq_false, if_false]
      rw [if_pos hover]
      exact iff_of_true ⟨_, rfl, rfl⟩ ⟨hrows, hall, hover.1, hover.2⟩
    · simp only [if_neg hrows, hitem, hexclusive, ne_eq, not_true_eq_false, if_false]
      rw [if_neg hover]
      refine iff_of_false ?_ fun h => hover h.2.2
      rintro ⟨c, hc, hexceeded⟩
      cases hpct : item.gpuComputeSharePct with
      | none =>
          rw [hpct] at hc
          cases hc
      | some pct =>
          rw [hpct] at hc
          simp only [Option.mem_def, Option.ite_none_right_eq_some, Option.some.injEq] at hc
          obtain ⟨-, rfl⟩ := hc
          cases hexceeded
  · simp only [if_neg hrows, hitem]
    rw [if_pos hexclusive]
    refine iff_of_false ?_ fun h => hexclusive (hshared.mpr h.2.1)
    rintro ⟨c, hc, hexceeded⟩
    obtain rfl := Option.some.inj hc
    cases hexceeded

section Agree

variable {p : Page} {shown : List SlotKey} {selecting : Selection} {draft : SelectionDraft}

theorem gpuTotalMb_of_get? {gpuId : Nat} {gpu : Gpu} (h : p.gpus.get? gpuId = some gpu) :
    p.gpuTotalMb gpuId = gpu.memoryTotalMb.getD 0 := by
  rw [Page.gpuTotalMb, h]
  rfl

/-- The remainders that the cap is taken over. -/
theorem mem_remainders (hselectable : Selectable p shown selecting) {n : Nat} :
    n ∈ selecting.keys.filterMap (remainingMb? (p.buildGrid shown)) ↔
      ∃ key ∈ selecting.keys, p.covers key ≠ [] ∧
        p.gpuTotalMb key.gpuId - usedMemoryMb (p.covers key) = n := by
  rw [List.mem_filterMap]
  refine exists_congr fun key => and_congr_right fun hkey => ?_
  obtain ⟨cell, hcell, hstate⟩ := (Option.any_eq_true _ _).mp (hselectable key hkey)
  rw [Page.remainingMb?_buildGrid hcell (of_decide_eq_true hstate)]
  simp

/-- A draft whose rows leave enough is not refused for allowed memory. -/
theorem not_exceeded_of_leavesEnough (hselectable : Selectable p shown selecting) {gpuMemoryMb : Nat}
    (hallowed : Allowed p shown selecting draft gpuMemoryMb) (h : LeavesEnough p selecting draft) :
    usedMemoryMb (p.draftRows draft) + gpuMemoryMb ≤ p.gpuTotalMb draft.gpuId := by
  rw [Allowed, sharedSelectionMemoryCapMb_eq] at hallowed
  rcases h with ⟨key, hkey, hcovers, hleaves⟩ | ⟨hnone, hunused⟩
  · have hmem := (mem_remainders hselectable).mpr ⟨key, hkey, hcovers, rfl⟩
    cases hcap : (selecting.keys.filterMap (remainingMb? (p.buildGrid shown))).min? with
    | none =>
        rw [List.min?_eq_none_iff.mp hcap] at hmem
        cases hmem
    | some cap =>
        rw [hcap] at hallowed
        have hle := (List.min?_eq_some_iff.mp hcap).2 _ hmem
        have : gpuMemoryMb ≤ cap := hallowed
        omega
  · have hempty : selecting.keys.filterMap (remainingMb? (p.buildGrid shown)) = [] := by
      rw [List.eq_nil_iff_forall_not_mem]
      intro n hn
      obtain ⟨key, hkey, hcovers, -⟩ := (mem_remainders hselectable).mp hn
      exact hcovers (hnone key hkey)
    rw [hempty] at hallowed
    have : gpuMemoryMb ≤ p.gpuTotalMb draft.gpuId := hallowed
    omega

/-- A draft that fits with the most that is allowed leaves enough. -/
theorem leavesEnough_of_fits (hselectable : Selectable p shown selecting)
    (h : ∀ gpuMemoryMb, Allowed p shown selecting draft gpuMemoryMb →
      usedMemoryMb (p.draftRows draft) + gpuMemoryMb ≤ p.gpuTotalMb draft.gpuId) :
    LeavesEnough p selecting draft := by
  simp only [Allowed, sharedSelectionMemoryCapMb_eq] at h
  cases hcap : (selecting.keys.filterMap (remainingMb? (p.buildGrid shown))).min? with
  | none =>
      rw [hcap] at h
      refine Or.inr ⟨fun key hkey => ?_, ?_⟩
      · by_contra hcovers
        have hmem := (mem_remainders hselectable).mpr ⟨key, hkey, hcovers, rfl⟩
        rw [List.min?_eq_none_iff.mp hcap] at hmem
        cases hmem
      · have hfits := h _ (Nat.le_refl (p.gpuTotalMb draft.gpuId))
        omega
  | some cap =>
      rw [hcap] at h
      obtain ⟨key, hkey, hcovers, rfl⟩ :=
        (mem_remainders hselectable).mp (List.min?_eq_some_iff.mp hcap).1
      exact Or.inl ⟨key, hkey, hcovers, h _ (Nat.le_refl _)⟩

/-- **Grid and backend agree** on the memory of a selection exactly when the rows of each
draft, where they are shared and the GPU's memory is known, leave no less than the rows of
some selected hour. -/
theorem agree_iff (p : Page) (shown : List SlotKey) (selecting : Selection)
    (hselectable : Selectable p shown selecting) :
    Agree p shown selecting ↔
      ∀ draft ∈ selectionDrafts selecting, Contended p draft → LeavesEnough p selecting draft := by
  constructor
  · intro hagree draft hdraft ⟨hrows, hshared, htotal⟩
    refine leavesEnough_of_fits hselectable fun gpuMemoryMb hallowed => ?_
    by_contra hover
    cases hgpu : p.gpus.get? draft.gpuId with
    | none =>
        rw [Page.gpuTotalMb, hgpu] at htotal
        exact htotal rfl
    | some gpu =>
        rw [gpuTotalMb_of_get? hgpu] at htotal hover
        have hitem : (draftItem p.dayStart 0 0 gpuMemoryMb draft).gpuMemoryMb = some gpuMemoryMb := rfl
        obtain ⟨c, hc, hexceeded⟩ := (memoryExceeded_iff hitem).mpr
          ⟨hrows, hshared, htotal, not_le.mp hover⟩
        have hfine := hagree draft hdraft gpuMemoryMb hallowed 0 0 gpu hgpu c hc
        rw [hexceeded] at hfine
        cases hfine
  · intro henough draft hdraft gpuMemoryMb hallowed serverId accountLinkId gpu hgpu c hc
    rw [Bool.eq_false_iff]
    intro hexceeded
    obtain ⟨hrows, hshared, htotal, hover⟩ := (memoryExceeded_iff rfl).mp ⟨c, hc, hexceeded⟩
    rw [← gpuTotalMb_of_get? hgpu] at htotal hover
    have hfits := not_exceeded_of_leavesEnough hselectable hallowed
      (henough draft hdraft ⟨hrows, hshared, htotal⟩)
    omega

end Agree

/-! ## drafts -/

/-- Every slot between the ends of a draft is one of the walk. -/
theorem mem_walkRuns {gpuId runStart prev : Nat} {slots : List Nat} {draft : SelectionDraft}
    (hrun : runStart ≤ prev) (h : draft ∈ walkRuns gpuId runStart prev slots) :
    draft.gpuId = gpuId ∧ draft.firstSlot ≤ draft.lastSlot ∧
      ∀ s, draft.firstSlot ≤ s → s ≤ draft.lastSlot → runStart ≤ s ∧ s ≤ prev ∨ s ∈ slots := by
  induction slots generalizing runStart prev with
  | nil =>
      obtain rfl := List.mem_singleton.mp h
      exact ⟨rfl, hrun, fun s hfirst hlast => Or.inl ⟨hfirst, hlast⟩⟩
  | cons next slots ih =>
      rw [walkRuns] at h
      split at h
      · next hnext =>
          obtain ⟨hgpu, hle, hslots⟩ := ih (by omega) h
          refine ⟨hgpu, hle, fun s hfirst hlast => ?_⟩
          rcases hslots s hfirst hlast with ⟨hs, hs'⟩ | hmem
          · rcases Nat.lt_or_ge prev s with hnew | hold
            · obtain rfl : s = next := by omega
              exact Or.inr List.mem_cons_self
            · exact Or.inl ⟨hs, hold⟩
          · exact Or.inr (List.mem_cons_of_mem _ hmem)
      · rcases List.mem_cons.mp h with rfl | hrest
        · exact ⟨rfl, hrun, fun s hfirst hlast => Or.inl ⟨hfirst, hlast⟩⟩
        · obtain ⟨hgpu, hle, hslots⟩ := ih (Nat.le_refl next) hrest
          refine ⟨hgpu, hle, fun s hfirst hlast => Or.inr ?_⟩
          rcases hslots s hfirst hlast with ⟨hs, hs'⟩ | hmem
          · obtain rfl : s = next := by omega
            exact List.mem_cons_self
          · exact List.mem_cons_of_mem _ hmem

theorem mem_slotsByGpu {selecting : Selection} {e : Nat × List Nat} {s : Nat}
    (he : e ∈ (slotsByGpu selecting).entries) (hs : s ∈ e.2) : ⟨e.1, s⟩ ∈ selecting.keys := by
  have hslots := Dict.getD_foldl_push selecting.keys SlotKey.gpuId SlotKey.slotIndex .empty e.1
  have hget : (slotsByGpu selecting).get? e.1 = some e.2 := Dict.get?_eq_some_iff.mpr he
  rw [slotsByGpu] at hget
  rw [hget, Option.getD_some, Dict.get?_empty, Option.getD_none, List.nil_append] at hslots
  rw [hslots] at hs
  obtain ⟨key, hkey, rfl⟩ := List.mem_map.mp hs
  obtain ⟨hkey, hgpu⟩ := List.mem_filter.mp hkey
  rw [← of_decide_eq_true hgpu]
  exact hkey

/-- **A draft** spans selected hours only. -/
theorem mem_selectionDrafts {selecting : Selection} {draft : SelectionDraft}
    (h : draft ∈ selectionDrafts selecting) : draft.firstSlot ≤ draft.lastSlot ∧
      ∀ s, draft.firstSlot ≤ s → s ≤ draft.lastSlot → ⟨draft.gpuId, s⟩ ∈ selecting.keys := by
  obtain ⟨e, he, hdraft⟩ := List.mem_flatMap.mp h
  have hsorted : ∀ s, s ∈ e.2.insertionSort (· ≤ ·) ↔ s ∈ e.2 := fun s => List.mem_insertionSort _
  split at hdraft
  · cases hdraft
  · next first slots hslots =>
      obtain ⟨hgpu, hle, hspan⟩ := mem_walkRuns (Nat.le_refl first) hdraft
      refine ⟨hle, fun s hfirst hlast => ?_⟩
      rw [hgpu]
      refine mem_slotsByGpu he ((hsorted s).mp ?_)
      rw [hslots]
      rcases hspan s hfirst hlast with ⟨hs, hs'⟩ | hmem
      · exact List.mem_cons.mpr (Or.inl (Nat.le_antisymm hs' hs))
      · exact List.mem_cons_of_mem _ hmem

/-! ## where the two sides agree -/

section Meeting

variable {p : Page} {shown : List SlotKey} {selecting : Selection} {draft : SelectionDraft}

theorem usedMemoryMb_sublist {rows rows' : List Reservation} (h : rows.Sublist rows') :
    usedMemoryMb rows ≤ usedMemoryMb rows' :=
  (h.map _).sum_le_sum fun _ _ => Nat.zero_le _

/-- Rows of a draft that all touch one hour are among the rows of that hour. -/
theorem draftRows_sublist_covers {s : Nat}
    (h : ∀ r ∈ p.draftRows draft, reservationCoversSlot r p.dayStart s = true) :
    (p.draftRows draft).Sublist (p.covers ⟨draft.gpuId, s⟩) := by
  have hcover : ∀ r ∈ p.draftRows draft,
      (decide (r.gpuId = some draft.gpuId) && reservationCoversSlot r p.dayStart s) = true := by
    intro r hr
    have hrow := (List.mem_filter.mp hr).2
    simp only [Bool.and_eq_true] at hrow
    rw [hrow.1.1.1, h r hr, Bool.and_true]
  rw [← List.filter_eq_self.mpr hcover, Page.draftRows, inWindow, List.filter_filter]
  exact List.monotone_filter_right _ fun r hr => (Bool.and_eq_true_iff.mp hr).1

/-- **Rows that meet in an hour of their draft** are counted alike on both sides. -/
theorem agree_of_commonHour (hselectable : Selectable p shown selecting)
    (hmeet : ∀ draft ∈ selectionDrafts selecting, p.draftRows draft ≠ [] →
      ∃ s, draft.firstSlot ≤ s ∧ s ≤ draft.lastSlot ∧
        ∀ r ∈ p.draftRows draft, reservationCoversSlot r p.dayStart s = true) :
    Agree p shown selecting := by
  refine (agree_iff p shown selecting hselectable).mpr fun draft hdraft hcontended => ?_
  obtain ⟨s, hfirst, hlast, hcover⟩ := hmeet draft hdraft hcontended.1
  have hkey := (mem_selectionDrafts hdraft).2 s hfirst hlast
  have hsub := draftRows_sublist_covers hcover
  have hcovers : p.covers ⟨draft.gpuId, s⟩ ≠ [] := fun hnone =>
    hcontended.1 (List.sublist_nil.mp (hnone ▸ hsub))
  obtain ⟨cell, hcell, hstate⟩ := (Option.any_eq_true _ _).mp (hselectable _ hkey)
  obtain rfl := Page.get?_buildGrid hcell
  have hroom := (of_decide_eq_true hstate).elim
    (fun hidle => absurd (Page.covers_of_idle hidle) hcovers)
    (fun hshared => (Page.covers_of_sharedRemaining hshared).2)
  have hused := usedMemoryMb_sublist hsub
  refine Or.inl ⟨_, hkey, hcovers, ?_⟩
  have hroom' : 0 < p.gpuTotalMb draft.gpuId - usedMemoryMb (p.covers ⟨draft.gpuId, s⟩) := hroom
  show usedMemoryMb (p.draftRows draft) +
    (p.gpuTotalMb draft.gpuId - usedMemoryMb (p.covers ⟨draft.gpuId, s⟩)) ≤ p.gpuTotalMb draft.gpuId
  omega

/-- A row that ends on a whole millisecond meets a draft of one hour in that hour. -/
theorem covers_of_mem_draftRows {r : Reservation} (hone : draft.firstSlot = draft.lastSlot)
    (hwhole : r.endAt % 1000 = 0) (hr : r ∈ p.draftRows draft) :
    reservationCoversSlot r p.dayStart draft.firstSlot = true := by
  have hrow := (List.mem_filter.mp hr).2
  simp only [draftToRange, slotToIsoRange, toISOString, Datetime.utc, Datetime.stored, ← hone,
    Bool.and_eq_true, decide_eq_true_eq] at hrow
  have hstart : newDate r.startAt < slotStart p.dayStart draft.firstSlot + slotMillis :=
    newDate_lt_iff.mpr hrow.1.2
  have hend : slotStart p.dayStart draft.firstSlot < newDate r.endAt :=
    lt_newDate_of_whole hwhole hrow.2
  rw [reservationCoversSlot, decide_eq_true hstart, decide_eq_true hend, Bool.and_true]

/-- Drafts of one hour are counted alike, where the rows end on whole milliseconds. -/
theorem agree_of_oneHour (hselectable : Selectable p shown selecting)
    (hone : ∀ draft ∈ selectionDrafts selecting, draft.firstSlot = draft.lastSlot)
    (hwhole : ∀ r ∈ p.reservations, r.endAt % 1000 = 0) : Agree p shown selecting := by
  refine agree_of_commonHour hselectable fun draft hdraft _ =>
    ⟨draft.firstSlot, Nat.le_refl _, (hone draft hdraft).le, fun r hr => ?_⟩
  exact covers_of_mem_draftRows (hone draft hdraft) (hwhole r (List.mem_of_mem_filter hr)) hr

/-- The page builds its grid with the selection itself: no selected cell counts, and there
is no cap. -/
theorem cap_of_own_selection (p : Page) (selecting : Selection) :
    sharedSelectionMemoryCapMb selecting (p.buildGrid selecting.keys) = none := by
  rw [sharedSelectionMemoryCapMb_eq, List.min?_eq_none_iff, List.filterMap_eq_nil_iff]
  intro key hkey
  cases hcell : (p.buildGrid selecting.keys).get? key with
  | none =>
      rw [remainingMb?, hcell]
      rfl
  | some cell =>
      obtain rfl := Page.get?_buildGrid hcell
      have hstate : (p.deriveCell selecting.keys key).state ≠ .sharedRemaining := by
        simp only [Page.deriveCell, Page.cellState, if_pos hkey]
        repeat' split
        all_goals decide
      rw [remainingMb?, hcell, Option.bind_some, if_pos hstate]

end Meeting

/-! ## two hours -/

/-- Half of the card, shared, for an hour. -/
def halfCard (id : Nat) (hour : Int) : Reservation :=
  { id := id, userId := 7, serverId := 1, gpuId := some 11, accountLinkId := 31, groupId := none
    startAt := hour * hourMicros, endAt := (hour + 1) * hourMicros, status := .scheduled
    gpuMemoryMb := some 40960, gpuComputeSharePct := none, script := none
    scriptScheduledStartAt := none, scriptMaxRuntimeSeconds := none }

/-- The page of a day, with one card. -/
def dayPage (reservations : List Reservation) : Page where
  dayStart := 0
  gpus := ⟨[{ id := 11, serverId := 1, gpuIndex := 0, memoryTotalMb := some 81920 }], by decide⟩
  gpuIds := [11]
  reservations := reservations
  currentUserId := 1
  now := -1

/-- Two hours of the card are selected. -/
def twoHours : Selection := ⟨[⟨11, 10⟩, ⟨11, 11⟩], by decide⟩

/-- One shared hour next to a free one. -/
theorem agree_iff_oneRow :
    Agree (dayPage [halfCard 1 10]) [] twoHours ↔ ∀ draft ∈ selectionDrafts twoHours,
      Contended (dayPage [halfCard 1 10]) draft → LeavesEnough (dayPage [halfCard 1 10]) twoHours draft :=
  agree_iff (dayPage [halfCard 1 10]) [] twoHours (by decide +kernel)

/-- Two shared hours after one another: each leaves half of the card, and the backend finds
none left for a booking of both. -/
theorem not_agree : ¬ ∀ (p : Page) (shown : List SlotKey) (selecting : Selection),
    Selectable p shown selecting → Agree p shown selecting := by
  intro hall
  have hagree := hall (dayPage [halfCard 1 10, halfCard 2 11]) [] twoHours (by decide +kernel)
  have hcap : sharedSelectionMemoryCapMb twoHours
      ((dayPage [halfCard 1 10, halfCard 2 11]).buildGrid []) = some 40960 := by
    decide +kernel
  have hallowed : Allowed (dayPage [halfCard 1 10, halfCard 2 11]) [] twoHours ⟨11, 10, 11⟩ 40960 := by
    rw [Allowed, hcap]
  have hfine := hagree ⟨11, 10, 11⟩ (by decide +kernel) 40960 hallowed 1 31
    { id := 11, serverId := 1, gpuIndex := 0, memoryTotalMb := some 81920 } (by decide +kernel)
    ⟨.memoryExceeded 81920 40960 81920, [1, 2]⟩ (by decide +kernel)
  cases hfine

end ReservationGrid

end CoreLab
