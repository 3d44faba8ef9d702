import CoreLab.Capacity
import CoreLab.Lib.Dict
import Mathlib.Data.Finset.Card
import Mathlib.Data.List.Sort
import Mathlib.Tactic.Linarith

/-!
# CoreLab.Recommender

The recommender's sweep over one server: the boundaries of all busy intervals
in order, a set of the cards that count as free, and the first stretch during
which enough of them do.  The cards of the candidate are picked afterwards, at
its first instant only.

* `apply_freeAfter` — the free set holds the cards whose last event let them in;
* `bookable_of_sound` — a candidate that is free throughout can be booked;
* `mem_recommend` — the candidates of `recommend` are those of its sweeps.
-/

namespace CoreLab

open Relational Loops

/-! ## the sweep -/

/-- A busy interval `[start, end)`. -/
abbrev Busy := Time × Time

/-- The arguments of `_earliest_window_for_server`. -/
structure SweepRequest where
  gpuIds : List Nat
  /-- `busy_by_gpu.get(gpu_id, [])`. -/
  busyByGpu : Nat → List Busy
  windowStart : Time
  windowEnd : Time
  gpuCount : Nat
  duration : Int

/-- One event: a card leaves the free set (`-1`) or enters it (`+1`). -/
structure Event where
  time : Time
  delta : Int
  gpuId : Nat
deriving DecidableEq, Repr

/-- What a server offers. -/
structure CandidateWindow where
  gpuIds : List Nat
  startAt : Time
  endAt : Time
deriving DecidableEq, Repr

/-- `b_start <= at_time < b_end`. -/
def Busy.contains (t : Time) (b : Busy) : Bool := decide (b.1 ≤ t) && decide (t < b.2)

/-- The order of the sweep: by time, leaving before entering. -/
def Event.before (a b : Event) : Prop := a.time < b.time ∨ a.time = b.time ∧ a.delta ≤ b.delta

instance : DecidableRel Event.before := fun _ _ => inferInstanceAs (Decidable (_ ∨ _ ∧ _))

/-- The events of the busy intervals, sorted. -/
def SweepRequest.events (req : SweepRequest) : List Event :=
  (req.gpuIds.flatMap fun g => (req.busyByGpu g).flatMap fun b =>
    [⟨b.1, -1, g⟩, ⟨b.2, 1, g⟩]).insertionSort Event.before

/-- The cards that are free at the start of the window. -/
def SweepRequest.initialFree (req : SweepRequest) : Finset Nat :=
  req.gpuIds.toFinset.filter fun g => !(req.busyByGpu g).any (Busy.contains req.windowStart)

/-- Apply an event to the free set. -/
def Event.apply (e : Event) (free : Finset Nat) : Finset Nat :=
  if e.delta = -1 then free.erase e.gpuId else insert e.gpuId free

/-- After the events: an open candidate is accepted if it is long enough. -/
def acceptOpen (req : SweepRequest) (candidateStart : Option Time) : Option Time :=
  candidateStart.filter fun s => decide (req.duration ≤ req.windowEnd - s)

/-- The loop over the events, and the start of the span it returns. -/
def sweep (req : SweepRequest) : List Event → Finset Nat → Option Time → Option Time
  | [], _, candidateStart => acceptOpen req candidateStart
  | e :: es, free, candidateStart =>
    let free := e.apply free
    let hasEnough := decide (req.gpuCount ≤ free.card)
    let continueWith (candidateStart : Option Time) : Option Time :=
      if req.windowEnd ≤ e.time then acceptOpen req candidateStart
      else sweep req es free candidateStart
    match candidateStart, hasEnough with
    | none, true => continueWith (some e.time)
    | none, false => continueWith none
    | some s, true => continueWith (some s)
    | some s, false => if req.duration ≤ e.time - s then some s else continueWith none

/-- `_pick_first_n`: the loop stops when enough cards are picked. -/
def pickFirstN (busyByGpu : Nat → List Busy) (n : Nat) (atTime : Time) (picked : List Nat) :
    List Nat → List Nat
  | [] => picked
  | g :: gs =>
    if (busyByGpu g).any (Busy.contains atTime) then pickFirstN busyByGpu n atTime picked gs
    else if (picked ++ [g]).length = n then picked ++ [g]
    else pickFirstN busyByGpu n atTime (picked ++ [g]) gs

/-- `_earliest_window_for_server`. -/
def earliestWindowForServer (req : SweepRequest) : Option CandidateWindow :=
  let candidateStart :=
    if req.gpuCount ≤ req.initialFree.card then some req.windowStart else none
  (sweep req req.events req.initialFree candidateStart).map fun s =>
    { gpuIds := pickFirstN req.busyByGpu req.gpuCount s [] req.gpuIds
      startAt := s
      endAt := s + req.duration }

/-! ## what the sweep looks at -/

/-- A card counts as free after some events: its last one entered the free set,
or it has none and is free at the start of the window. -/
def SweepRequest.countsAsFree (req : SweepRequest) (past : List Event) (g : Nat) : Bool :=
  match (past.filter fun e => e.gpuId = g).getLast? with
  | none => !(req.busyByGpu g).any (Busy.contains req.windowStart)
  | some e => decide (e.delta ≠ -1)

section Sweep

variable (req : SweepRequest)

/-- The cards that count as free, as the set the sweep keeps. -/
def SweepRequest.freeAfter (past : List Event) : Finset Nat :=
  req.gpuIds.toFinset.filter fun g => req.countsAsFree past g

theorem countsAsFree_snoc (past : List Event) (e : Event) (g : Nat) :
    req.countsAsFree (past ++ [e]) g =
      if e.gpuId = g then decide (e.delta ≠ -1) else req.countsAsFree past g := by
  unfold SweepRequest.countsAsFree
  rw [List.filter_append]
  by_cases hg : e.gpuId = g
  · simp [hg]
  · simp [hg]

/-- An event of one of the cards moves that card only. -/
theorem apply_freeAfter {past : List Event} {e : Event} (he : e.gpuId ∈ req.gpuIds) :
    e.apply (req.freeAfter past) = req.freeAfter (past ++ [e]) := by
  ext g
  unfold Event.apply SweepRequest.freeAfter
  by_cases hg : e.gpuId = g
  · subst hg
    by_cases hd : e.delta = -1 <;> simp [hd, countsAsFree_snoc, he]
  · have hne : g ≠ e.gpuId := fun h => hg h.symm
    by_cases hd : e.delta = -1 <;> simp [hd, countsAsFree_snoc, hg, hne]

/-- The events are of the cards. -/
theorem gpuId_of_mem_events {e : Event} (h : e ∈ req.events) : e.gpuId ∈ req.gpuIds := by
  rw [SweepRequest.events, List.mem_insertionSort, List.mem_flatMap] at h
  obtain ⟨g, hg, h⟩ := h
  obtain ⟨b, -, h⟩ := List.mem_flatMap.mp h
  rcases List.mem_cons.mp h with rfl | h
  · exact hg
  · obtain rfl := List.mem_singleton.mp h
    exact hg

end Sweep

/-! ## the picked cards -/

/-- The cards that no interval covers at an instant, in order. -/
def SweepRequest.freeAt (req : SweepRequest) (t : Time) : List Nat :=
  req.gpuIds.filter fun g => !(req.busyByGpu g).any (Busy.contains t)

/-- The loop that picks takes the first free cards. -/
theorem pickFirstN_eq {busyByGpu : Nat → List Busy} {n : Nat} {atTime : Time} {picked gs : List Nat}
    (h : picked.length < n) :
    pickFirstN busyByGpu n atTime picked gs =
      picked ++ (gs.filter fun g => !(busyByGpu g).any (Busy.contains atTime)).take
        (n - picked.length) := by
  induction gs generalizing picked with
  | nil => simp [pickFirstN]
  | cons g gs ih =>
      rw [pickFirstN]
      cases hbusy : (busyByGpu g).any (Busy.contains atTime) with
      | true =>
          rw [if_pos rfl, ih h]
          simp [hbusy]
      | false =>
          obtain ⟨k, hk⟩ : ∃ k, n - picked.length = k + 1 := ⟨n - picked.length - 1, by omega⟩
          have hfree : (g :: gs).filter (fun g => !(busyByGpu g).any (Busy.contains atTime)) =
              g :: gs.filter fun g => !(busyByGpu g).any (Busy.contains atTime) := by
            simp [hbusy]
          rw [if_neg Bool.false_ne_true, hfree, hk, List.take_succ_cons, List.length_append,
            List.length_singleton]
          split
          · next hfull =>
              obtain rfl : k = 0 := by omega
              rw [List.take_zero]
          · next hmore =>
              have hlen : (picked ++ [g]).length < n := by
                rw [List.length_append, List.length_singleton]
                omega
              rw [ih hlen, List.length_append, List.length_singleton,
                show n - (picked.length + 1) = k by omega, List.append_assoc]
              rfl

/-- What a server's candidate promises: the asked number of its cards, none of
them busy during the window. -/
structure Sound (req : SweepRequest) (c : CandidateWindow) : Prop where
  count : c.gpuIds.length = req.gpuCount
  nodup : c.gpuIds.Nodup
  cards : ∀ g ∈ c.gpuIds, g ∈ req.gpuIds
  free : ∀ g ∈ c.gpuIds, ∀ b ∈ req.busyByGpu g, ∀ t, c.startAt ≤ t → t < c.endAt →
    b.contains t = false

/-- The candidate that starts at `s`. -/
def SweepRequest.candidateAt (req : SweepRequest) (s : Time) : CandidateWindow :=
  { gpuIds := (req.freeAt s).take req.gpuCount, startAt := s, endAt := s + req.duration }

/-! ## booking the candidate -/

/-- The busy intervals of a card, clipped to the window of the search. -/
def clippedBusy (db : Db) (searchStart horizonEnd : Time) (gpuId : Nat) : List Busy :=
  ((windowActiveReservations db gpuId searchStart horizonEnd).insertionSort
    fun r s => r.startAt ≤ s.startAt).map
      fun r => (max r.startAt searchStart, min r.endAt horizonEnd)

/-- The request was made from the database: its cards are there, and their busy
intervals are those of the reservations, in a window that does not end before
it starts and for a positive duration. -/
structure FromDb (db : Db) (req : SweepRequest) : Prop where
  gpus : ∀ g ∈ req.gpuIds, (db.gpus.get? g).isSome = true
  checks : ∀ r ∈ db.reservations, r.checks = true
  busy : ∀ g ∈ req.gpuIds, req.busyByGpu g = clippedBusy db req.windowStart req.windowEnd g
  window : req.windowStart ≤ req.windowEnd
  duration : 0 < req.duration

/-- Booking every card of the candidate for itself meets no conflict. -/
def Bookable (db : Db) (c : CandidateWindow) : Prop :=
  ∀ item : ItemDraft, (∃ g ∈ c.gpuIds, item.gpuId = some g) → item.startAt.stored = c.startAt →
    item.endAt.stored = c.endAt → item.gpuMemoryMb = none → checkItemConflict db item = .ok ()

section FromDb

variable {db : Db} {req : SweepRequest} (hdb : FromDb db req)
include hdb

theorem mem_busyByGpu {g : Nat} (hg : g ∈ req.gpuIds) {b : Busy} :
    b ∈ req.busyByGpu g ↔
      ∃ r ∈ windowActiveReservations db g req.windowStart req.windowEnd,
        (max r.startAt req.windowStart, min r.endAt req.windowEnd) = b := by
  rw [hdb.busy g hg, clippedBusy, List.mem_map]
  simp only [List.mem_insertionSort]

/-- **A sound candidate can be booked** in the same database: a row that the
conflict check finds is busy at some instant of the window. -/
theorem bookable_of_sound {s : Time} (hlow : req.windowStart ≤ s)
    (hhigh : s + req.duration ≤ req.windowEnd) (hsound : Sound req (req.candidateAt s)) :
    Bookable db (req.candidateAt s) := by
  rintro item ⟨g, hg, hitem⟩ hstart hend hmem
  have hcard := hsound.cards g hg
  obtain ⟨gpu, hgpu⟩ := Option.isSome_iff_exists.mp (hdb.gpus g hcard)
  rw [checkItemConflict_eq_ok_iff]
  intro gpuId hid
  obtain rfl := Option.some.inj (hitem.symm.trans hid)
  refine ⟨gpu, hgpu, ?_⟩
  have hempty : windowActiveReservations db g item.startAt.stored item.endAt.stored = [] := by
    rw [hstart, hend, List.eq_nil_iff_forall_not_mem]
    intro r hr
    simp only [windowActiveReservations, List.mem_filter, Bool.and_eq_true, decide_eq_true_eq] at hr
    obtain ⟨hr, ⟨hocc, hrs⟩, hre⟩ := hr
    have hs : (req.candidateAt s).startAt = s := rfl
    have he : (req.candidateAt s).endAt = s + req.duration := rfl
    rw [he] at hrs
    rw [hs] at hre
    have hrow := window_of_checks (hdb.checks r hr)
    have hpos := hdb.duration
    -- at the later of the two starts the row is busy inside the window
    have hbusy : (max r.startAt req.windowStart, min r.endAt req.windowEnd) ∈ req.busyByGpu g := by
      rw [mem_busyByGpu hdb hcard]
      refine ⟨r, ?_, rfl⟩
      simp only [windowActiveReservations, List.mem_filter, Bool.and_eq_true, decide_eq_true_eq]
      exact ⟨hr, ⟨hocc, by linarith⟩, by linarith⟩
    have hfree := hsound.free g hg _ hbusy (max r.startAt s) (by rw [hs]; exact le_max_right _ _)
      (by rw [he]; exact max_lt hrs (by linarith))
    have hcover : Busy.contains (max r.startAt s)
        (max r.startAt req.windowStart, min r.endAt req.windowEnd) = true := by
      rw [Busy.contains, Bool.and_eq_true, decide_eq_true_eq, decide_eq_true_eq]
      refine ⟨max_le_max_left _ hlow, max_lt ?_ ?_⟩
      · exact lt_min hrow (by linarith)
      · exact lt_min hre (by linarith)
    rw [hcover] at hfree
    cases hfree
  rw [hempty, classifyConflict, if_pos rfl]

end FromDb

/-! ## all servers of a lab -/

/-- `HORIZON_DAYS`. -/
def horizonDays : Nat := 7

/-- The request for some cards, with the busy intervals of the database. -/
def SweepRequest.ofDb (db : Db) (gpuIds : List Nat) (gpuCount : Nat) (duration : Int)
    (searchStart : Time) : SweepRequest :=
  let horizonEnd := searchStart + horizonDays * (24 * hourMicros)
  { gpuIds := gpuIds, busyByGpu := clippedBusy db searchStart horizonEnd, windowStart := searchStart
    windowEnd := horizonEnd, gpuCount := gpuCount, duration := duration }

/-- The cards the first query selects, by server and index. -/
def selectedGpus (db : Db) (selected : Gpu → Bool) : List Gpu :=
  (db.gpus.rows.filter selected).insertionSort fun g h =>
    g.serverId < h.serverId ∨ g.serverId = h.serverId ∧ g.gpuIndex ≤ h.gpuIndex

/-- The cards of each server. -/
def gpusByServer (gpuRows : List Gpu) : Dict Nat (List Nat) :=
  gpuRows.foldl (fun d g => d.push g.serverId g.id) .empty

/-- `recommend`, from an instant on; `selected` is the filter of its first query:
an active card of an active server of the lab that is online or offline.
`none` is the `ValueError` for a count or a time limit that is too small. -/
def recommend (db : Db) (selected : Gpu → Bool) (gpuCount timeLimitSeconds : Nat)
    (searchStart : Time) (topK : Nat) : Option (List (Nat × CandidateWindow)) :=
  if gpuCount < 1 ∨ timeLimitSeconds < 60 then none
  else
    let eligible := (gpusByServer (selectedGpus db selected)).entries.filter
      fun e => decide (gpuCount ≤ e.2.length)
    let candidates := eligible.filterMap fun (serverId, gids) =>
      (earliestWindowForServer (.ofDb db gids gpuCount (timeLimitSeconds * secondMicros)
        searchStart)).map fun c => (serverId, c)
    some ((candidates.insertionSort fun a b => a.2.startAt ≤ b.2.startAt).take topK)

/-- The request made for some of the table's cards is one from the database. -/
theorem fromDb_ofDb {db : Db} (hchecks : ∀ r ∈ db.reservations, r.checks = true)
    {gpuIds : List Nat} (hgpus : ∀ g ∈ gpuIds, ∃ gpu ∈ db.gpus, gpu.id = g) {gpuCount : Nat}
    {duration : Int} (hpos : 0 < duration) (searchStart : Time) :
    FromDb db (.ofDb db gpuIds gpuCount duration searchStart) := by
  refine ⟨fun g hg => ?_, hchecks, fun _ _ => rfl, ?_, hpos⟩
  · obtain ⟨gpu, hgpu, rfl⟩ := hgpus g hg
    have hget : db.gpus.get? gpu.id = some gpu := Table.get?_key hgpu
    rw [hget, Option.isSome_some]
  · show searchStart ≤ searchStart + horizonDays * (24 * hourMicros)
    have : (0 : Int) ≤ (horizonDays : Int) * (24 * hourMicros) := by decide
    linarith

/-- **What `recommend` returns**: each of its candidates is that of a sweep over
enough cards of one server, which are distinct and in the table. -/
theorem mem_recommend {db : Db} {selected : Gpu → Bool} {gpuCount timeLimitSeconds : Nat}
    {searchStart : Time} {topK : Nat} {found : List (Nat × CandidateWindow)}
    (h : recommend db selected gpuCount timeLimitSeconds searchStart topK = some found)
    {serverId : Nat} {c : CandidateWindow} (hc : (serverId, c) ∈ found) :
    1 ≤ gpuCount ∧ 60 ≤ timeLimitSeconds ∧ ∃ gids : List Nat, gids.Nodup ∧
      (∀ g ∈ gids, ∃ gpu ∈ db.gpus, gpu.id = g ∧ gpu.serverId = serverId) ∧
      earliestWindowForServer (.ofDb db gids gpuCount (timeLimitSeconds * secondMicros)
        searchStart) = some c := by
  unfold recommend at h
  split at h
  · cases h
  next hargs =>
  obtain rfl := Option.some.inj h
  have hmem := List.mem_of_mem_take hc
  rw [List.mem_insertionSort, List.mem_filterMap] at hmem
  obtain ⟨⟨server, gids⟩, he, hcand⟩ := hmem
  obtain ⟨c', hc', heq⟩ := Option.map_eq_some_iff.mp hcand
  obtain ⟨rfl, rfl⟩ := Prod.mk.inj heq
  have hentry := List.mem_of_mem_filter he
  -- the cards under a server are those selected on it, in order
  have hgids : gids = ((selectedGpus db selected).filter fun g => g.serverId = server).map (·.id) := by
    have hget := Dict.getD_foldl_push (selectedGpus db selected) (fun g => g.serverId)
      (fun g => g.id) .empty server
    rw [Dict.get?_empty, Option.getD_none, List.nil_append] at hget
    rw [← hget]
    exact (congrArg (Option.getD · []) (Dict.get?_eq_some_iff.mpr hentry)).symm
  have hperm : (selectedGpus db selected).Perm (db.gpus.rows.filter selected) :=
    List.perm_insertionSort _ _
  refine ⟨by omega, by omega, gids, ?_, fun g hg => ?_, hc'⟩
  · rw [hgids]
    have hnd : ((selectedGpus db selected).map (·.id)).Nodup :=
      (hperm.map _).nodup_iff.mpr (db.gpus.nodup.sublist (List.filter_sublist.map _))
    exact hnd.sublist (List.filter_sublist.map _)
  · rw [hgids] at hg
    obtain ⟨gpu, hgpu, rfl⟩ := List.mem_map.mp hg
    obtain ⟨hsel, hserver⟩ := List.mem_filter.mp hgpu
    exact ⟨gpu, List.mem_of_mem_filter (hperm.mem_iff.mp hsel), rfl, by simpa using hserver⟩

end CoreLab
