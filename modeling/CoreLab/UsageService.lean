import CoreLab.Models
import CoreLab.Lib.GroupBy
import Mathlib.Algebra.Order.Field.Rat
import Mathlib.Tactic.FieldSimp
import Mathlib.Tactic.Linarith

/-!
# CoreLab.UsageService

The GPU hours of a user: four queries over the active and completed reservations that
overlap a window, with one expression for the seconds of a row in it.  The expression takes
the later of two starts from the earliest of three ends, whichever is the later, and three
of the queries read the rows without a card as well.

* `accounting_iff` — the tables, moments and windows for which they all give the hours that
  the user's cards were reserved.

Hours are exact quotients; the answers that the API rounds are those before rounding.
-/

namespace CoreLab

open Relational

namespace UsageService

/-! ## windows -/

/-- A half-open interval. -/
structure Window where
  start : Time
  stop : Time
deriving DecidableEq, Repr

/-- The first instant of a month. -/
def firstOf (year month : Int) : Time :=
  Calendar.daysFromCivil ⟨year, month, 1⟩ * Calendar.dayMicros

/-- `month_boundaries`; `none` where `datetime` raises a `ValueError`. -/
def monthBoundaries (year month : Int) : Option Window :=
  if 1 ≤ year ∧ year ≤ 9999 ∧ 1 ≤ month ∧ month ≤ 12 then
    if month = 12 then
      if year + 1 ≤ 9999 then some ⟨firstOf year month, firstOf (year + 1) 1⟩ else none
    else some ⟨firstOf year month, firstOf year (month + 1)⟩
  else none

/-! ## the rows that count -/

/-- `_COUNTED_STATUSES`. -/
def counted : ReservationStatus → Bool
  | .active | .completed => true
  | .scheduled | .cancelled | .failed => false

/-- The user's rows that overlap the window. -/
def overlapping (db : Db) (userId : Nat) (w : Window) : List Reservation :=
  db.reservations.rows.filter fun r =>
    r.userId = userId && decide (r.startAt < w.stop) && decide (w.start < r.endAt)

/-- Those of them that count. -/
def countedRows (db : Db) (userId : Nat) (w : Window) : List Reservation :=
  (overlapping db userId w).filter (counted ·.status)

/-- `TIMESTAMPDIFF(SECOND, a, b)`. -/
def timestampdiffSeconds (a b : Time) : Int := (b - a).tdiv secondMicros

/-- `seconds_expr` and `_windowed_seconds_expr`. -/
def windowedSeconds (w : Window) (now : Time) (r : Reservation) : Int :=
  timestampdiffSeconds (max r.startAt w.start) (min r.endAt (min now w.stop))

/-- `COALESCE(SUM(seconds), 0) / 3600.0`. -/
def sumHours (w : Window) (now : Time) (rows : List Reservation) : Rat :=
  (rows.map (windowedSeconds w now)).sum / 3600

/-! ## queries -/

/-- `gpu_hours_for_user_in_window`, and the first query of `monthly_usage`. -/
def gpuHoursForUserInWindow (db : Db) (userId : Nat) (w : Window) (now : Time) : Rat :=
  sumHours w now (countedRows db userId w)

structure ServerHours where
  serverId : Nat
  hostname : String
  hours : Rat

structure PaHours where
  paId : Nat
  linuxUsername : String
  hostname : String
  hours : Rat

structure GpuHours where
  gpuId : Nat
  gpuIndex : Nat
  serverId : Nat
  serverHostname : String
  hours : Rat

section Queries

variable (hostname : Nat → String) (db : Db) (userId : Nat) (w : Window) (now : Time)

/-- The rows with their servers. -/
def withServer : List (Reservation × Server) :=
  (countedRows db userId w).filterMap fun r => (db.servers.get? r.serverId).map fun s => (r, s)

/-- `by_server`. -/
def byServer : List ServerHours :=
  (groupBy (fun t => (t.2.id, hostname t.2.id)) (withServer db userId w)).map fun g =>
    ⟨g.1.1, g.1.2, sumHours w now (g.2.map (·.1))⟩

/-- The rows with the accounts of their links and their servers. -/
def withPa : List (Reservation × PhysicalAccount × Server) :=
  (countedRows db userId w).filterMap fun r =>
    (db.accountLinks.get? r.accountLinkId).bind fun l =>
      (db.physicalAccounts.get? l.physicalAccountId).bind fun pa =>
        (db.servers.get? r.serverId).map fun s => (r, pa, s)

/-- `by_pa`. -/
def byPa : List PaHours :=
  (groupBy (fun t => (t.2.1.id, t.2.1.linuxUsername, hostname t.2.2.id))
      (withPa db userId w)).map fun g =>
    ⟨g.1.1, g.1.2.1, g.1.2.2, sumHours w now (g.2.map (·.1))⟩

/-- The rows with their cards and the servers of these. -/
def withGpu : List (Reservation × Gpu × Server) :=
  (countedRows db userId w).filterMap fun r =>
    r.gpuId.bind fun gpuId => (db.gpus.get? gpuId).bind fun gpu =>
      (db.servers.get? gpu.serverId).map fun s => (r, gpu, s)

/-- The query of `gpu_ranking_for_user_in_window`, without its limit. -/
def gpuRankingRows : List GpuHours :=
  ((groupBy (fun t => (t.2.1.id, t.2.1.gpuIndex, t.2.2.id, hostname t.2.2.id))
      (withGpu db userId w)).map fun g =>
    (⟨g.1.1, g.1.2.1, g.1.2.2.1, g.1.2.2.2, sumHours w now (g.2.map (·.1))⟩ : GpuHours)).mergeSort
      fun a b => decide (b.hours ≤ a.hours)

/-- `gpu_ranking_for_user_in_window`. -/
def gpuRankingForUserInWindow (limit : Nat) : List GpuHours :=
  (gpuRankingRows hostname db userId w now).take limit

end Queries

structure MonthlyUsage where
  gpuHoursUsed : Rat
  completionRate : Rat
  reservationCount : Nat
  byServer : List ServerHours
  byPa : List PaHours

/-- `completed / (completed + failed + cancelled)`. -/
def completionRate (rows : List Reservation) : Rat :=
  let completed := rows.countP (·.status = .completed)
  let totalTerminal := rows.countP (·.status.terminal)
  if 0 < totalTerminal then completed / totalTerminal else 0

/-- `monthly_usage`. -/
def monthlyUsage (hostname : Nat → String) (db : Db) (userId : Nat) (year month : Int)
    (now : Time) : Option MonthlyUsage :=
  (monthBoundaries year month).map fun w =>
    { gpuHoursUsed := gpuHoursForUserInWindow db userId w now
      completionRate := completionRate (overlapping db userId w)
      reservationCount := (overlapping db userId w).length
      byServer := byServer hostname db userId w now
      byPa := byPa hostname db userId w now }

/-! ## what is promised -/

/-- What the schema keeps of the tables: the foreign keys, and the checks of a reservation. -/
structure Constraints (db : Db) : Prop where
  server : ∀ r ∈ db.reservations, ∃ s, db.servers.get? r.serverId = some s
  accountLink : ∀ r ∈ db.reservations, ∃ l, db.accountLinks.get? r.accountLinkId = some l
  physicalAccount : ∀ l ∈ db.accountLinks,
    ∃ pa, db.physicalAccounts.get? l.physicalAccountId = some pa
  gpu : ∀ r ∈ db.reservations, ∀ gpuId ∈ r.gpuId, ∃ gpu, db.gpus.get? gpuId = some gpu
  gpuServer : ∀ gpu ∈ db.gpus, ∃ s, db.servers.get? gpu.serverId = some s
  checks : ∀ r ∈ db.reservations, r.checks = true

/-- All times are whole seconds. -/
structure WholeSeconds (db : Db) (ts : List Time) : Prop where
  rows : ∀ r ∈ db.reservations, secondMicros ∣ r.startAt ∧ secondMicros ∣ r.endAt
  times : ∀ t ∈ ts, secondMicros ∣ t

/-- How far the row reaches into the window until now; negative where it ends before it starts. -/
def span (w : Window) (now : Time) (r : Reservation) : Int :=
  min r.endAt (min now w.stop) - max r.startAt w.start

/-- The hours that the user's active and completed rows occupy cards in the window. -/
def gpuHours (db : Db) (userId : Nat) (w : Window) (now : Time) : Rat :=
  ((db.reservations.rows.filter fun r =>
    r.userId = userId && counted r.status && r.gpuId.isSome).map fun r =>
      (max 0 (span w now r) : Rat) / hourMicros).sum

/-- All the queries of a window give these hours. -/
structure Exact (hostname : Nat → String) (db : Db) (userId : Nat) (w : Window) (now : Time) :
    Prop where
  hours : gpuHoursForUserInWindow db userId w now = gpuHours db userId w now
  ranking : ((gpuRankingRows hostname db userId w now).map (·.hours)).sum = gpuHours db userId w now
  monthly : ∀ year month, monthBoundaries year month = some w →
    ∀ usage ∈ monthlyUsage hostname db userId year month now,
      usage.gpuHoursUsed = gpuHours db userId w now ∧
        (usage.byServer.map (·.hours)).sum = gpuHours db userId w now ∧
        (usage.byPa.map (·.hours)).sum = gpuHours db userId w now

/-- The accounts of two adjacent windows and of both together. -/
structure Accounting (hostname : Nat → String) (db : Db) (userId : Nat) (now a b c : Time) :
    Prop where
  first : Exact hostname db userId ⟨a, b⟩ now
  second : Exact hostname db userId ⟨b, c⟩ now
  whole : Exact hostname db userId ⟨a, c⟩ now
  nonneg : 0 ≤ gpuHoursForUserInWindow db userId ⟨a, b⟩ now ∧
    0 ≤ gpuHoursForUserInWindow db userId ⟨b, c⟩ now ∧
    0 ≤ gpuHoursForUserInWindow db userId ⟨a, c⟩ now
  additive : gpuHoursForUserInWindow db userId ⟨a, c⟩ now =
    gpuHoursForUserInWindow db userId ⟨a, b⟩ now + gpuHoursForUserInWindow db userId ⟨b, c⟩ now

/-- Now is not before the window nor before a row with a card that counts in it, and the rows
without a card come to nothing. -/
structure Regular (db : Db) (userId : Nat) (w : Window) (now : Time) : Prop where
  cards : ∀ r ∈ countedRows db userId w, r.gpuId.isSome = true → max r.startAt w.start ≤ now
  tasks : (((countedRows db userId w).filter (·.gpuId.isNone)).map (span w now)).sum = 0

instance (db : Db) (userId : Nat) (w : Window) (now : Time) : Decidable (Regular db userId w now) :=
  decidable_of_iff ((∀ r ∈ countedRows db userId w, r.gpuId.isSome = true →
      max r.startAt w.start ≤ now) ∧
    (((countedRows db userId w).filter (·.gpuId.isNone)).map (span w now)).sum = 0)
    ⟨fun h => ⟨h.1, h.2⟩, fun h => ⟨h.cards, h.tasks⟩⟩

/-! ## one row -/

section Row

variable {db : Db} {userId : Nat} {w : Window} {now : Time} {r : Reservation}

theorem mem_countedRows :
    r ∈ countedRows db userId w ↔ r ∈ db.reservations ∧ r.userId = userId ∧
      r.startAt < w.stop ∧ w.start < r.endAt ∧ counted r.status = true := by
  simp only [countedRows, overlapping, List.mem_filter, Table.mem_def, Bool.and_eq_true,
    decide_eq_true_eq]
  tauto

/-- The hours of a row. -/
def rowHours (w : Window) (now : Time) (r : Reservation) : Rat := span w now r / hourMicros

theorem windowedSeconds_eq (hr : secondMicros ∣ r.startAt ∧ secondMicros ∣ r.endAt)
    (hnow : secondMicros ∣ now) (hw : secondMicros ∣ w.start ∧ secondMicros ∣ w.stop) :
    (windowedSeconds w now r : Rat) / 3600 = rowHours w now r := by
  have hmin : secondMicros ∣ min r.endAt (min now w.stop) := by
    rcases min_choice now w.stop with hmin | hmin <;>
      rcases min_choice r.endAt (min now w.stop) with hmin' | hmin' <;> grind
  have hmax : secondMicros ∣ max r.startAt w.start := by
    rcases max_choice r.startAt w.start with hmax | hmax <;> grind
  obtain ⟨n, hn⟩ : secondMicros ∣ span w now r := Int.dvd_sub hmin hmax
  have hseconds : windowedSeconds w now r = n := by
    rw [windowedSeconds, timestampdiffSeconds, ← span, hn]
    exact Int.mul_tdiv_cancel_left n (by decide)
  rw [hseconds, rowHours, hn, hourMicros]
  push_cast
  rw [secondMicros]
  field_simp

/-- A row that counts in the window reaches into it exactly from its start, and the window's, on. -/
theorem span_nonneg_iff (hchecks : r.checks = true) (hw : w.start ≤ w.stop)
    (hr : r ∈ countedRows db userId w) : 0 ≤ span w now r ↔ max r.startAt w.start ≤ now := by
  obtain ⟨-, -, hstart, hend, -⟩ := mem_countedRows.mp hr
  have horder := window_of_checks hchecks
  rw [span, Int.sub_nonneg, le_min_iff, le_min_iff]
  simp only [max_le_iff, horder.le, hend.le, hstart.le, hw, and_self, and_true, true_and]

/-- A row that does not overlap the window has no part in it. -/
theorem span_nonpos (hr : ¬ (r.startAt < w.stop ∧ w.start < r.endAt)) : span w now r ≤ 0 := by
  rw [span]
  rcases not_and_or.mp hr with hstart | hend
  · have hmin : min r.endAt (min now w.stop) ≤ w.stop :=
      (min_le_right _ _).trans (min_le_right _ _)
    exact Int.sub_nonpos_of_le (hmin.trans ((not_lt.mp hstart).trans (le_max_left _ _)))
  · exact Int.sub_nonpos_of_le
      ((min_le_left _ _).trans ((not_lt.mp hend).trans (le_max_right _ _)))

theorem max_sub_add {s e a b c : Int} (now : Int) (hab : a ≤ b) (hbc : b ≤ c) (horder : s < e) :
    max 0 (min e (min now c) - max s a) =
      max 0 (min e (min now b) - max s a) + max 0 (min e (min now c) - max s b) := by
  omega

/-- The parts of a row in adjacent windows add up. -/
theorem max_span_add (now : Time) {a b c : Time} (hab : a ≤ b) (hbc : b ≤ c)
    (horder : r.startAt < r.endAt) :
    max 0 (span ⟨a, c⟩ now r) = max 0 (span ⟨a, b⟩ now r) + max 0 (span ⟨b, c⟩ now r) := by
  exact max_sub_add now hab hbc horder

end Row

/-! ## sums of rows -/

section Sums

variable {hostname : Nat → String} {db : Db} {userId : Nat} {w : Window} {now : Time}

theorem sumHours_eq {rows : List Reservation}
    (h : ∀ r ∈ rows, (windowedSeconds w now r : Rat) / 3600 = rowHours w now r) :
    sumHours w now rows = (rows.map (rowHours w now)).sum := by
  induction rows with
  | nil => simp [sumHours]
  | cons r rows ih =>
      have hrest := ih fun s hs => h s (List.mem_cons_of_mem r hs)
      rw [List.map_cons, List.sum_cons, ← h r List.mem_cons_self, ← hrest]
      simp only [sumHours, List.map_cons, List.sum_cons]
      push_cast
      ring

/-- The hours of the rows as a quotient of their spans. -/
theorem sum_rowHours (rows : List Reservation) :
    (rows.map (rowHours w now)).sum = ((rows.map (span w now)).sum : Int) / hourMicros := by
  induction rows with
  | nil => simp
  | cons r rows ih =>
      rw [List.map_cons, List.sum_cons, ih, List.map_cons, List.sum_cons, rowHours]
      push_cast
      ring

/-- **Grouped and joined**: where every row finds its partners, the groups' hours add up to those
of the rows. -/
theorem sum_groups {τ κ : Type} [DecidableEq κ] (row : τ → Reservation) (key : τ → κ)
    {joined : List τ} (h : ∀ t ∈ joined,
      (windowedSeconds w now (row t) : Rat) / 3600 = rowHours w now (row t)) :
    ((groupBy key joined).map fun g => sumHours w now (g.2.map row)).sum =
      (joined.map fun t => rowHours w now (row t)).sum := by
  rw [← sum_groupBy key]
  refine congrArg List.sum (List.map_congr_left fun g hg => ?_)
  obtain ⟨k, -, rfl⟩ := List.mem_map.mp hg
  rw [sumHours_eq, List.map_map]
  · rfl
  · intro r hr
    obtain ⟨t, ht, rfl⟩ := List.mem_map.mp hr
    exact h t (List.mem_of_mem_filter ht)

/-! ## the four queries -/

section Queries

variable (hdb : Constraints db)
  (hwhole : ∀ r ∈ db.reservations, (windowedSeconds w now r : Rat) / 3600 = rowHours w now r)
include hwhole

theorem gpuHoursForUserInWindow_eq : gpuHoursForUserInWindow db userId w now =
    ((countedRows db userId w).map (rowHours w now)).sum :=
  sumHours_eq fun r hr => hwhole r (mem_countedRows.mp hr).1

/-- The hours of joined rows, in groups: those of the rows that find a partner. -/
theorem sum_joined (userId : Nat) {τ κ : Type} [DecidableEq κ] (join : Reservation → Option τ)
    (row : τ → Reservation) (key : τ → κ) (p : Reservation → Bool)
    (hrow : ∀ r t, join r = some t → row t = r)
    (hsome : ∀ r ∈ db.reservations, p r = true → (join r).isSome = true)
    (hnone : ∀ r ∈ db.reservations, p r = false → join r = none) :
    ((groupBy key ((countedRows db userId w).filterMap join)).map fun g =>
        sumHours w now (g.2.map row)).sum =
      (((countedRows db userId w).filter p).map (rowHours w now)).sum := by
  have hjoined : ∀ t ∈ (countedRows db userId w).filterMap join,
      (windowedSeconds w now (row t) : Rat) / 3600 = rowHours w now (row t) := by
    intro t ht
    obtain ⟨r, hr, hjoin⟩ := List.mem_filterMap.mp ht
    rw [hrow r t hjoin]
    exact hwhole r (mem_countedRows.mp hr).1
  rw [sum_groups row key hjoined]
  refine sum_filterMap p (rowHours w now) (fun r hr hp => ?_) fun r hr hp =>
    hnone r (mem_countedRows.mp hr).1 hp
  obtain ⟨t, ht⟩ := Option.isSome_iff_exists.mp (hsome r (mem_countedRows.mp hr).1 hp)
  exact ⟨t, ht, hrow r t ht⟩

include hdb

theorem sum_byServer : ((byServer hostname db userId w now).map (·.hours)).sum =
    ((countedRows db userId w).map (rowHours w now)).sum := by
  have hjoined := sum_joined hwhole userId
    (fun r => (db.servers.get? r.serverId).map fun s => (r, s)) (·.1)
    (fun t => (t.2.id, hostname t.2.id)) (fun _ => true) (by simp)
    (fun r hr _ => by simpa [Option.isSome_iff_exists] using hdb.server r hr) (by simp)
  rw [List.filter_true] at hjoined
  rw [byServer, withServer, List.map_map, ← hjoined]
  rfl

theorem sum_byPa : ((byPa hostname db userId w now).map (·.hours)).sum =
    ((countedRows db userId w).map (rowHours w now)).sum := by
  have hpartners : ∀ r ∈ db.reservations, ((db.accountLinks.get? r.accountLinkId).bind fun l =>
      (db.physicalAccounts.get? l.physicalAccountId).bind fun pa =>
        (db.servers.get? r.serverId).map fun s => (r, pa, s)).isSome = true := by
    intro r hr
    obtain ⟨l, hl⟩ := hdb.accountLink r hr
    obtain ⟨pa, hpa⟩ := hdb.physicalAccount l (Table.mem_of_get? hl)
    obtain ⟨s, hs⟩ := hdb.server r hr
    simp [hl, hpa, hs]
  have hjoined := sum_joined hwhole userId
    (fun r => (db.accountLinks.get? r.accountLinkId).bind fun l =>
      (db.physicalAccounts.get? l.physicalAccountId).bind fun pa =>
        (db.servers.get? r.serverId).map fun s => (r, pa, s)) (·.1)
    (fun t => (t.2.1.id, t.2.1.linuxUsername, hostname t.2.2.id)) (fun _ => true)
    (by simp only [Option.bind_eq_some_iff, Option.map_eq_some_iff]; grind)
    (fun r hr _ => hpartners r hr) (by simp)
  rw [List.filter_true] at hjoined
  rw [byPa, withPa, List.map_map, ← hjoined]
  rfl

/-- The ranking is of the rows with a card. -/
theorem sum_gpuRankingRows : ((gpuRankingRows hostname db userId w now).map (·.hours)).sum =
    (((countedRows db userId w).filter (·.gpuId.isSome)).map (rowHours w now)).sum := by
  have hpartners : ∀ r ∈ db.reservations, r.gpuId.isSome = true →
      (r.gpuId.bind fun gpuId => (db.gpus.get? gpuId).bind fun gpu =>
        (db.servers.get? gpu.serverId).map fun s => (r, gpu, s)).isSome = true := by
    intro r hr hcard
    obtain ⟨gpuId, hgpuId⟩ := Option.isSome_iff_exists.mp hcard
    obtain ⟨gpu, hgpu⟩ := hdb.gpu r hr gpuId hgpuId
    obtain ⟨s, hs⟩ := hdb.gpuServer gpu (Table.mem_of_get? hgpu)
    simp [hgpuId, hgpu, hs]
  have hjoined := sum_joined hwhole userId
    (fun r => r.gpuId.bind fun gpuId => (db.gpus.get? gpuId).bind fun gpu =>
      (db.servers.get? gpu.serverId).map fun s => (r, gpu, s)) (·.1)
    (fun t => (t.2.1.id, t.2.1.gpuIndex, t.2.2.id, hostname t.2.2.id)) (·.gpuId.isSome)
    (by simp only [Option.bind_eq_some_iff, Option.map_eq_some_iff]; grind) hpartners
    (fun r _ hnone => by simp [Option.not_isSome_iff_eq_none.mp (by simpa using hnone)])
  rw [gpuRankingRows, ((List.mergeSort_perm _ _).map _).sum_eq, withGpu, List.map_map, ← hjoined]
  rfl

end Queries

/-! ## the hours that were reserved -/

/-- The user's rows that count and occupy a card. -/
theorem gpuHours_eq : gpuHours db userId w now =
    ((((countedRows db userId w).filter (·.gpuId.isSome)).map fun r =>
      max 0 (span w now r)).sum : Int) / hourMicros := by
  have hrows : (countedRows db userId w).filter (·.gpuId.isSome) =
      (db.reservations.rows.filter fun r =>
        r.userId = userId && counted r.status && r.gpuId.isSome).filter fun r =>
          decide (r.startAt < w.stop) && decide (w.start < r.endAt) := by
    rw [countedRows, overlapping, List.filter_filter, List.filter_filter, List.filter_filter]
    refine List.filter_congr fun r _ => ?_
    grind
  rw [hrows, sum_filter_eq, gpuHours]
  · induction db.reservations.rows.filter fun r =>
        r.userId = userId && counted r.status && r.gpuId.isSome with
    | nil => simp
    | cons r rows ih =>
        rw [List.map_cons, List.sum_cons, ih, List.map_cons, List.sum_cons]
        push_cast
        ring
  · intro r _ hr
    refine max_eq_left (span_nonpos fun hoverlap => ?_)
    simp [hoverlap.1, hoverlap.2] at hr

theorem hourMicros_pos : (0 : Rat) < hourMicros := by decide +kernel

theorem gpuHours_nonneg : 0 ≤ gpuHours db userId w now := by
  rw [gpuHours]
  refine List.sum_nonneg fun x hx => ?_
  obtain ⟨r, -, rfl⟩ := List.mem_map.mp hx
  exact div_nonneg (le_max_left _ _) hourMicros_pos.le

theorem gpuHours_add (hchecks : ∀ r ∈ db.reservations, r.checks = true) {a b c : Time}
    (hab : a ≤ b) (hbc : b ≤ c) :
    gpuHours db userId ⟨a, c⟩ now =
      gpuHours db userId ⟨a, b⟩ now + gpuHours db userId ⟨b, c⟩ now := by
  rw [gpuHours, gpuHours, gpuHours, ← List.sum_map_add]
  refine congrArg List.sum (List.map_congr_left fun r hr => ?_)
  have horder := window_of_checks (hchecks r (List.mem_of_mem_filter hr))
  have hspan := congrArg (Int.cast : Int → Rat) (max_span_add now hab hbc horder)
  push_cast at hspan
  rw [hspan, add_div]

/-- **One window**: the queries agree with the hours that were reserved exactly where no row with
a card counts against them and the rows without a card come to nothing. -/
theorem exact_iff (hdb : Constraints db) (hw : w.start ≤ w.stop)
    (hwhole : ∀ r ∈ db.reservations, (windowedSeconds w now r : Rat) / 3600 = rowHours w now r) :
    Exact hostname db userId w now ↔ Regular db userId w now := by
  have hsplit := List.sum_map_filter_add_sum_map_filter_not (·.gpuId.isSome = true) (span w now)
    (countedRows db userId w)
  simp only [Bool.decide_eq_true, Bool.not_eq_true, Option.isSome_eq_false_iff] at hsplit
  have hcards : (((countedRows db userId w).filter (·.gpuId.isSome)).map (span w now)).sum =
      (((countedRows db userId w).filter (·.gpuId.isSome)).map fun r =>
        max 0 (span w now r)).sum ↔ ∀ r ∈ countedRows db userId w, r.gpuId.isSome = true →
          max r.startAt w.start ≤ now := by
    rw [sum_map_eq_iff_of_le fun r _ => le_max_right _ _]
    simp only [List.mem_filter, and_imp]
    refine forall₃_congr fun r hr _ => ?_
    rw [← span_nonneg_iff (hdb.checks r (mem_countedRows.mp hr).1) hw hr, eq_comm, max_eq_right_iff]
  have htotal : gpuHoursForUserInWindow db userId w now = gpuHours db userId w now ↔
      ((countedRows db userId w).map (span w now)).sum =
        (((countedRows db userId w).filter (·.gpuId.isSome)).map fun r =>
          max 0 (span w now r)).sum := by
    rw [gpuHoursForUserInWindow_eq hwhole, gpuHours_eq, sum_rowHours,
      div_left_inj' hourMicros_pos.ne', Int.cast_inj]
  have hranking : ((gpuRankingRows hostname db userId w now).map (·.hours)).sum =
      gpuHours db userId w now ↔
      (((countedRows db userId w).filter (·.gpuId.isSome)).map (span w now)).sum =
        (((countedRows db userId w).filter (·.gpuId.isSome)).map fun r =>
          max 0 (span w now r)).sum := by
    rw [sum_gpuRankingRows hdb hwhole, gpuHours_eq, sum_rowHours,
      div_left_inj' hourMicros_pos.ne', Int.cast_inj]
  constructor
  · rintro ⟨hhours, hrank, -⟩
    have hsum := htotal.mp hhours
    have hcard := hranking.mp hrank
    exact ⟨hcards.mp hcard, by omega⟩
  · rintro ⟨hcard, htasks⟩
    have hcard := hcards.mpr hcard
    have hhours := htotal.mpr (by omega)
    have hrows : ((countedRows db userId w).map (rowHours w now)).sum = gpuHours db userId w now :=
      (gpuHoursForUserInWindow_eq hwhole).symm.trans hhours
    refine ⟨hhours, hranking.mpr hcard, fun year month hmonth usage husage => ?_⟩
    rw [monthlyUsage, hmonth] at husage
    obtain rfl := Option.mem_some_iff.mp husage
    exact ⟨hhours, (sum_byServer hdb hwhole).trans hrows, (sum_byPa hdb hwhole).trans hrows⟩

end Sums

/-- **Accounting**: the queries give the hours that the cards were reserved, which are never
negative and add up over adjacent windows, exactly where each window is regular. -/
theorem accounting_iff {hostname : Nat → String} {db : Db} {userId : Nat} {now a b c : Time}
    (hdb : Constraints db) (hab : a ≤ b) (hbc : b ≤ c) (hwhole : WholeSeconds db [now, a, b, c]) :
    Accounting hostname db userId now a b c ↔
      Regular db userId ⟨a, b⟩ now ∧ Regular db userId ⟨b, c⟩ now ∧
        Regular db userId ⟨a, c⟩ now := by
  have hseconds : ∀ w : Window, w.start ∈ [now, a, b, c] → w.stop ∈ [now, a, b, c] →
      ∀ r ∈ db.reservations, (windowedSeconds w now r : Rat) / 3600 = rowHours w now r :=
    fun w hstart hstop r hr => windowedSeconds_eq (hwhole.rows r hr)
      (hwhole.times now List.mem_cons_self) ⟨hwhole.times _ hstart, hwhole.times _ hstop⟩
  have hfirst : Exact hostname db userId ⟨a, b⟩ now ↔ Regular db userId ⟨a, b⟩ now :=
    exact_iff hdb hab (hseconds ⟨a, b⟩ (by simp) (by simp))
  have hsecond : Exact hostname db userId ⟨b, c⟩ now ↔ Regular db userId ⟨b, c⟩ now :=
    exact_iff hdb hbc (hseconds ⟨b, c⟩ (by simp) (by simp))
  have hthird : Exact hostname db userId ⟨a, c⟩ now ↔ Regular db userId ⟨a, c⟩ now :=
    exact_iff hdb (hab.trans hbc) (hseconds ⟨a, c⟩ (by simp) (by simp))
  rw [← hfirst, ← hsecond, ← hthird]
  constructor
  · rintro ⟨hone, htwo, hboth, -, -⟩
    exact ⟨hone, htwo, hboth⟩
  · rintro ⟨hone, htwo, hboth⟩
    refine ⟨hone, htwo, hboth, ?_, ?_⟩
    · rw [hone.hours, htwo.hours, hboth.hours]
      exact ⟨gpuHours_nonneg, gpuHours_nonneg, gpuHours_nonneg⟩
    · rw [hone.hours, htwo.hours, hboth.hours]
      exact gpuHours_add hdb.checks hab hbc

/-- The lab with a day on its card keeps what the schema asks. -/
theorem constraints_dueScript : Constraints (smallLab (.single dueScript)) := by
  refine ⟨?_, ?_, ?_, ?_, ?_, ?_⟩ <;> intro row hrow <;> obtain rfl := List.mem_singleton.mp hrow
  · exact ⟨_, rfl⟩
  · exact ⟨_, rfl⟩
  · exact ⟨_, rfl⟩
  · intro gpuId hgpuId
    obtain rfl := Option.mem_some_iff.mp hgpuId
    exact ⟨_, rfl⟩
  · exact ⟨_, rfl⟩
  · decide

theorem wholeSeconds_dueScript : ∀ r ∈ (smallLab (.single dueScript)).reservations,
    secondMicros ∣ r.startAt ∧ secondMicros ∣ r.endAt := by
  intro r hr
  obtain rfl := List.mem_singleton.mp hr
  decide

/-- A link that its user has established. -/
def linkOf (id userId physicalAccountId : Nat) : AccountLink :=
  { id := id, userId := userId, physicalAccountId := physicalAccountId, source := .sshChallenge
    isActive := true, revokedByUserId := none, revokedAt := none, revokeReason := none }

/-- The rows of a user with an account on each of two servers, and a row of someone else. -/
def twoServers : Db :=
  { (smallLab ⟨[dueScript,
      { dueScript with id := 8, serverId := 2, gpuId := some 12, accountLinkId := 32
                       startAt := 6 * hourMicros, endAt := 18 * hourMicros, status := .completed
                       scriptScheduledStartAt := none },
      { dueScript with id := 10, userId := 42, accountLinkId := 33, status := .completed }],
      by decide⟩).addServer with
    gpus := ⟨[{ id := 11, serverId := 1, gpuIndex := 0, memoryTotalMb := some 24576 },
      { id := 12, serverId := 2, gpuIndex := 0, memoryTotalMb := none }], by decide⟩
    physicalAccounts := ⟨[{ id := 21, serverId := 1, linuxUsername := "alice", isActive := true },
      { id := 22, serverId := 2, linuxUsername := "alice", isActive := true }], by decide⟩
    accountLinks := ⟨[linkOf 31 41 21, linkOf 32 41 22, linkOf 33 42 21], by decide⟩ }

theorem constraints_twoServers : Constraints twoServers := by
  have hserver : ∀ r ∈ twoServers.reservations.rows, (twoServers.servers.get? r.serverId).isSome := by
    decide
  have hlink : ∀ r ∈ twoServers.reservations.rows,
      (twoServers.accountLinks.get? r.accountLinkId).isSome := by
    decide
  have haccount : ∀ l ∈ twoServers.accountLinks.rows,
      (twoServers.physicalAccounts.get? l.physicalAccountId).isSome := by
    decide
  have hgpu : ∀ r ∈ twoServers.reservations.rows,
      ∀ gpuId ∈ r.gpuId, (twoServers.gpus.get? gpuId).isSome := by
    decide
  have hgpuServer : ∀ gpu ∈ twoServers.gpus.rows, (twoServers.servers.get? gpu.serverId).isSome := by
    decide
  exact ⟨fun r hr => Option.isSome_iff_exists.mp (hserver r hr),
    fun r hr => Option.isSome_iff_exists.mp (hlink r hr),
    fun l hl => Option.isSome_iff_exists.mp (haccount l hl),
    fun r hr gpuId hgpuId => Option.isSome_iff_exists.mp (hgpu r hr gpuId hgpuId),
    fun gpu hg => Option.isSome_iff_exists.mp (hgpuServer gpu hg), by decide⟩

/-- When the day is over, its halves and the whole are accounted for: 36 hours on two cards. -/
theorem accounting_twoServers :
    Accounting (fun serverId => if serverId = 1 then "gpu01" else "gpu02") twoServers 41
        (24 * hourMicros) 0 (12 * hourMicros) (24 * hourMicros) ∧
      gpuHours twoServers 41 ⟨0, 24 * hourMicros⟩ (24 * hourMicros) = 36 :=
  ⟨(accounting_iff constraints_twoServers (by decide) (by decide) ⟨by decide, by decide⟩).mpr
    (by decide +kernel), by decide +kernel⟩

/-- At six in the morning the second half of that day counts for minus six hours. -/
theorem not_accounting :
    Constraints (smallLab (.single dueScript)) ∧
      WholeSeconds (smallLab (.single dueScript))
        [6 * hourMicros, 0, 12 * hourMicros, 24 * hourMicros] ∧
      gpuHoursForUserInWindow (smallLab (.single dueScript)) 41
        ⟨12 * hourMicros, 24 * hourMicros⟩ (6 * hourMicros) = -6 ∧
      ¬ Accounting (fun _ => "gpu01") (smallLab (.single dueScript)) 41 (6 * hourMicros) 0
        (12 * hourMicros) (24 * hourMicros) := by
  have hhours : gpuHoursForUserInWindow (smallLab (.single dueScript)) 41
      ⟨12 * hourMicros, 24 * hourMicros⟩ (6 * hourMicros) = -6 := by decide +kernel
  refine ⟨constraints_dueScript, ⟨wholeSeconds_dueScript, by decide⟩, hhours, fun haccounting => ?_⟩
  have hnonneg := haccounting.nonneg.2.1
  rw [hhours] at hnonneg
  exact absurd hnonneg (by decide +kernel)

end UsageService

end CoreLab
