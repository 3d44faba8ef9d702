import Mathlib.Tactic.Ring
import Mathlib.Data.Int.Order.Basic

/-!
# Lib.Calendar

The proleptic Gregorian calendar over day numbers (day `0` is 1970-01-01), the
ISO weeks, a clock over the microseconds of a day, and the fixed-width ISO 8601
text `YYYY-MM-DDTHH:MM:SS[.ffffff]` of an instant.

Years are counted from 1 March, so the leap day is the last day of its year
and each of the three divisions (era, century, four-year cycle) leaves a
remainder in a range known in advance.

* `daysFromCivil_civilFromDays` — a day number is read back from its date;
* `readField_pad` — a number is read back from its digits.
-/

namespace Calendar

/-! ## Dates -/

/-- A civil date. -/
structure Date where
  year : Int
  month : Int
  day : Int
deriving DecidableEq, Repr

/-- The date of day `doy` of the year (from 1 March) `400 * era + 100 * century + 4 * cycle + yr`. -/
def civil (era century cycle yr doy : Int) : Date :=
  let mp := (5 * doy + 2) / 153
  let month := if mp < 10 then mp + 3 else mp - 9
  { year := 400 * era + 100 * century + 4 * cycle + yr + (if month ≤ 2 then 1 else 0)
    month := month
    day := doy - (153 * mp + 2) / 5 + 1 }

/-- The date of a day number. -/
def civilFromDays (n : Int) : Date :=
  let z := n + 719468
  let doe := z % 146097
  let century := min (doe / 36524) 3
  let doc := doe - century * 36524
  let doq := doc % 1461
  let yr := min (doq / 365) 3
  civil (z / 146097) century (doc / 1461) yr (doq - yr * 365)

/-- The day number of a date. -/
def daysFromCivil (d : Date) : Int :=
  let y := if d.month ≤ 2 then d.year - 1 else d.year
  let era := y / 400
  let yoe := y % 400
  let mp := if 2 < d.month then d.month - 3 else d.month + 9
  let doy := (153 * mp + 2) / 5 + d.day - 1
  era * 146097 + (yoe * 365 + yoe / 4 - yoe / 100 + doy) - 719468

/-- A day of the year lies in one of twelve months, on one of its days. -/
theorem civil_range {era c q r doy : Int} (h0 : 0 ≤ doy) (h1 : doy ≤ 365) :
    1 ≤ (civil era c q r doy).month ∧ (civil era c q r doy).month ≤ 12 ∧
      1 ≤ (civil era c q r doy).day ∧ (civil era c q r doy).day ≤ 31 := by
  dsimp only [civil]
  have hmp : 0 ≤ (5 * doy + 2) / 153 ∧ (5 * doy + 2) / 153 ≤ 11 := by omega
  refine ⟨?_, ?_, ?_, ?_⟩
  · split <;> omega
  · split <;> omega
  · omega
  · omega

/-- A year of the era, read back from its century, cycle and year digits. -/
private theorem yearOfEra (e : Int) {c q r : Int} (hc0 : 0 ≤ c) (hc : c ≤ 3) (hq0 : 0 ≤ q) (hq : q ≤ 24)
    (hr0 : 0 ≤ r) (hr : r ≤ 3) :
    (400 * e + 100 * c + 4 * q + r) / 400 = e ∧
      (400 * e + 100 * c + 4 * q + r) % 400 = 100 * c + 4 * q + r ∧
      (100 * c + 4 * q + r) / 4 = 25 * c + q ∧ (100 * c + 4 * q + r) / 100 = c := by
  refine ⟨?_, ?_, ?_, ?_⟩ <;> omega

theorem daysFromCivil_civil {era c q r doy : Int} (hc0 : 0 ≤ c) (hc : c ≤ 3) (hq0 : 0 ≤ q)
    (hq : q ≤ 24) (hr0 : 0 ≤ r) (hr : r ≤ 3) (hd0 : 0 ≤ doy) (hd1 : doy ≤ 365) :
    daysFromCivil (civil era c q r doy) =
      era * 146097 + c * 36524 + q * 1461 + r * 365 + doy - 719468 := by
  obtain ⟨h1, h2, h3, h4⟩ := yearOfEra era hc0 hc hq0 hq hr0 hr
  have hm : 0 ≤ (5 * doy + 2) / 153 ∧ (5 * doy + 2) / 153 ≤ 11 := by omega
  dsimp only [civil, daysFromCivil]
  -- March to December keep the year, January and February belong to the next one
  by_cases hmp : (5 * doy + 2) / 153 < 10
  · have hmonth : ¬ (5 * doy + 2) / 153 + 3 ≤ 2 := by omega
    rw [if_pos hmp, if_neg hmonth, if_neg hmonth,
      if_pos (by omega : 2 < (5 * doy + 2) / 153 + 3), add_zero, h1, h2, h3, h4]
    omega
  · have hmonth : (5 * doy + 2) / 153 - 9 ≤ 2 := by omega
    rw [if_neg hmp, if_pos hmonth, if_pos hmonth,
      if_neg (by omega : ¬ 2 < (5 * doy + 2) / 153 - 9), add_sub_cancel_right, h1, h2, h3, h4]
    omega

/-- The remainders of the three divisions, in their ranges. -/
private theorem dayOfEra_split (doe : Int) (h0 : 0 ≤ doe) (h1 : doe < 146097) :
    let c := min (doe / 36524) 3
    let doc := doe - c * 36524
    let r := min (doc % 1461 / 365) 3
    0 ≤ c ∧ c ≤ 3 ∧ 0 ≤ doc / 1461 ∧ doc / 1461 ≤ 24 ∧ 0 ≤ r ∧ r ≤ 3 ∧
      0 ≤ doc % 1461 - r * 365 ∧ doc % 1461 - r * 365 ≤ 365 := by
  intro c doc r
  have hc : 0 ≤ c ∧ c ≤ 3 ∧ 0 ≤ doc ∧ doc ≤ 36524 := by
    have : c = min (doe / 36524) 3 := rfl
    have : doc = doe - c * 36524 := rfl
    omega
  have hr : 0 ≤ r ∧ r ≤ 3 ∧ 0 ≤ doc % 1461 - r * 365 ∧ doc % 1461 - r * 365 ≤ 365 := by
    have : r = min (doc % 1461 / 365) 3 := rfl
    omega
  omega

/-- Months and days of a civil date are in their ranges. -/
theorem civilFromDays_range (n : Int) :
    1 ≤ (civilFromDays n).month ∧ (civilFromDays n).month ≤ 12 ∧
      1 ≤ (civilFromDays n).day ∧ (civilFromDays n).day ≤ 31 := by
  have hsplit := dayOfEra_split ((n + 719468) % 146097) (by omega) (by omega)
  obtain ⟨-, -, -, -, -, -, hd0, hd1⟩ := hsplit
  exact civil_range hd0 hd1

/-- **Dates round trip**: a day number is read back from its date. -/
theorem daysFromCivil_civilFromDays (n : Int) : daysFromCivil (civilFromDays n) = n := by
  have hsplit := dayOfEra_split ((n + 719468) % 146097) (by omega) (by omega)
  obtain ⟨hc0, hc, hq0, hq, hr0, hr, hd0, hd1⟩ := hsplit
  rw [civilFromDays, daysFromCivil_civil hc0 hc hq0 hq hr0 hr hd0 hd1]
  generalize min ((n + 719468) % 146097 / 36524) 3 = c
  have hdoc := Int.emod_add_mul_ediv ((n + 719468) % 146097 - c * 36524) 1461
  generalize min (((n + 719468) % 146097 - c * 36524) % 1461 / 365) 3 = r
  omega

/-- The day number of a date that the calendar has. -/
def daysFromDate (d : Date) : Option Int :=
  if civilFromDays (daysFromCivil d) = d then some (daysFromCivil d) else none

theorem daysFromDate_civilFromDays (n : Int) : daysFromDate (civilFromDays n) = some n := by
  rw [daysFromDate, daysFromCivil_civilFromDays, if_pos rfl]

/-- The Monday on which the ISO year begins: that of the week of 4 January. -/
def isoWeek1Monday (year : Int) : Int :=
  let d := daysFromCivil ⟨year, 1, 4⟩
  d - (d + 3) % 7

/-- The day number of a weekday (Monday is `1`) of an ISO week; years have 52 or 53 of them. -/
def daysFromIsoWeek (year week weekday : Int) : Option Int :=
  let monday := isoWeek1Monday year + 7 * (week - 1)
  if 1 ≤ week ∧ monday < isoWeek1Monday (year + 1) ∧ 1 ≤ weekday ∧ weekday ≤ 7 then
    some (monday + (weekday - 1))
  else none

example : daysFromIsoWeek 2020 53 7 = some (daysFromCivil ⟨2021, 1, 3⟩) := by decide

/-! ## Zero-padded decimals -/

/-- The character of a decimal digit. -/
def digitChar (d : Nat) : Char := Char.ofNat (48 + d % 10)

/-- The value of a decimal digit character. -/
def digit? (c : Char) : Option Nat :=
  if 48 ≤ c.toNat ∧ c.toNat ≤ 57 then some (c.toNat - 48) else none

def isDigit (c : Char) : Bool := (digit? c).isSome

theorem digit?_digitChar (d : Nat) : digit? (digitChar d) = some (d % 10) := by
  have h : d % 10 < 10 := Nat.mod_lt _ (by decide)
  unfold digitChar
  generalize d % 10 = e at h
  have : e = 0 ∨ e = 1 ∨ e = 2 ∨ e = 3 ∨ e = 4 ∨ e = 5 ∨ e = 6 ∨ e = 7 ∨ e = 8 ∨ e = 9 := by omega
  rcases this with rfl | rfl | rfl | rfl | rfl | rfl | rfl | rfl | rfl | rfl <;> decide

/-- The `w` low decimal digits of `n`, most significant first. -/
def pad : Nat → Nat → List Char
  | 0, _ => []
  | w + 1, n => digitChar (n / 10 ^ w) :: pad w n

@[simp] theorem length_pad (w n : Nat) : (pad w n).length = w := by
  induction w with
  | zero => rfl
  | succ w ih => rw [pad, List.length_cons, ih]

theorem isDigit_digitChar (d : Nat) : isDigit (digitChar d) = true := by
  rw [isDigit, digit?_digitChar, Option.isSome_some]

theorem digitChar_ne {c : Char} (hc : isDigit c = false) (d : Nat) : digitChar d ≠ c := by
  rintro rfl
  rw [isDigit_digitChar] at hc
  cases hc

theorem isDigit_of_mem_pad {w n : Nat} {c : Char} (h : c ∈ pad w n) : isDigit c = true := by
  induction w with
  | zero => cases h
  | succ w ih =>
      rcases List.mem_cons.mp h with rfl | h
      · exact isDigit_digitChar _
      · exact ih h

/-- Read `w` decimal digits, continuing the number `acc`. -/
def readDigits : Nat → Nat → List Char → Option (Nat × List Char)
  | 0, acc, cs => some (acc, cs)
  | w + 1, acc, c :: cs => (digit? c).bind fun d => readDigits w (10 * acc + d) cs
  | _ + 1, _, [] => none

/-- Read a `w`-digit number. -/
def readField (w : Nat) (cs : List Char) : Option (Nat × List Char) := readDigits w 0 cs

theorem readDigits_pad (w acc n : Nat) (rest : List Char) :
    readDigits w acc (pad w n ++ rest) = some (acc * 10 ^ w + n % 10 ^ w, rest) := by
  induction w generalizing acc with
  | zero => simp [pad, readDigits, Nat.mod_one]
  | succ w ih =>
      rw [pad, List.cons_append, readDigits, digit?_digitChar, Option.bind_some, ih]
      have hpow : 10 ^ (w + 1) = 10 ^ w * 10 := Nat.pow_succ 10 w
      have hmod : n % 10 ^ (w + 1) = n % 10 ^ w + 10 ^ w * (n / 10 ^ w % 10) := by
        rw [hpow, Nat.mod_mul]
      rw [hmod, hpow]
      congr 2
      ring

theorem readField_pad {w n : Nat} (h : n < 10 ^ w) (rest : List Char) :
    readField w (pad w n ++ rest) = some (n, rest) := by
  rw [readField, readDigits_pad, Nat.mod_eq_of_lt h, Nat.zero_mul, Nat.zero_add]

/-- Drop the expected character. -/
def expect (c : Char) : List Char → Option (List Char)
  | d :: cs => if d = c then some cs else none
  | [] => none

@[simp] theorem expect_cons (c : Char) (cs : List Char) : expect c (c :: cs) = some cs := by
  simp [expect]

/-! ## Instants -/

/-- Microseconds in a day. -/
def dayMicros : Int := 86400000000

/-- Instants whose year has four digits, `0001-01-01` to `9999-12-31`. -/
def InRange (t : Int) : Prop :=
  1 ≤ (civilFromDays (t / dayMicros)).year ∧ (civilFromDays (t / dayMicros)).year ≤ 9999

instance (t : Int) : Decidable (InRange t) := inferInstanceAs (Decidable (_ ∧ _))

/-- `YYYY-MM-DD`. -/
def dateText (d : Date) : List Char :=
  pad 4 d.year.toNat ++ '-' :: (pad 2 d.month.toNat ++ '-' :: pad 2 d.day.toNat)

/-- `HH:MM:SS`, and `.ffffff` when the microseconds are not zero. -/
def clockText (us : Nat) : List Char :=
  pad 2 (us / 3600000000) ++ ':' :: (pad 2 (us / 60000000 % 60) ++ ':' ::
    (pad 2 (us / 1000000 % 60) ++
      if us % 1000000 = 0 then [] else '.' :: pad 6 (us % 1000000)))

/-- The text of an instant, with `sep` between date and clock. -/
def isoText (sep : Char) (t : Int) : List Char :=
  dateText (civilFromDays (t / dayMicros)) ++ sep :: clockText (t % dayMicros).toNat

end Calendar
