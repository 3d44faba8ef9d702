import CoreLab.Lib.Calendar

/-!
# CoreLab.Datetime

Python datetimes as the backend meets them.  The columns of the store are
`DATETIME(6)`: naive microseconds, read as UTC.  A datetime that a request
carries is naive or aware; an aware one has a fixed offset from UTC.

* comparing an aware with a naive datetime is a `TypeError`, so the ordering
  functions below are partial;
* the driver writes an aware datetime by its clock reading and drops the
  offset, so `stored` is the value a column holds afterwards;
* `fromisoformat` takes what CPython's parser takes, which is more than ISO 8601 has.
-/

namespace CoreLab

open Calendar

/-- Naive UTC microseconds since 1970-01-01, the value of a `DATETIME(6)` column. -/
abbrev Time := Int

/-- Microseconds in a second, a minute and an hour. -/
def secondMicros : Int := 1000000
def minuteMicros : Int := 60 * secondMicros
def hourMicros : Int := 3600 * secondMicros

/-- A datetime of a request: its clock reading, and the offset from UTC (in
microseconds) when it is aware. -/
structure Datetime where
  naive : Time
  utcoffset : Option Int := none
deriving DecidableEq, Repr

namespace Datetime

/-- A value read back from a column. -/
def ofStored (t : Time) : Datetime := { naive := t }

/-- `replace(tzinfo=None)`, and what a column holds after the datetime is bound
to a statement. -/
def stored (d : Datetime) : Time := d.naive

/-- The instant of an aware datetime, as naive UTC: `astimezone(UTC)` without its zone. -/
def instant (d : Datetime) : Time := d.naive - d.utcoffset.getD 0

/-- `a <= b`; `none` is the `TypeError` of mixing naive with aware. -/
def le? (a b : Datetime) : Option Bool :=
  if a.utcoffset.isSome = b.utcoffset.isSome then some (decide (a.instant ≤ b.instant)) else none

/-- `a < b`; `none` is the `TypeError` of mixing naive with aware. -/
def lt? (a b : Datetime) : Option Bool :=
  if a.utcoffset.isSome = b.utcoffset.isSome then some (decide (a.instant < b.instant)) else none

/-- `a <= b < c`: the second comparison is made only when the first holds. -/
def within? (a b c : Datetime) : Option Bool :=
  (le? a b).bind fun inOrder => if inOrder then lt? b c else some false

/-- The text of an offset from UTC, `±HH:MM`. -/
def offsetText (off : Int) : List Char :=
  let minutes := (off / minuteMicros).natAbs
  (if off < 0 then '-' else '+') :: (pad 2 (minutes / 60) ++ ':' :: pad 2 (minutes % 60))

/-- `isoformat(sep)`. -/
def isoformat (d : Datetime) (sep : Char := 'T') : List Char :=
  isoText sep d.naive ++ (d.utcoffset.elim [] offsetText)

/-- `str(d)`. -/
def str (d : Datetime) : String := String.ofList (d.isoformat ' ')

/-! ## `fromisoformat` -/

/-- Where the date ends that a text begins with. -/
def separatorLocation (cs : List Char) : Nat :=
  if cs[4]? = some '-' then
    -- behind `YYYY-Www-` is a weekday, unless two digits are
    if cs[5]? = some 'W' ∧ (cs[8]? ≠ some '-' ∨ cs[10]?.any isDigit) then 8 else 10
  else if cs[4]? = some 'W' then
    -- a weekday leaves an even number of digits to the clock
    let idx := 7 + ((cs.drop 7).takeWhile isDigit).length
    if idx < 9 then idx else if idx % 2 = 0 then 7 else 8
  else 8

/-- A dash, in a date that has them. -/
def dash (dashed : Bool) (cs : List Char) : Option (List Char) :=
  if dashed then expect '-' cs else some cs

/-- Read a week and a weekday, Monday where there is none. -/
def readWeek (dashed : Bool) (year : Nat) (cs : List Char) : Option Int :=
  (readField 2 cs).bind fun (week, cs) =>
  if cs = [] then daysFromIsoWeek year week 1
  else (dash dashed cs).bind fun cs =>
    (readField 1 cs).bind fun (weekday, _) => daysFromIsoWeek year week weekday

/-- Read a month and a day. -/
def readMonth (dashed : Bool) (year : Nat) (cs : List Char) : Option Int :=
  (readField 2 cs).bind fun (month, cs) => (dash dashed cs).bind fun cs =>
  (readField 2 cs).bind fun (day, _) => daysFromDate ⟨year, month, day⟩

/-- Read `YYYY-MM-DD`, `YYYYMMDD`, `YYYY-Www[-D]` or `YYYYWww[D]`. -/
def readDate (cs : List Char) : Option Int :=
  (readField 4 cs).bind fun (year, cs) =>
  let dashed := cs.head? == some '-'
  (dash dashed cs).bind fun cs =>
    (if cs.head? = some 'W' then readWeek dashed year cs.tail else readMonth dashed year cs).filter
      fun n => decide (InRange (n * dayMicros))

/-- Nothing follows; a NUL is taken for the end of the text. -/
def ended : List Char → Bool
  | [] => true
  | c :: _ => c = '\x00'

/-- A clock that was read: hour, minute and second, as many as there are, and whether something is
left behind it. -/
structure Clock where
  fields : List Nat := []
  micros : Nat := 0
  more : Bool := false

/-- Read a fraction of a second; digits behind the sixth are dropped. -/
def readFraction (cs : List Char) : Option Clock :=
  let n := min 6 cs.length
  (readField n cs).map fun (f, cs) =>
    { micros := f * 10 ^ (6 - n), more := !ended (cs.dropWhile isDigit) }

/-- Read at most `n + 1` fields and a fraction.  What follows the first field says whether colons
separate them. -/
def readFields (colons : Option Bool) (n : Nat) (cs : List Char) : Option Clock :=
  (readField 2 cs).bind fun (v, cs) =>
  match cs with
  | [] => some { fields := [v] }
  | [c] => some { fields := [v], more := !ended [c] }
  | c :: rest =>
    let colons := colons.getD (c = ':')
    let clock :=
      if c = '.' ∨ c = ',' then readFraction rest
      else if colons ∧ c ≠ ':' then none
      else
        let cs := if colons then rest else c :: rest
        match n with
        | 0 => readFraction cs
        | n + 1 => readFields colons n cs
    clock.map fun clock => { clock with fields := v :: clock.fields }

def readClock (cs : List Char) : Option Clock := readFields none 2 cs

namespace Clock

def seconds (c : Clock) : Nat :=
  c.fields.getD 0 0 * 3600 + c.fields.getD 1 0 * 60 + c.fields.getD 2 0

def total (c : Clock) : Nat := c.seconds * 1000000 + c.micros

/-- A time of day. -/
def Valid (c : Clock) : Prop :=
  c.fields.getD 0 0 < 24 ∧ c.fields.getD 1 0 < 60 ∧ c.fields.getD 2 0 < 60

instance (c : Clock) : Decidable c.Valid := inferInstanceAs (Decidable (_ ∧ _))

end Clock

/-- Read a zone: none, `Z`, or a sign and a clock. -/
def readZone (more : Bool) : List Char → Option (Option Int)
  | [] => if more then none else some none
  | 'Z' :: cs => if ended cs then some (some 0) else none
  | sign :: cs => (readClock cs).bind fun zone =>
    -- less than a day; an offset without whole seconds is taken for UTC
    if zone.more ∨ dayMicros ≤ zone.total then none
    else if zone.seconds = 0 then some (some 0)
    else some (some (if sign = '-' then -zone.total else zone.total))

def beforeZone (c : Char) : Bool := c ≠ '+' && c ≠ '-' && c ≠ 'Z'

/-- Read a time of day and its zone. -/
def readTime (cs : List Char) : Option (Int × Option Int) :=
  (readClock (cs.takeWhile beforeZone)).bind fun clock =>
    if clock.Valid then
      (readZone clock.more (cs.dropWhile beforeZone)).map fun zone => ((clock.total : Int), zone)
    else none

/-- `datetime.fromisoformat`; `none` is its `ValueError`.  Any character may stand between date and
time. -/
def fromisoformat (s : String) : Option Datetime :=
  let cs := s.toList
  (readDate (cs.take (separatorLocation cs))).bind fun n =>
  match cs.drop (separatorLocation cs) with
  | [] => some { naive := n * dayMicros }
  | _ :: cs => (readTime cs).map fun (us, zone) => { naive := n * dayMicros + us, utcoffset := zone }

example : (fromisoformat "2024-W09-4 23:59:59,5+0130").map (·.isoformat) =
    some "2024-02-29T23:59:59.500000+01:30".toList := by
  decide +kernel

theorem readMonth_pad {n : Int} (h : InRange (n * dayMicros)) :
    readMonth true (civilFromDays n).year.toNat (pad 2 (civilFromDays n).month.toNat ++
      '-' :: pad 2 (civilFromDays n).day.toNat) = some n := by
  have hdate := daysFromDate_civilFromDays n
  obtain ⟨hm1, hm2, hd1, hd2⟩ := civilFromDays_range n
  have hyear : 1 ≤ (civilFromDays n).year := by
    rw [InRange, Int.mul_ediv_cancel n (by decide)] at h
    exact h.1
  generalize civilFromDays n = date at *
  obtain ⟨y, m, d⟩ := date
  dsimp only at hyear hm1 hm2 hd1 hd2 ⊢
  have hday := readField_pad (show d.toNat < 10 ^ 2 by omega) []
  rw [List.append_nil] at hday
  simp only [readMonth, readField_pad (show m.toNat < 10 ^ 2 by omega), Option.bind_some, dash,
    if_true, expect_cons, hday]
  rw [Int.toNat_of_nonneg (by omega : 0 ≤ y), Int.toNat_of_nonneg (by omega : 0 ≤ m),
    Int.toNat_of_nonneg (by omega : 0 ≤ d), hdate]

theorem readDate_dateText {n : Int} (h : InRange (n * dayMicros)) :
    readDate (dateText (civilFromDays n)) = some n := by
  have hyear : (civilFromDays n).year.toNat < 10 ^ 4 := by
    rw [InRange, Int.mul_ediv_cancel n (by decide)] at h
    omega
  have hmonth := readMonth_pad h
  generalize hrest : pad 2 (civilFromDays n).month.toNat ++
    '-' :: pad 2 (civilFromDays n).day.toNat = rest at hmonth
  have hweek : rest.head? ≠ some 'W' := by
    rw [← hrest]
    exact fun hw => digitChar_ne (by decide) _ (Option.some.inj hw)
  rw [readDate, dateText, hrest, readField_pad hyear, Option.bind_some]
  simp [dash, hweek, hmonth, h]

/-- A field, and what is read behind a colon. -/
theorem readFields_pad_colon {colons : Option Bool} (hcolons : colons.getD true = true) {n v : Nat}
    (hv : v < 10 ^ 2) {cs : List Char} (hcs : cs ≠ []) :
    readFields colons (n + 1) (pad 2 v ++ ':' :: cs) =
      (readFields (some true) n cs).map fun clock => { clock with fields := v :: clock.fields } := by
  obtain ⟨c, cs, rfl⟩ := List.exists_cons_of_ne_nil hcs
  rw [readFields, readField_pad hv, Option.bind_some]
  simp [hcolons]

theorem readFraction_pad {f : Nat} (hf : f < 10 ^ 6) : readFraction (pad 6 f) = some { micros := f } := by
  have hread := readField_pad hf []
  rw [List.append_nil] at hread
  simp [readFraction, hread, ended]

/-- A field that ends the clock. -/
theorem readFields_pad {n v : Nat} {colons : Option Bool} (hv : v < 10 ^ 2) :
    readFields colons n (pad 2 v) = some { fields := [v] } := by
  have hread := readField_pad hv []
  rw [List.append_nil] at hread
  cases n <;> rw [readFields, hread, Option.bind_some]

theorem readFields_pad_point {n v f : Nat} {colons : Option Bool} (hv : v < 10 ^ 2) (hf : f < 10 ^ 6) :
    readFields colons n (pad 2 v ++ '.' :: pad 6 f) = some { fields := [v], micros := f } := by
  obtain ⟨c, cs, hcs⟩ := List.exists_cons_of_ne_nil (show pad 6 f ≠ [] from List.cons_ne_nil _ _)
  have hread := readFraction_pad hf
  rw [hcs] at hread ⊢
  cases n <;> rw [readFields, readField_pad hv, Option.bind_some] <;> simp [hread]

theorem readClock_clockText {us : Nat} (h : us < 86400000000) :
    readClock (clockText us) = some
      { fields := [us / 3600000000, us / 60000000 % 60, us / 1000000 % 60]
        micros := us % 1000000 } := by
  have hlast : readFields (some true) 0 (pad 2 (us / 1000000 % 60) ++
      if us % 1000000 = 0 then [] else '.' :: pad 6 (us % 1000000)) =
        some { fields := [us / 1000000 % 60], micros := us % 1000000 } := by
    split
    · next hz => rw [List.append_nil, readFields_pad (by omega), hz]
    · exact readFields_pad_point (by omega) (by omega)
  have hne : ∀ v rest, pad 2 v ++ rest ≠ [] := fun _ _ => List.cons_ne_nil _ _
  rw [readClock, clockText, readFields_pad_colon (n := 1) rfl (by omega) (hne _ _),
    readFields_pad_colon (n := 0) rfl (by omega) (hne _ _), hlast]
  rfl

theorem beforeZone_of_mem_clockText {us : Nat} {c : Char} (h : c ∈ clockText us) :
    beforeZone c = true := by
  have hdigit : isDigit c = true → beforeZone c = true := by
    intro hc
    simp only [beforeZone, ne_eq, Bool.and_eq_true, decide_eq_true_eq]
    refine ⟨⟨?_, ?_⟩, ?_⟩ <;> (rintro rfl; cases hc)
  simp only [clockText, List.mem_append, List.mem_cons] at h
  rcases h with h | rfl | h | rfl | h | h
  · exact hdigit (isDigit_of_mem_pad h)
  · rfl
  · exact hdigit (isDigit_of_mem_pad h)
  · rfl
  · exact hdigit (isDigit_of_mem_pad h)
  · split at h
    · cases h
    · rcases List.mem_cons.mp h with rfl | h
      · rfl
      · exact hdigit (isDigit_of_mem_pad h)

/-- A clock is read back, with the zone that follows. -/
theorem readTime_clockText {us : Nat} (h : us < 86400000000) {zone : List Char} {offset : Option Int}
    (hstart : ∀ c ∈ zone.head?, beforeZone c = false) (hzone : readZone false zone = some offset) :
    readTime (clockText us ++ zone) = some ((us : Int), offset) := by
  have hall : ∀ c ∈ clockText us, beforeZone c = true := fun c hc => beforeZone_of_mem_clockText hc
  have htake : zone.takeWhile beforeZone = [] := by
    cases zone with
    | nil => rfl
    | cons c cs => rw [List.takeWhile_cons, hstart c rfl, if_neg Bool.false_ne_true]
  have hdrop : zone.dropWhile beforeZone = zone := by
    cases zone with
    | nil => rfl
    | cons c cs => rw [List.dropWhile_cons, hstart c rfl, if_neg Bool.false_ne_true]
  rw [readTime, List.takeWhile_append_of_pos hall, List.dropWhile_append_of_pos hall, htake, hdrop,
    List.append_nil, readClock_clockText h, Option.bind_some, if_pos, hzone, Option.map_some]
  · congr 2
    simp only [Clock.total, Clock.seconds, List.getD_cons_zero, List.getD_cons_succ]
    omega
  · simp only [Clock.Valid, List.getD_cons_zero, List.getD_cons_succ]
    omega

theorem length_dateText (d : Date) : (dateText d).length = 10 := by
  simp [dateText]

theorem separatorLocation_dateText (d : Date) (rest : List Char) :
    separatorLocation (dateText d ++ rest) = 10 := by
  have hdash : (dateText d ++ rest)[4]? = some '-' := rfl
  have hweek : (dateText d ++ rest)[5]? ≠ some 'W' := fun hw =>
    digitChar_ne (by decide) _ (Option.some.inj hw)
  rw [separatorLocation, if_pos hdash, if_neg fun h => hweek h.1]

/-- An instant is read back, with the zone that follows. -/
theorem fromisoformat_isoText {t : Int} (h : InRange t) {zone : List Char} {offset : Option Int}
    (hstart : ∀ c ∈ zone.head?, beforeZone c = false) (hzone : readZone false zone = some offset) :
    fromisoformat (String.ofList (isoText 'T' t ++ zone)) =
      some { naive := t, utcoffset := offset } := by
  have hday : 0 ≤ t % dayMicros := Int.emod_nonneg _ (by decide)
  have hlt : t % dayMicros < 86400000000 := Int.emod_lt_of_pos _ (by decide)
  have hus : (t % dayMicros).toNat < 86400000000 := by omega
  have hdate : InRange (t / dayMicros * dayMicros) := by
    rw [InRange, Int.mul_ediv_cancel _ (by decide)]
    exact h
  rw [isoText, List.append_assoc, List.cons_append, fromisoformat, String.toList_ofList]
  simp only [separatorLocation_dateText]
  rw [List.take_left' (length_dateText _), List.drop_left' (length_dateText _), readDate_dateText hdate, Option.bind_some]
  simp only [readTime_clockText hus hstart hzone, Option.map_some]
  rw [Int.toNat_of_nonneg hday, Int.ediv_mul_add_emod]

/-! ## zones -/

/-- An aware datetime in UTC. -/
def utc (t : Time) : Datetime := { naive := t, utcoffset := some 0 }

@[simp] theorem instant_utc (t : Time) : (utc t).instant = t := Int.sub_zero t

/-- The text of a UTC datetime is read back. -/
theorem fromisoformat_isoformat_utc {t : Time} (h : InRange t) :
    fromisoformat (String.ofList ((utc t).isoformat 'T')) = some (utc t) := by
  have hstart : ∀ c ∈ (offsetText 0).head?, beforeZone c = false := by
    rintro _ ⟨⟩
    rfl
  have hzone : readZone false (offsetText 0) = some (some 0) := by decide +kernel
  exact fromisoformat_isoText h hstart hzone

/-- The text of a UTC datetime with `Z` for its zone is read back. -/
theorem fromisoformat_zulu {t : Time} (h : InRange t) :
    fromisoformat (String.ofList (isoText 'T' t ++ ['Z'])) = some (utc t) :=
  fromisoformat_isoText h (by rintro _ ⟨⟩; rfl) (by decide)

/-- `repr(d)`; seconds and microseconds are left out where they are zero. -/
def repr (d : Datetime) : String :=
  let date := civilFromDays (d.naive / dayMicros)
  let us := (d.naive % dayMicros).toNat
  let seconds := us / 1000000 % 60
  let micros := us % 1000000
  let clock := s!"{us / 3600000000}, {us / 60000000 % 60}" ++
    (if seconds = 0 && micros = 0 then "" else s!", {seconds}") ++
    (if micros = 0 then "" else s!", {micros}")
  let zone := match d.utcoffset with
    | none => ""
    | some off => ", tzinfo=TzInfo(" ++
        (if off = 0 then "UTC" else String.ofList (offsetText off)) ++ ")"
  s!"datetime.datetime({date.year}, {date.month}, {date.day}, " ++ clock ++ zone ++ ")"

end Datetime

end CoreLab
