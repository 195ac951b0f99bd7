import GoQueue.Model.Rfc3339
import Mathlib.Data.List.DropRight

/-! # Writing RFC 3339 timestamps

The text `encoding/json` writes for a `time.Time`: RFC 3339 with the digits of the fraction that
are needed, in the zone of the instant.  `parse_format` says that `time.Parse` reads the instant
back.

The year of a day is found by cutting off cycles of 400, 100, 4 and 1 years; the last year of a
cycle of 400 or of 4 may be a day longer than the others.
-/

namespace GoQueue.Rfc3339

/-! ## Dates -/

/-- The year of a day since the epoch, and the number of the day in it, from zero. -/
def yearAndDay (days : Int) : Int × Int :=
  let d := days + 719162
  let n400 := d / 146097
  let d := d % 146097
  let n100 := min (d / 36524) 3
  let d := d - 36524 * n100
  let n4 := d / 1461
  let d := d - 1461 * n4
  let n1 := min (d / 365) 3
  (400 * n400 + 100 * n100 + 4 * n4 + n1 + 1, d - 365 * n1)

/-- The month and the day in it, from this month on with this many months after it. -/
def monthFrom (year : Nat) : Nat → Nat → Nat → Nat × Nat
  | 0, month, yday => (month, yday + 1)
  | left + 1, month, yday =>
    if yday < daysIn month year then (month, yday + 1)
    else monthFrom year left (month + 1) (yday - daysIn month year)

def monthAndDay (year yday : Nat) : Nat × Nat := monthFrom year 11 1 yday

/-! ## Texts -/

def decimal : Nat → Nat → List Char
  | 0, _ => []
  | width + 1, n => decimal width (n / 10) ++ [Nat.digitChar (n % 10)]

/-- Nothing for whole seconds. -/
def fractionText (nanos : Nat) : List Char :=
  if nanos = 0 then [] else '.' :: (decimal 9 nanos).rdropWhile (· = '0')

/-- The offset from UTC, in seconds. -/
def zoneText (offset : Int) : List Char :=
  if offset = 0 then ['Z']
  else
    -- seconds are dropped before the sign is taken
    let zone := offset.tdiv 60
    (if zone < 0 then '-' else '+') ::
      (decimal 2 (zone.natAbs / 60) ++ ':' :: decimal 2 (zone.natAbs % 60))

/-- A year that does not have four digits is an error. -/
def format (offset : Int) (t : Time) : Option (List Char) :=
  let unix := t.unix + offset
  let (year, yday) := yearAndDay (unix / 86400)
  if 0 ≤ year ∧ year ≤ 9999 then
    let (month, day) := monthAndDay year.toNat yday.toNat
    let sec := (unix % 86400).toNat
    some (decimal 4 year.toNat ++ '-' :: (decimal 2 month ++ '-' :: (decimal 2 day ++ 'T' ::
      (decimal 2 (sec / 3600) ++ ':' :: (decimal 2 (sec / 60 % 60) ++ ':' ::
        (decimal 2 (sec % 60) ++ (fractionText (t % second).toNat ++ zoneText offset)))))))
  else none

example : (format 32400 (3599 * second + 250000000)).map String.ofList =
    some "1970-01-01T09:59:59.25+09:00" := by decide

/-! ## Dates read back -/

/-- The cycles that were cut off. -/
structure Cycles (days year yday : Int) (n400 n100 n4 n1 : Int) : Prop where
  year : year = 400 * n400 + 100 * n100 + 4 * n4 + n1 + 1
  days : days + 719162 = 146097 * n400 + 36524 * n100 + 1461 * n4 + 365 * n1 + yday
  hundreds : 0 ≤ n100 ∧ n100 ≤ 3
  fours : 0 ≤ n4 ∧ n4 ≤ 24
  ones : 0 ≤ n1 ∧ n1 ≤ 3
  yday : 0 ≤ yday ∧ (yday < 365 ∨ (yday = 365 ∧ n1 = 3 ∧ (n4 < 24 ∨ n100 = 3)))

theorem cycles (days : Int) :
    ∃ n400 n100 n4 n1, Cycles days (yearAndDay days).1 (yearAndDay days).2 n400 n100 n4 n1 := by
  simp only [yearAndDay]
  refine ⟨_, _, _, _, rfl, ?_, ?_, ?_, ?_, ?_⟩ <;> omega

/-- The days of the years before, the first day of the year 1 being day zero. -/
theorem Cycles.before {days year yday n400 n100 n4 n1 : Int}
    (cut : Cycles days year yday n400 n100 n4 n1) :
    365 * (year - 1) + ((year - 1) / 4 - (year - 1) / 100 + (year - 1) / 400) + yday =
      days + 719162 := by
  obtain ⟨rfl, counted, _, _, _, _⟩ := cut
  omega

theorem yearAndDay_range (days : Int) :
    0 ≤ (yearAndDay days).1 ∧ (yearAndDay days).1 ≤ 9999 ↔ -719528 ≤ days ∧ days < 2932897 := by
  obtain ⟨n400, n100, n4, n1, named, counted, hundreds, fours, ones, yday⟩ := cycles days
  -- the bounds are reached in the last and in the first year of a cycle
  have : n100 = 0 ∨ n100 = 1 ∨ n100 = 2 ∨ n100 = 3 := by omega
  have : n1 = 0 ∨ n1 = 1 ∨ n1 = 2 ∨ n1 = 3 := by omega
  constructor <;> rintro ⟨low, high⟩ <;> constructor <;> omega

theorem Cycles.leap {days yday n400 n100 n4 n1 : Int} {year : Nat}
    (cut : Cycles days year yday n400 n100 n4 n1) (last : yday = 365) : isLeap year = true := by
  obtain ⟨named, _, _, _, _, _⟩ := cut
  have fourth : year % 4 = 0 := by omega
  have hundredth : year % 100 ≠ 0 ∨ year % 400 = 0 := by omega
  simpa [isLeap, fourth] using hundredth

def daysBefore (year month : Nat) : Nat :=
  ((List.range (month - 1)).map fun m => daysIn (m + 1) year).sum

theorem daysBefore_succ {year month : Nat} (named : 1 ≤ month) :
    daysBefore year (month + 1) = daysBefore year month + daysIn month year := by
  obtain ⟨m, rfl⟩ : ∃ m, month = m + 1 := ⟨month - 1, by omega⟩
  simp [daysBefore, List.range_succ]

theorem daysBefore_end (year : Nat) : daysBefore year 13 = if isLeap year then 366 else 365 := by
  cases leap : isLeap year <;> simp [daysBefore, daysIn, leap, List.range_succ]

/-- The month that is found has the day, and the days before it add up. -/
theorem monthFrom_spec (year left month yday : Nat) (named : 1 ≤ month)
    (inside : daysBefore year month + yday < daysBefore year (month + left + 1)) :
    month ≤ (monthFrom year left month yday).1 ∧
    (monthFrom year left month yday).1 ≤ month + left ∧
    1 ≤ (monthFrom year left month yday).2 ∧
    (monthFrom year left month yday).2 ≤ daysIn (monthFrom year left month yday).1 year ∧
    daysBefore year (monthFrom year left month yday).1 + (monthFrom year left month yday).2 =
      daysBefore year month + yday + 1 := by
  induction left generalizing month yday with
  | zero =>
    rw [Nat.add_zero, daysBefore_succ named] at inside
    simp only [monthFrom]
    omega
  | succ left inductionHypothesis =>
    simp only [monthFrom]
    split
    case isTrue here => simp only; omega
    case isFalse later =>
      have next : daysBefore year (month + 1) = _ := daysBefore_succ named
      have spec := inductionHypothesis (month + 1) (yday - daysIn month year) (by omega)
        (by rw [show month + 1 + left + 1 = month + (left + 1) + 1 by omega]; omega)
      omega

/-- The date of a day is the date that far from the epoch. -/
theorem date_spec {days : Int} {year : Nat} (named : (yearAndDay days).1 = year) :
    let yday := (yearAndDay days).2.toNat
    let month := (monthAndDay year yday).1
    let day := (monthAndDay year yday).2
    1 ≤ month ∧ month ≤ 12 ∧ 1 ≤ day ∧ day ≤ daysIn month year ∧
      daysSinceEpoch year month day = days := by
  obtain ⟨n400, n100, n4, n1, cut⟩ := cycles days
  rw [named] at cut
  have counted := cut.before
  have length : (yearAndDay days).2.toNat < daysBefore year 13 := by
    rw [daysBefore_end]
    have bounds := cut.yday
    by_cases last : (yearAndDay days).2 = 365
    · rw [if_pos (cut.leap last)]
      omega
    · split <;> omega
  intro yday month day
  have start : daysBefore year 1 = 0 := rfl
  obtain ⟨lower, upper, first, inside, total⟩ := monthFrom_spec year 11 1 yday (le_refl 1)
    (by rw [start, Nat.zero_add]; exact length)
  refine ⟨lower, upper, first, inside, ?_⟩
  have unfolded : daysSinceEpoch year month day = 365 * (year - 1 : Int) +
      ((year - 1 : Int) / 4 - (year - 1 : Int) / 100 + (year - 1 : Int) / 400) +
        daysBefore year month + (day - 1) - 719162 := rfl
  have bounds := cut.yday
  have total' : daysBefore year month + day = yday + 1 := total.trans (by rw [start, Nat.zero_add])
  have inYear : (yday : Int) = (yearAndDay days).2 := Int.toNat_of_nonneg bounds.1
  rw [unfolded]
  omega

/-! ## Numbers read back -/

theorem digit_digitChar : ∀ n < 10, digit (Nat.digitChar n) = some n := by decide

theorem foldlM_decimal (width n : Nat) (below : n < 10 ^ width) (start : Nat) :
    (decimal width n).foldlM (fun n c => (digit c).map (n * 10 + ·)) start =
      some (start * 10 ^ width + n) := by
  induction width generalizing n with
  | zero =>
    obtain rfl : n = 0 := by simpa using below
    simp [decimal]
  | succ width inductionHypothesis =>
    have shorter : n / 10 < 10 ^ width := by
      rw [Nat.div_lt_iff_lt_mul (by decide)]
      rwa [pow_succ] at below
    rw [decimal, List.foldlM_append, inductionHypothesis _ shorter]
    simp only [Option.bind_eq_bind, Option.bind_some, List.foldlM_cons, List.foldlM_nil,
      digit_digitChar _ (Nat.mod_lt n (by decide)), Option.map_some, Option.pure_def,
      Option.some.injEq, pow_succ]
    have split := Nat.div_add_mod n 10
    rw [Nat.add_mul, Nat.mul_assoc]
    omega

theorem number_decimal {width n low high : Nat} (below : n < 10 ^ width)
    (within : low ≤ n ∧ n ≤ high) :
    number low high (decimal width n) = some n := by
  rw [number, foldlM_decimal width n below]
  simp [within]

theorem zone_zoneText {offset : Int} (whole : offset % 60 = 0) (day : offset.natAbs < 86400) :
    zone (zoneText offset) = some offset := by
  obtain ⟨minutes, rfl⟩ := Int.dvd_of_emod_eq_zero whole
  unfold zoneText
  split
  case isTrue utc => rw [utc]; rfl
  case isFalse =>
    have hoursRead : number 0 24 (decimal 2 (minutes.natAbs / 60)) = _ :=
      number_decimal (by omega) (by omega)
    have minutesRead : number 0 60 (decimal 2 (minutes.natAbs % 60)) = _ :=
      number_decimal (by omega) (by omega)
    rw [Int.mul_tdiv_cancel_left minutes (by decide : (60 : Int) ≠ 0)]
    simp only [decimal, List.nil_append, List.cons_append] at hoursRead minutesRead ⊢
    simp only [zone, hoursRead, minutesRead, Option.bind_eq_bind, Option.bind_some]
    by_cases west : minutes < 0
    · simp only [west, if_true, Char.reduceEq, if_false, Option.some.injEq]
      omega
    · simp only [west, if_false, if_true, Option.some.injEq]
      omega

theorem digit_of_mem_decimal {width n : Nat} {c : Char} (member : c ∈ decimal width n) :
    (digit c).isSome = true := by
  induction width generalizing n with
  | zero => cases member
  | succ width inductionHypothesis =>
    rcases List.mem_append.mp member with before | last
    · exact inductionHypothesis before
    · rw [List.mem_singleton.mp last, digit_digitChar _ (Nat.mod_lt n (by decide))]
      rfl

theorem length_decimal (width n : Nat) : (decimal width n).length = width := by
  induction width generalizing n with
  | zero => rfl
  | succ width inductionHypothesis => simp [decimal, inductionHypothesis]

theorem foldl_of_foldlM {digits : List Char} {start n : Nat}
    (read : digits.foldlM (fun n c => (digit c).map (n * 10 + ·)) start = some n) :
    digits.foldl (fun n c => n * 10 + (digit c).getD 0) start = n := by
  induction digits generalizing start with
  | nil => exact Option.some.inj read
  | cons c digits inductionHypothesis =>
    simp only [List.foldlM_cons, Option.bind_eq_bind, Option.bind_eq_some_iff,
      Option.map_eq_some_iff] at read
    obtain ⟨next, ⟨d, value, rfl⟩, rest⟩ := read
    rw [List.foldl_cons, value]
    exact inductionHypothesis rest

theorem foldl_zeros (k start : Nat) :
    (List.replicate k '0').foldl (fun n c => n * 10 + (digit c).getD 0) start = start * 10 ^ k := by
  induction k generalizing start with
  | zero => simp
  | succ k inductionHypothesis =>
    have zero : digit '0' = some 0 := rfl
    rw [List.replicate_succ, List.foldl_cons, zero, Option.getD_some, Nat.add_zero,
      inductionHypothesis, pow_succ, Nat.mul_assoc, Nat.mul_comm 10]

/-- The zeros at the end are taken off. -/
theorem decimal_eq_append (width n : Nat) : ∃ k, decimal width n =
    (decimal width n).rdropWhile (· = '0') ++ List.replicate k '0' := by
  refine ⟨((decimal width n).rtakeWhile (· = '0')).length, ?_⟩
  have zeros : (decimal width n).rtakeWhile (· = '0') = List.replicate _ '0' :=
    List.eq_replicate_of_mem fun c member => by simpa using List.mem_rtakeWhile_imp member
  rw [← zeros, List.rdropWhile_append_rtakeWhile]

theorem fraction_digits {ds : List Char} (nonempty : ds ≠ []) (short : ds.length ≤ 9)
    (all : ∀ c ∈ ds, (digit c).isSome = true) {c : Char} (next : digit c = none)
    (rest : List Char) :
    fraction ('.' :: (ds ++ c :: rest)) =
      (ds.foldl (fun n c => n * 10 + (digit c).getD 0) 0 * 10 ^ (9 - ds.length), c :: rest) := by
  obtain ⟨d, ds, rfl⟩ := List.exists_cons_of_ne_nil nonempty
  have first := all d List.mem_cons_self
  have taken : (d :: ds ++ c :: rest).takeWhile (fun c => (digit c).isSome) = d :: ds := by
    rw [List.takeWhile_append_of_pos all, List.takeWhile_cons_of_neg (by simp [next]),
      List.append_nil]
  have left : (d :: ds ++ c :: rest).dropWhile (fun c => (digit c).isSome) = c :: rest := by
    rw [List.dropWhile_append_of_pos all, List.dropWhile_cons_of_neg (by simp [next])]
  rw [List.cons_append] at taken left ⊢
  simp only [fraction, first, true_or, and_true, if_true, taken, left, List.take_of_length_le short]

theorem fraction_fractionText {nanos : Nat} (below : nanos < 10 ^ 9) {c : Char}
    (next : digit c = none) (other : c ≠ '.' ∧ c ≠ ',') (rest : List Char) :
    fraction (fractionText nanos ++ c :: rest) = (nanos, c :: rest) := by
  unfold fractionText
  split
  case isTrue zero =>
    rw [List.nil_append, zero]
    cases rest with
    | nil => rfl
    | cons c' rest => simp [fraction, other]
  case isFalse positive =>
    obtain ⟨k, split⟩ := decimal_eq_append 9 nanos
    have value := foldl_of_foldlM (foldlM_decimal 9 nanos below 0)
    have length := length_decimal 9 nanos
    have all {c : Char} (member : c ∈ decimal 9 nanos) := digit_of_mem_decimal member
    generalize (decimal 9 nanos).rdropWhile (· = '0') = ds at split ⊢
    rw [split, List.foldl_append, foldl_zeros, Nat.zero_mul, Nat.zero_add] at value
    rw [split, List.length_append, List.length_replicate] at length
    have nonempty : ds ≠ [] := by
      rintro rfl
      rw [List.foldl_nil, Nat.zero_mul] at value
      exact positive value.symm
    rw [List.cons_append, fraction_digits nonempty (by omega)
      (fun c member => all (split ▸ List.mem_append_left _ member)) next,
      show 9 - ds.length = k by omega, value]

theorem nanoseconds (t : Time) : (t % second).toNat < 10 ^ 9 := by
  have bound : ∀ a : Int, (a % 1000000000).toNat < 10 ^ 9 := by omega
  exact bound t

/-- An instant is put together again from its parts. -/
theorem instant_eq (t : Time) (offset : Int) :
    ((t.unix + offset) / 86400 * 86400 + (((t.unix + offset) % 86400).toNat / 3600 : Nat) * 3600 +
      (((t.unix + offset) % 86400).toNat / 60 % 60 : Nat) * 60 +
        (((t.unix + offset) % 86400).toNat % 60 : Nat) - offset) * second +
          (t % second).toNat = t := by
  have parts : ∀ a b : Int, ((a / 1000000000 + b) / 86400 * 86400 +
      (((a / 1000000000 + b) % 86400).toNat / 3600 : Nat) * 3600 +
      (((a / 1000000000 + b) % 86400).toNat / 60 % 60 : Nat) * 60 +
        (((a / 1000000000 + b) % 86400).toNat % 60 : Nat) - b) * 1000000000 +
          (a % 1000000000).toNat = a := by omega
  exact parts t offset

/-- An offset starts with a letter or a sign. -/
theorem zoneText_cons (offset : Int) :
    ∃ c rest, zoneText offset = c :: rest ∧ digit c = none ∧ c ≠ '.' ∧ c ≠ ',' := by
  simp only [zoneText]
  split
  · exact ⟨'Z', [], rfl, rfl, by decide⟩
  · split
    · exact ⟨'-', _, rfl, rfl, by decide⟩
    · exact ⟨'+', _, rfl, rfl, by decide⟩

/-- Of two digits neither is the colon. -/
theorem clockHour_decimal {hour : Nat} (valid : hour < 24) (rest : List Char) :
    clockHour (decimal 2 hour ++ ':' :: rest) = some (hour, rest) := by
  have read : number 0 23 (decimal 2 hour) = _ := number_decimal (by omega) (by omega)
  simp only [decimal, List.nil_append, List.cons_append] at read ⊢
  rw [clockHour, read, Option.map_some]
  intro colon
  have digit := digit_digitChar (hour % 10) (by omega)
  rw [colon] at digit
  cases digit

/-- A date and a time of day that exist, with whatever stands for the fraction and the zone. -/
theorem parse_parts {year month day hour minute sec nanos : Nat} {offset : Int}
    {tail zoned : List Char} (fourDigits : year ≤ 9999) (named : 1 ≤ month ∧ month ≤ 12)
    (valid : 1 ≤ day ∧ day ≤ daysIn month year) (clock : hour < 24 ∧ minute < 60 ∧ sec < 60)
    (fractional : fraction tail = (nanos, zoned)) (offsetRead : zone zoned = some offset) :
    parse (.ofList (decimal 4 year ++ '-' :: (decimal 2 month ++ '-' :: (decimal 2 day ++ 'T' ::
      (decimal 2 hour ++ ':' :: (decimal 2 minute ++ ':' :: (decimal 2 sec ++ tail))))))) =
      some ((daysSinceEpoch year month day * 86400 + hour * 3600 + minute * 60 + sec - offset) *
        second + nanos) := by
  have short : day ≤ 31 :=
    valid.2.trans (show daysIn month year ≤ 31 by unfold daysIn; split_ifs <;> decide)
  have yearRead : number 0 9999 (decimal 4 year) = _ := number_decimal (by omega) (by omega)
  have monthRead : number 1 12 (decimal 2 month) = _ := number_decimal (by omega) named
  have dayRead : number 1 (daysIn month year) (decimal 2 day) = _ :=
    number_decimal (by omega) valid
  have clockRead (rest : List Char) := clockHour_decimal clock.1 rest
  have minuteRead : number 0 59 (decimal 2 minute) = _ := number_decimal (by omega) (by omega)
  have secondRead : number 0 59 (decimal 2 sec) = _ := number_decimal (by omega) (by omega)
  rw [parse, String.toList_ofList]
  simp only [decimal, List.nil_append, List.cons_append] at yearRead monthRead dayRead ⊢
  simp only [decimal, List.nil_append, List.cons_append] at clockRead minuteRead secondRead
  simp only [yearRead, monthRead, dayRead, clockRead, minuteRead, secondRead, fractional,
    offsetRead, Option.bind_eq_bind, Option.bind_some]

/-- `time.Parse` reads what is written for an instant as this instant, in any zone. -/
theorem parse_format {offset : Int} (whole : offset % 60 = 0) (day : offset.natAbs < 86400)
    {t : Time} {text : List Char} (written : format offset t = some text) :
    parse (.ofList text) = some t := by
  simp only [format] at written
  split at written
  case isFalse => cases written
  case isTrue range =>
    obtain ⟨low, high⟩ := range
    cases written
    obtain ⟨year, named⟩ := Int.eq_ofNat_of_zero_le low
    obtain ⟨january, december, first, last, counted⟩ := date_spec named
    obtain ⟨c, rest, zoned, next, other⟩ := zoneText_cons offset
    have fractional := fraction_fractionText (nanoseconds t) next other rest
    rw [← zoned] at fractional
    rw [named, Int.toNat_natCast, parse_parts (by omega) ⟨january, december⟩ ⟨first, last⟩
      (by omega) fractional (zone_zoneText whole day), counted, instant_eq t offset]

/-- The first instant of the year 0 and the last one of the year 9999, on the clock of the zone. -/
theorem format_isSome_iff (offset : Int) (t : Time) : (format offset t).isSome ↔
    -719528 * 86400 ≤ t.unix + offset ∧ t.unix + offset < 2932897 * 86400 := by
  have range := yearAndDay_range ((t.unix + offset) / 86400)
  simp only [format]
  split_ifs with written
  · simp only [Option.isSome_some, true_iff]
    have := range.mp written
    omega
  · simp only [Option.isSome_none, Bool.false_eq_true, false_iff]
    intro inside
    exact written (range.mpr (by omega))

end GoQueue.Rfc3339
