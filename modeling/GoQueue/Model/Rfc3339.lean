import GoQueue.Model.Job

/-! # Reading RFC 3339 timestamps

`time.Parse(time.RFC3339, s)`: a date, a time of day with optional fractional seconds and
a zone offset.  Digits of the fraction beyond the ninth are dropped.  Beyond the standard it
takes an hour of one digit, a comma before the fraction, and offsets up to 24 hours and 60
minutes.
-/

namespace GoQueue.Rfc3339

def digit (c : Char) : Option Nat :=
  if '0' ≤ c ∧ c ≤ '9' then some (c.toNat - 48) else none

/-- A decimal number with every character a digit, between the two bounds. -/
def number (low high : Nat) (digits : List Char) : Option Nat := do
  let n ← digits.foldlM (fun n c => (digit c).map (n * 10 + ·)) 0
  if low ≤ n ∧ n ≤ high then some n else none

def isLeap (year : Nat) : Bool :=
  year % 4 == 0 && (year % 100 != 0 || year % 400 == 0)

def daysIn (month year : Nat) : Nat :=
  if month = 2 then if isLeap year then 29 else 28
  else if month = 4 ∨ month = 6 ∨ month = 9 ∨ month = 11 then 30
  else 31

/-- Days from the epoch to a date of the proleptic Gregorian calendar. -/
def daysSinceEpoch (year month day : Nat) : Int :=
  let before : Nat := ((List.range (month - 1)).map fun m => daysIn (m + 1) year).sum
  -- leap days in the years before `year`, counted from year 1
  let leaps : Int := (year - 1 : Int) / 4 - (year - 1 : Int) / 100 + (year - 1 : Int) / 400
  365 * (year - 1 : Int) + leaps + before + (day - 1) - 719162

/-- The hour with the colon after it, and what follows. -/
def clockHour : List Char → Option (Nat × List Char)
  | h :: ':' :: rest => (number 0 23 [h]).map fun hour => (hour, rest)
  | h :: h' :: ':' :: rest => (number 0 23 [h, h']).map fun hour => (hour, rest)
  | _ => none

/-- The fraction's nanoseconds and what follows it; no fraction reads as zero. -/
def fraction : List Char → Nat × List Char
  | point :: c :: rest =>
    if (point = '.' ∨ point = ',') ∧ (digit c).isSome then
      let digits := (c :: rest).takeWhile (fun c => (digit c).isSome)
      let nanos := digits.take 9
      ((nanos.foldl (fun n c => n * 10 + (digit c).getD 0) 0) * 10 ^ (9 - nanos.length),
        (c :: rest).dropWhile (fun c => (digit c).isSome))
    else (0, point :: c :: rest)
  | rest => (0, rest)

/-- The offset from UTC in seconds. -/
def zone : List Char → Option Int
  | ['Z'] => some 0
  | [sign, h, h', ':', m, m'] => do
    let hours ← number 0 24 [h, h']
    let minutes ← number 0 60 [m, m']
    let offset : Int := (hours * 60 + minutes) * 60
    if sign = '+' then some offset else if sign = '-' then some (-offset) else none
  | _ => none

def parse (s : String) : Option Time :=
  match s.toList with
  | y₁ :: y₂ :: y₃ :: y₄ :: '-' :: mo :: mo' :: '-' :: d :: d' :: 'T' :: clock => do
    let year ← number 0 9999 [y₁, y₂, y₃, y₄]
    let month ← number 1 12 [mo, mo']
    let day ← number 1 (daysIn month year) [d, d']
    match ← clockHour clock with
    | (hour, mi :: mi' :: ':' :: s :: s' :: rest) => do
      let minute ← number 0 59 [mi, mi']
      let sec ← number 0 59 [s, s']
      let (nanos, rest) := fraction rest
      let offset ← zone rest
      some ((daysSinceEpoch year month day * 86400 + hour * 3600 + minute * 60 + sec - offset) *
        second + nanos)
    | _ => none
  | _ => none

example : parse "1970-01-02T01:00:00.25+01:00" = some (86400 * second + 250000000) := by decide
example : parse "2024-02-29T00:00:00Z" = some (1709164800 * second) := by decide
example : parse "2023-02-29T00:00:00Z" = none := by decide
example : parse "1970-01-01T1:00:00,5+24:60" = some (-86400 * second + 500000000) := by decide

end GoQueue.Rfc3339
