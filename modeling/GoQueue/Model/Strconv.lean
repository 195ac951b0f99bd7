import GoQueue.Model.Rfc3339

/-! # Reading decimal integers

`strconv.Atoi` on 64-bit integers.  The value is of use also beside an error: it is zero for a
string that is no number and the closest integer for a number out of range.
-/

namespace GoQueue.Strconv

inductive NumError where
  | errSyntax
  | errRange
deriving DecidableEq

/-- The loop of `ParseUint`.  It stops at the first character that is no digit, and as soon as the
number is out of range. -/
def parseDigits (n : Nat) : List Char → Nat × Option NumError
  | [] => (n, none)
  | c :: rest =>
    match Rfc3339.digit c with
    | none => (0, some .errSyntax)
    | some d =>
      if 2 ^ 64 ≤ n * 10 + d then (2 ^ 64 - 1, some .errRange) else parseDigits (n * 10 + d) rest

def parseUint (digits : List Char) : Nat × Option NumError :=
  if digits = [] then (0, some .errSyntax) else parseDigits 0 digits

def atoi (s : String) : Int × Option NumError :=
  let (neg, digits) := match s.toList with
    | '-' :: rest => (true, rest)
    | '+' :: rest => (false, rest)
    | chars => (false, chars)
  match parseUint digits with
  | (_, some .errSyntax) => (0, some .errSyntax)
  | (un, _) =>
    if neg then if 2 ^ 63 < un then (-2 ^ 63, some .errRange) else (-un, none)
    else if 2 ^ 63 ≤ un then (2 ^ 63 - 1, some .errRange) else (un, none)

/-- The value is a 64-bit integer in every case. -/
theorem atoi_lt (s : String) : (atoi s).1 < 2 ^ 63 := by
  unfold atoi
  split
  split
  · decide
  · split_ifs <;> simp only <;> omega

example : atoi "-007" = (-7, none) := by decide
example : atoi "9223372036854775808" = (2 ^ 63 - 1, some .errRange) := by decide +kernel
example : (atoi "").2 = some .errSyntax ∧ (atoi "1_0").2 = some .errSyntax := by decide

end GoQueue.Strconv
