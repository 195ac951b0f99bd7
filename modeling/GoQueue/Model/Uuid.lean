import Mathlib.Data.List.Basic
import Mathlib.Tactic.Ring

/-! # Job identifiers

`uuid.UUID` is sixteen bytes.  The program turns identifiers into text and back with the
`google/uuid` package, which is a parameter of the model: `UuidCodec` holds the two
functions together with the one fact the program relies on, that `Parse` undoes `String`.

`canonicalCodec` is the textual form the package prints, eight, four, four, four and
twelve lower-case hexadecimal digits separated by dashes.  Its `parse` reads that form with
digits of either case, also after `urn:uuid:` and between two characters that should be braces,
and the digits without dashes.
-/

namespace GoQueue

abbrev Uuid := BitVec 128

structure UuidCodec where
  string : Uuid → String
  parse : String → Option Uuid
  parse_string : ∀ id, parse (string id) = some id

theorem UuidCodec.string_injective (codec : UuidCodec) {a b : Uuid}
    (equal : codec.string a = codec.string b) : a = b := by
  have parsed := codec.parse_string a
  rw [equal, codec.parse_string] at parsed
  exact (Option.some.inj parsed).symm

@[simp] theorem UuidCodec.string_inj {codec : UuidCodec} {a b : Uuid} :
    codec.string a = codec.string b ↔ a = b :=
  ⟨fun equal => codec.string_injective equal, congrArg _⟩

/-! ## Hexadecimal digits -/

def hexDigit (n : Nat) : Char :=
  Char.ofNat (if n < 10 then 48 + n else 87 + n)

def hexValue (c : Char) : Option Nat :=
  if '0' ≤ c ∧ c ≤ '9' then some (c.toNat - 48)
  else if 'a' ≤ c ∧ c ≤ 'f' then some (c.toNat - 87)
  else if 'A' ≤ c ∧ c ≤ 'F' then some (c.toNat - 55)
  else none

/-- The lowest `k` hexadecimal digits of a number, most significant first. -/
def hexDigits : Nat → Nat → List Char
  | 0, _ => []
  | k + 1, n => hexDigits k (n / 16) ++ [hexDigit (n % 16)]

def hexNumber (digits : List Char) : Option Nat :=
  digits.foldlM (fun number c => (hexValue c).map (number * 16 + ·)) 0

theorem hexValue_hexDigit : ∀ n < 16, hexValue (hexDigit n) = some n := by decide

@[simp] theorem length_hexDigits (k n : Nat) : (hexDigits k n).length = k := by
  induction k generalizing n with
  | zero => rfl
  | succ k inductionHypothesis => simp [hexDigits, inductionHypothesis]

theorem foldlM_hexDigits (k n number : Nat) :
    (hexDigits k n).foldlM (fun number c => (hexValue c).map (number * 16 + ·)) number =
      some (number * 16 ^ k + n % 16 ^ k) := by
  induction k generalizing n with
  | zero => simp [hexDigits, Nat.mod_one]
  | succ k inductionHypothesis =>
    have digit := hexValue_hexDigit (n % 16) (Nat.mod_lt n (by decide))
    have split : n % 16 ^ (k + 1) = n / 16 % 16 ^ k * 16 + n % 16 := by
      rw [Nat.pow_succ', Nat.mod_mul]
      ring
    simp only [hexDigits, List.foldlM_append, inductionHypothesis, Option.bind_eq_bind,
      Option.bind_some, List.foldlM_cons, digit, Option.map_some, List.foldlM_nil, Option.pure_def,
      Option.some.injEq, split]
    ring

theorem hexNumber_hexDigits (k n : Nat) : hexNumber (hexDigits k n) = some (n % 16 ^ k) := by
  simp [hexNumber, foldlM_hexDigits]

/-! ## The canonical text -/

/-- Groups thirty-two digits by dashes. -/
def dashed (digits : List Char) : List Char :=
  digits.take 8 ++ '-' :: ((digits.drop 8).take 4 ++ '-' :: ((digits.drop 12).take 4 ++
    '-' :: ((digits.drop 16).take 4 ++ '-' :: digits.drop 20)))

def undash (text : List Char) : Option (List Char) :=
  if text.length = 36 ∧ text[8]? = some '-' ∧ text[13]? = some '-' ∧ text[18]? = some '-' ∧
      text[23]? = some '-' then
    some (text.take 8 ++ ((text.drop 9).take 4 ++ ((text.drop 14).take 4 ++
      ((text.drop 19).take 4 ++ text.drop 24))))
  else none

theorem undash_dashed {digits : List Char} (full : digits.length = 32) :
    undash (dashed digits) = some digits := by
  have first : (digits.take 8).length = 8 := by simp [full]
  have second : ((digits.drop 8).take 4).length = 4 := by simp [full]
  have third : ((digits.drop 12).take 4).length = 4 := by simp [full]
  have fourth : ((digits.drop 16).take 4).length = 4 := by simp [full]
  have fifth : (digits.drop 20).length = 12 := by simp [full]
  have parts : digits = digits.take 8 ++ ((digits.drop 8).take 4 ++ ((digits.drop 12).take 4 ++
      ((digits.drop 16).take 4 ++ digits.drop 20))) := by
    conv_lhs => rw [← List.take_append_drop 8 digits, ← List.take_append_drop 4 (digits.drop 8),
      List.drop_drop, ← List.take_append_drop 4 (digits.drop 12), List.drop_drop,
      ← List.take_append_drop 4 (digits.drop 16), List.drop_drop]
  simp only [dashed]
  conv_rhs => rw [parts]
  generalize digits.take 8 = a at *
  generalize (digits.drop 8).take 4 = b at *
  generalize (digits.drop 12).take 4 = c at *
  generalize (digits.drop 16).take 4 = d at *
  generalize digits.drop 20 = e at *
  simp [undash, List.drop_append, first, second, third, fourth, fifth, List.drop_of_length_le]

def canonicalString (id : Uuid) : String :=
  String.ofList (dashed (hexDigits 32 id.toNat))

/-- The digits of a text; which form it has is told by its length. -/
def canonicalDigits (text : List Char) : Option (List Char) :=
  match text.length with
  | 36 => undash text
  | 45 => if (text.take 9).map Char.toLower = "urn:uuid:".toList then undash (text.drop 9) else none
  -- whether the first and the last character are braces is not looked at, but they are bytes
  | 38 => if text.all (·.toNat < 128) then undash ((text.drop 1).take 36) else none
  | 32 => some text
  | _ => none

def canonicalParse (text : String) : Option Uuid :=
  (canonicalDigits text.toList).bind fun digits => (hexNumber digits).map (BitVec.ofNat 128)

theorem canonicalParse_canonicalString (id : Uuid) :
    canonicalParse (canonicalString id) = some id := by
  have bounded : id.toNat % 16 ^ 32 = id.toNat :=
    Nat.mod_eq_of_lt (lt_of_lt_of_eq id.isLt (by norm_num))
  have length : (dashed (hexDigits 32 id.toNat)).length = 36 := by simp [dashed]
  simp only [canonicalParse, canonicalString, String.toList_ofList, canonicalDigits, length,
    undash_dashed (length_hexDigits 32 _), Option.bind_some, hexNumber_hexDigits, bounded,
    Option.map_some, BitVec.ofNat_toNat, BitVec.setWidth_eq]

def canonicalCodec : UuidCodec where
  string := canonicalString
  parse := canonicalParse
  parse_string := canonicalParse_canonicalString

example : canonicalString 0x123456789abcdef = "00000000-0000-0000-0123-456789abcdef" := by decide
example : canonicalParse "URN:UUID:00000000-0000-0000-0123-456789ABCDEF" = some 0x123456789abcdef := by
  decide

end GoQueue
