import Mathlib.Data.List.Basic

/-! # JSON texts

Values, the compact text that a server writes for a value, and a parser for any JSON text.  The
writer escapes what must not stand in a string literal, and also `<`, `>`, `&` and the two line
separators, so that a text can be put into a page.  The parser takes one unit of an escape after
the other; half of a surrogate pair is read as the replacement character.

`parse_text` is the round trip.  A number is kept as its literal, and the round trip is for values
whose numbers are integers.

The characters `\x22`, `\x5c`, `\x7b` and `\x7d` are the quotation mark, the backslash and the two
braces.
-/

inductive Json where
  | null
  | bool (b : Bool)
  /-- The literal, as it stands in the text. -/
  | number (literal : List Char)
  | string (s : List Char)
  | array (elements : List Json)
  | object (members : List (List Char × Json))

namespace Json

/-! ## Writing -/

/-- `\u` and four hexadecimal digits. -/
def unicodeEscape (c : Char) : List Char :=
  let n := c.toNat
  ['\x5c', 'u', Nat.digitChar (n / 4096 % 16), Nat.digitChar (n / 256 % 16),
    Nat.digitChar (n / 16 % 16), Nat.digitChar (n % 16)]

def escape (c : Char) : List Char :=
  if c = '\x22' ∨ c = '\x5c' then ['\x5c', c]
  else if c = '\x08' then ['\x5c', 'b']
  else if c = '\x0c' then ['\x5c', 'f']
  else if c = '\n' then ['\x5c', 'n']
  else if c = '\r' then ['\x5c', 'r']
  else if c = '\t' then ['\x5c', 't']
  else if c.toNat < 0x20 ∨ c = '<' ∨ c = '>' ∨ c = '&' ∨ c = '\u2028' ∨ c = '\u2029' then
    unicodeEscape c
  else [c]

def stringText (s : List Char) : List Char := '\x22' :: (s.flatMap escape ++ ['\x22'])

def intLiteral : Int → List Char
  | .ofNat n => Nat.toDigits 10 n
  | .negSucc n => '-' :: Nat.toDigits 10 (n + 1)

mutual

def text : Json → List Char
  | .null => ['n', 'u', 'l', 'l']
  | .bool true => ['t', 'r', 'u', 'e']
  | .bool false => ['f', 'a', 'l', 's', 'e']
  | .number literal => literal
  | .string s => stringText s
  | .array [] => ['[', ']']
  | .array (e :: es) => '[' :: (e.text ++ (moreElements es ++ [']']))
  | .object [] => ['\x7b', '\x7d']
  | .object ((key, e) :: ms) =>
    '\x7b' :: (stringText key ++ ':' :: (e.text ++ (moreMembers ms ++ ['\x7d'])))

/-- The elements after the first. -/
def moreElements : List Json → List Char
  | [] => []
  | e :: es => ',' :: (e.text ++ moreElements es)

def moreMembers : List (List Char × Json) → List Char
  | [] => []
  | (key, e) :: ms => ',' :: (stringText key ++ ':' :: (e.text ++ moreMembers ms))

end

/-! ## Reading -/

def isSpace (c : Char) : Bool := c = ' ' || c = '\t' || c = '\n' || c = '\r'

def skipSpace (text : List Char) : List Char := text.dropWhile isSpace

def hexValue (c : Char) : Option Nat :=
  if '0' ≤ c ∧ c ≤ '9' then some (c.toNat - 48)
  else if 'a' ≤ c ∧ c ≤ 'f' then some (c.toNat - 87)
  else if 'A' ≤ c ∧ c ≤ 'F' then some (c.toNat - 55)
  else none

def hex4 (a b c d : Char) : Option Nat := do
  some (((← hexValue a) * 4096) + (← hexValue b) * 256 + (← hexValue c) * 16 + (← hexValue d))

def isHighSurrogate (n : Nat) : Bool := 0xD800 ≤ n && n < 0xDC00

def isLowSurrogate (n : Nat) : Bool := 0xDC00 ≤ n && n < 0xE000

/-- A code unit by itself. -/
def unit (n : Nat) : Char :=
  if isHighSurrogate n || isLowSurrogate n then '\uFFFD' else Char.ofNat n

def pair (high low : Nat) : Char := Char.ofNat ((high - 0xD800) * 1024 + (low - 0xDC00) + 0x10000)

/-- The character that a backslash and this one stand for. -/
def unescape (c : Char) : Option Char :=
  if c = '\x22' ∨ c = '\x5c' ∨ c = '/' then some c
  else if c = 'b' then some '\x08'
  else if c = 'f' then some '\x0c'
  else if c = 'n' then some '\n'
  else if c = 'r' then some '\r'
  else if c = 't' then some '\t'
  else none

def push (c : Char) : List Char × List Char → List Char × List Char
  | (s, rest) => (c :: s, rest)

/-- A string literal after its opening quote, with what follows it. -/
def stringBody : List Char → Option (List Char × List Char)
  | [] => none
  | c :: rest =>
    if c = '\x22' then some ([], rest)
    else if c = '\x5c' then
      match rest with
      | [] => none
      | 'u' :: a :: b :: c :: d :: rest =>
        match hex4 a b c d with
        | none => none
        | some high =>
          match rest with
          | '\x5c' :: 'u' :: a :: b :: c :: d :: rest' =>
            match hex4 a b c d with
            | none => none
            | some low =>
              if isHighSurrogate high && isLowSurrogate low then
                (stringBody rest').map (push (pair high low))
              else (stringBody ('\x5c' :: 'u' :: a :: b :: c :: d :: rest')).map (push (unit high))
          | rest => (stringBody rest).map (push (unit high))
      | c :: rest =>
        match unescape c with
        | none => none
        | some c => (stringBody rest).map (push c)
    else if c.toNat < 0x20 then none
    else (stringBody rest).map (push c)

/-- One digit at least. -/
def digits (text : List Char) : Option (List Char × List Char) :=
  if text.takeWhile Char.isDigit = [] then none
  else some (text.takeWhile Char.isDigit, text.dropWhile Char.isDigit)

def integerPart : List Char → Option (List Char × List Char)
  | '0' :: rest => some (['0'], rest)
  | text => digits text

def fractionPart : List Char → Option (List Char × List Char)
  | '.' :: rest => (digits rest).map fun (ds, rest) => ('.' :: ds, rest)
  | text => some ([], text)

def exponentPart : List Char → Option (List Char × List Char)
  | c :: rest =>
    if c = 'e' ∨ c = 'E' then
      match rest with
      | sign :: rest' =>
        if sign = '+' ∨ sign = '-' then (digits rest').map fun (ds, rest) => (c :: sign :: ds, rest)
        else (digits rest).map fun (ds, rest) => (c :: ds, rest)
      | [] => none
    else some ([], c :: rest)
  | [] => some ([], [])

def unsigned (text : List Char) : Option (List Char × List Char) := do
  let (int, text) ← integerPart text
  let (frac, text) ← fractionPart text
  let (exp, text) ← exponentPart text
  some (int ++ frac ++ exp, text)

def numberLiteral : List Char → Option (List Char × List Char)
  | '-' :: rest => (unsigned rest).map fun (literal, rest) => ('-' :: literal, rest)
  | text => unsigned text

/-- The integer of a literal without fraction and exponent. -/
def intOfLiteral : List Char → Option Int
  | '-' :: ds => if ds.all Char.isDigit then some (-(Nat.ofDigitChars 10 ds 0 : Int)) else none
  | ds => if ds.all Char.isDigit then some (Nat.ofDigitChars 10 ds 0 : Int) else none

mutual

/-- A value with what follows it.  The fuel bounds the number of nested calls. -/
def value : Nat → List Char → Option (Json × List Char)
  | 0, _ => none
  | fuel + 1, text =>
    match skipSpace text with
    | '\x22' :: rest => (stringBody rest).map fun (s, rest) => (.string s, rest)
    | '[' :: rest =>
      match skipSpace rest with
      | ']' :: rest => some (.array [], rest)
      | rest => (elements fuel rest).map fun (es, rest) => (.array es, rest)
    | '\x7b' :: rest =>
      match skipSpace rest with
      | '\x7d' :: rest => some (.object [], rest)
      | rest => (members fuel rest).map fun (ms, rest) => (.object ms, rest)
    | 'n' :: 'u' :: 'l' :: 'l' :: rest => some (.null, rest)
    | 't' :: 'r' :: 'u' :: 'e' :: rest => some (.bool true, rest)
    | 'f' :: 'a' :: 'l' :: 's' :: 'e' :: rest => some (.bool false, rest)
    | rest => (numberLiteral rest).map fun (literal, rest) => (.number literal, rest)

/-- The elements of an array up to its end. -/
def elements : Nat → List Char → Option (List Json × List Char)
  | 0, _ => none
  | fuel + 1, text => do
    let (e, rest) ← value fuel text
    match skipSpace rest with
    | ',' :: rest => (elements fuel rest).map fun (es, rest) => (e :: es, rest)
    | ']' :: rest => some ([e], rest)
    | _ => none

def members : Nat → List Char → Option (List (List Char × Json) × List Char)
  | 0, _ => none
  | fuel + 1, text =>
    match skipSpace text with
    | '\x22' :: rest => do
      let (key, rest) ← stringBody rest
      match skipSpace rest with
      | ':' :: rest =>
        let (e, rest) ← value fuel rest
        match skipSpace rest with
        | ',' :: rest => (members fuel rest).map fun (ms, rest) => ((key, e) :: ms, rest)
        | '\x7d' :: rest => some ([(key, e)], rest)
        | _ => none
      | _ => none
    | _ => none

end

/-- The value of a text that is nothing but a value. -/
def parse (text : List Char) : Option Json := do
  let (e, rest) ← value (2 * text.length + 1) text
  if skipSpace rest = [] then some e else none

/-! ## Strings read back -/

theorem hexValue_digitChar : ∀ n, n < 16 → hexValue (Nat.digitChar n) = some n := by decide

theorem hex4_digits (n : Nat) (small : n < 65536) :
    hex4 (Nat.digitChar (n / 4096 % 16)) (Nat.digitChar (n / 256 % 16))
      (Nat.digitChar (n / 16 % 16)) (Nat.digitChar (n % 16)) = some n := by
  have digit (k : Nat) : hexValue (Nat.digitChar (k % 16)) = some (k % 16) :=
    hexValue_digitChar _ (Nat.mod_lt _ (by decide))
  simp only [hex4, digit, Option.bind_eq_bind, Option.bind_some, Option.some.injEq]
  omega

theorem not_surrogate {n : Nat} (low : n < 0xD800) :
    isHighSurrogate n = false ∧ isLowSurrogate n = false := by
  simp only [isHighSurrogate, isLowSurrogate, Bool.and_eq_false_iff, decide_eq_false_iff_not]
  omega

theorem unit_toNat {c : Char} (low : c.toNat < 0xD800) : unit c.toNat = c := by
  obtain ⟨high, low⟩ := not_surrogate low
  simp [unit, high, low, Char.ofNat_toNat]

/-- A character that is escaped as a code unit is read back, whatever follows. -/
theorem stringBody_unicodeEscape {c : Char} (low : c.toNat < 0xD800) (rest : List Char) :
    stringBody (unicodeEscape c ++ rest) = (stringBody rest).map (push c) := by
  have digits := hex4_digits c.toNat (by omega)
  simp only [unicodeEscape, List.cons_append, List.nil_append]
  rw [stringBody.eq_def]
  simp only [Char.reduceEq, if_false, if_true, digits]
  split
  case h_1 a b c' d rest' =>
    rw [unit_toNat low]
    cases second : hex4 a b c' d with
    | none => simp [stringBody, second]
    | some n => simp [(not_surrogate low).1]
  case h_2 => rw [unit_toNat low]

theorem stringBody_short {c e : Char} (escapes : unescape e = some c) (rest : List Char) :
    stringBody ('\x5c' :: e :: rest) = (stringBody rest).map (push c) := by
  have unit : e ≠ 'u' := by
    rintro rfl
    cases escapes
  rw [stringBody.eq_def]
  simp only [Char.reduceEq, if_false, if_true]
  split
  · rename_i same
    cases same
  · rename_i same
    exact absurd (List.cons.inj same).1 unit
  · rename_i same
    obtain ⟨rfl, rfl⟩ := List.cons.inj same
    rw [escapes]

theorem stringBody_escape (c : Char) (rest : List Char) :
    stringBody (escape c ++ rest) = (stringBody rest).map (push c) := by
  unfold escape
  split_ifs with special same same same same same control
  · exact stringBody_short (by rcases special with rfl | rfl <;> rfl) rest
  · exact stringBody_short (by rw [same]; rfl) rest
  · exact stringBody_short (by rw [same]; rfl) rest
  · exact stringBody_short (by rw [same]; rfl) rest
  · exact stringBody_short (by rw [same]; rfl) rest
  · exact stringBody_short (by rw [same]; rfl) rest
  · refine stringBody_unicodeEscape ?_ rest
    rcases control with below | rfl | rfl | rfl | rfl | rfl
    · omega
    all_goals decide
  · obtain ⟨unquoted, unescaped⟩ := not_or.mp special
    have printable : ¬ c.toNat < 0x20 := fun below => control (.inl below)
    rw [List.singleton_append, stringBody.eq_def]
    simp only [unquoted, unescaped, printable, if_false]

/-- What is written for a string is read back, up to the closing quote. -/
theorem stringBody_escaped (s rest : List Char) :
    stringBody (s.flatMap escape ++ '\x22' :: rest) = some (s, rest) := by
  induction s with
  | nil => rw [List.flatMap_nil, List.nil_append, stringBody.eq_def]; rfl
  | cons c s inductionHypothesis =>
    rw [List.flatMap_cons, List.append_assoc, stringBody_escape, inductionHypothesis]
    rfl

/-! ## Numbers read back -/

/-- What follows a number does not look like more of it. -/
def Stops (rest : List Char) : Prop :=
  ∀ c ∈ rest.head?, c.isDigit = false ∧ c ≠ '.' ∧ c ≠ 'e' ∧ c ≠ 'E'

theorem digits_append {ds rest : List Char} (nonempty : ds ≠ []) (all : ∀ c ∈ ds, c.isDigit = true)
    (stops : Stops rest) : digits (ds ++ rest) = some (ds, rest) := by
  have nextTake : rest.takeWhile Char.isDigit = [] := by
    cases rest with
    | nil => rfl
    | cons c rest => simp [(stops c rfl).1]
  have nextDrop : rest.dropWhile Char.isDigit = rest := by
    cases rest with
    | nil => rfl
    | cons c rest => simp [(stops c rfl).1]
  simp [digits, List.takeWhile_append_of_pos all, List.dropWhile_append_of_pos all, nextTake,
    nextDrop, nonempty]

/-- A positive number has no leading zero. -/
theorem toDigits_head {n : Nat} (positive : 0 < n) :
    ∃ d ds, Nat.toDigits 10 n = d :: ds ∧ d ≠ '0' := by
  induction n using Nat.strongRecOn with
  | ind n inductionHypothesis =>
    rw [Nat.toDigits_eq_if (by decide)]
    split
    case isTrue small =>
      have leading : ∀ n < 10, 0 < n → Nat.digitChar n ≠ '0' := by decide
      exact ⟨_, [], rfl, leading n small positive⟩
    case isFalse large =>
      obtain ⟨d, ds, leading, nonzero⟩ := inductionHypothesis (n / 10) (by omega) (by omega)
      exact ⟨d, ds ++ [(n % 10).digitChar], by rw [leading]; rfl, nonzero⟩

theorem unsigned_toDigits (n : Nat) {rest : List Char} (stops : Stops rest) :
    unsigned (Nat.toDigits 10 n ++ rest) = some (Nat.toDigits 10 n, rest) := by
  have integer : integerPart (Nat.toDigits 10 n ++ rest) = some (Nat.toDigits 10 n, rest) := by
    by_cases zero : n = 0
    · subst zero
      rfl
    · obtain ⟨d, ds, leading, nonzero⟩ := toDigits_head (Nat.pos_of_ne_zero zero)
      have all : ∀ c ∈ Nat.toDigits 10 n, c.isDigit = true :=
        fun c member => Nat.isDigit_of_mem_toDigits (by decide) (by decide) member
      rw [← digits_append Nat.toDigits_ne_nil all stops, leading, List.cons_append, integerPart]
      intro rest' same
      exact nonzero (List.cons.inj same).1
  have fraction : fractionPart rest = some ([], rest) := by
    unfold fractionPart
    split
    · exact absurd rfl (stops '.' rfl).2.1
    · rfl
  have exponent : exponentPart rest = some ([], rest) := by
    cases rest with
    | nil => rfl
    | cons c rest =>
      obtain ⟨-, -, lower, upper⟩ := stops c rfl
      simp [exponentPart, lower, upper]
  simp [unsigned, integer, fraction, exponent]

theorem toDigits_cons (n : Nat) : ∃ d ds, Nat.toDigits 10 n = d :: ds ∧ d.isDigit = true := by
  obtain ⟨d, ds, split⟩ := List.exists_cons_of_ne_nil (Nat.toDigits_ne_nil (n := n) (b := 10))
  exact ⟨d, ds, split, Nat.isDigit_of_mem_toDigits (by decide) (by decide)
    (split ▸ List.mem_cons_self : d ∈ Nat.toDigits 10 n)⟩

/-- A literal starts with a digit or a sign. -/
theorem intLiteral_cons (n : Int) :
    ∃ c cs, intLiteral n = c :: cs ∧ (c.isDigit = true ∨ c = '-') := by
  cases n with
  | ofNat n =>
    obtain ⟨d, ds, split, digit⟩ := toDigits_cons n
    exact ⟨d, ds, split, .inl digit⟩
  | negSucc n => exact ⟨'-', _, rfl, .inr rfl⟩

theorem numberLiteral_intLiteral (n : Int) {rest : List Char} (stops : Stops rest) :
    numberLiteral (intLiteral n ++ rest) = some (intLiteral n, rest) := by
  cases n with
  | ofNat n =>
    have read := unsigned_toDigits n stops
    obtain ⟨d, ds, split, digit⟩ := toDigits_cons n
    simp only [intLiteral, split, List.cons_append] at read ⊢
    rw [← read, numberLiteral]
    intro rest' same
    rw [(List.cons.inj same).1] at digit
    cases digit
  | negSucc n => simp [intLiteral, numberLiteral, unsigned_toDigits (n + 1) stops]

theorem intOfLiteral_intLiteral (n : Int) : intOfLiteral (intLiteral n) = some n := by
  have all (n : Nat) : (Nat.toDigits 10 n).all Char.isDigit = true :=
    List.all_eq_true.mpr fun c member => Nat.isDigit_of_mem_toDigits (by decide) (by decide) member
  cases n with
  | ofNat n =>
    obtain ⟨d, ds, leading, digit⟩ := toDigits_cons n
    simp only [intLiteral, intOfLiteral]
    split
    · rename_i same
      rw [(List.cons.inj (leading.symm.trans same)).1] at digit
      cases digit
    · rw [all, if_pos rfl, Nat.ofDigitChars_ten_toDigits]
      rfl
  | negSucc n =>
    simp only [intLiteral, intOfLiteral, all, if_true, Nat.ofDigitChars_ten_toDigits]
    rfl

/-! ## Values read back -/

mutual

/-- All numbers are written as integers. -/
def Integral : Json → Prop
  | .number literal => ∃ n, literal = intLiteral n
  | .array es => IntegralElements es
  | .object ms => IntegralMembers ms
  | .null | .bool _ | .string _ => True

def IntegralElements : List Json → Prop
  | [] => True
  | e :: es => e.Integral ∧ IntegralElements es

def IntegralMembers : List (List Char × Json) → Prop
  | [] => True
  | (_, e) :: ms => e.Integral ∧ IntegralMembers ms

end

theorem integralElements_iff {es : List Json} : IntegralElements es ↔ ∀ e ∈ es, e.Integral := by
  induction es with
  | nil => simp [IntegralElements]
  | cons e es inductionHypothesis => simp [IntegralElements, inductionHypothesis]

theorem skipSpace_cons {c : Char} (ink : isSpace c = false) (rest : List Char) :
    skipSpace (c :: rest) = c :: rest := by
  simp [skipSpace, ink]

theorem isDigit_ne {c d : Char} (digit : c.isDigit = true) (other : d.isDigit = false) : c ≠ d := by
  rintro rfl
  rw [digit] at other
  cases other

theorem isSpace_of_isDigit {c : Char} (digit : c.isDigit = true) : isSpace c = false := by
  simp [isSpace, isDigit_ne digit]

/-- A value starts with neither a space nor what closes an array. -/
theorem text_cons {e : Json} (integral : e.Integral) :
    ∃ c cs, e.text = c :: cs ∧ isSpace c = false ∧ c ≠ ']' := by
  cases e with
  | number literal =>
    obtain ⟨n, rfl⟩ := integral
    obtain ⟨c, cs, leading, digit | rfl⟩ := intLiteral_cons n
    · exact ⟨c, cs, leading, isSpace_of_isDigit digit, isDigit_ne digit rfl⟩
    · exact ⟨'-', cs, leading, rfl, by decide⟩
  | null => exact ⟨'n', _, rfl, rfl, by decide⟩
  | bool b => cases b <;> exact ⟨_, _, rfl, rfl, by decide⟩
  | string s => exact ⟨'\x22', _, rfl, rfl, by decide⟩
  | array es =>
    refine ⟨'[', ?_⟩
    cases es <;> exact ⟨_, rfl, rfl, by decide⟩
  | object ms =>
    refine ⟨'\x7b', ?_⟩
    rcases ms with _ | ⟨⟨key, e⟩, ms⟩ <;> exact ⟨_, rfl, rfl, by decide⟩

theorem stops_of_cons {c : Char} {rest : List Char}
    (ends : c = ',' ∨ c = ']' ∨ c = '\x7d') : Stops (c :: rest) := by
  rintro _ ⟨⟩
  rcases ends with rfl | rfl | rfl <;> decide

theorem value_number (n : Int) {rest : List Char} (stops : Stops rest) (fuel : Nat) :
    value (fuel + 1) (intLiteral n ++ rest) = some (.number (intLiteral n), rest) := by
  have read := numberLiteral_intLiteral n stops
  obtain ⟨c, cs, leading, start⟩ := intLiteral_cons n
  have ink : isSpace c = false := by
    rcases start with digit | rfl
    · exact isSpace_of_isDigit digit
    · rfl
  have other {d : Char} (letter : d.isDigit = false) (unsigned : d ≠ '-') : c ≠ d := by
    rcases start with digit | rfl
    · exact isDigit_ne digit letter
    · exact unsigned.symm
  rw [leading, List.cons_append] at read ⊢
  rw [value, skipSpace_cons ink]
  split
  case h_7 => rw [read]; rfl
  all_goals
    rename_i same
    exact absurd (List.cons.inj same).1 (other (by decide) (by decide))

theorem skipSpace_text {e : Json} (integral : e.Integral) (rest : List Char) :
    skipSpace (e.text ++ rest) = e.text ++ rest := by
  obtain ⟨c, cs, leading, ink, -⟩ := text_cons integral
  rw [leading, List.cons_append, skipSpace_cons ink]

mutual

theorem value_text (e : Json) (integral : e.Integral) (rest : List Char) (stops : Stops rest)
    (fuel : Nat) (enough : 2 * e.text.length ≤ fuel) :
    value fuel (e.text ++ rest) = some (e, rest) := by
  obtain ⟨c, cs, leading, ink, -⟩ := text_cons integral
  obtain ⟨fuel, rfl⟩ : ∃ n, fuel = n + 1 :=
    ⟨fuel - 1, by rw [leading, List.length_cons] at enough; omega⟩
  match e, integral with
  | .null, _ => rfl
  | .bool true, _ | .bool false, _ => rfl
  | .number literal, integral =>
    obtain ⟨n, rfl⟩ := integral
    exact value_number n stops fuel
  | .string s, _ =>
    simp only [text, stringText, List.cons_append, List.append_assoc, List.nil_append]
    rw [value, skipSpace_cons rfl]
    simp only [stringBody_escaped, Option.map_some]
  | .array [], _ => rfl
  | .array (e :: es), integral =>
    obtain ⟨own, others⟩ := integral
    simp only [text, List.length_cons, List.length_append] at enough
    have read := elements_text e es own others rest fuel (by omega)
    obtain ⟨c, cs, leading, -, opens⟩ := text_cons own
    simp only [text, List.cons_append, List.append_assoc, List.nil_append]
    rw [value, skipSpace_cons rfl]
    simp only [skipSpace_text own]
    split
    · rename_i same
      rw [leading] at same
      exact absurd (List.cons.inj same).1 opens
    · rw [read]
      rfl
  | .object [], _ => rfl
  | .object ((key, e) :: ms), integral =>
    obtain ⟨own, others⟩ := integral
    simp only [text, List.length_cons, List.length_append] at enough
    have read := members_text key e ms own others rest fuel (by omega)
    simp only [text, List.cons_append, List.append_assoc, List.nil_append]
    rw [value, skipSpace_cons rfl]
    simp only [stringText, List.cons_append, skipSpace_cons (rfl : isSpace '\x22' = false)] at read ⊢
    split
    · rename_i same
      exact absurd (List.cons.inj same).1 (by decide)
    · rw [read]
      rfl
termination_by fuel

theorem elements_text (e : Json) (es : List Json) (integral : e.Integral)
    (others : IntegralElements es) (rest : List Char) (fuel : Nat)
    (enough : 2 * (e.text.length + (moreElements es).length) < fuel) :
    elements fuel (e.text ++ (moreElements es ++ ']' :: rest)) = some (e :: es, rest) := by
  obtain ⟨fuel, rfl⟩ : ∃ n, fuel = n + 1 := ⟨fuel - 1, by omega⟩
  match es, others with
  | [], _ =>
    have read := value_text e integral (']' :: rest) (stops_of_cons (.inr (.inl rfl))) fuel (by omega)
    simp only [elements, moreElements, List.nil_append, read, Option.bind_eq_bind, Option.bind_some,
      skipSpace_cons (rfl : isSpace ']' = false)]
  | e' :: es, others =>
    simp only [moreElements, List.length_cons, List.length_append] at enough
    have first := value_text e integral (',' :: (e'.text ++ (moreElements es ++ ']' :: rest)))
      (stops_of_cons (.inl rfl)) fuel (by omega)
    have next := elements_text e' es others.1 others.2 rest fuel (by omega)
    simp only [elements, moreElements, List.cons_append, List.append_assoc, first,
      Option.bind_eq_bind, Option.bind_some, skipSpace_cons (rfl : isSpace ',' = false), next,
      Option.map_some]
termination_by fuel

theorem members_text (key : List Char) (e : Json) (ms : List (List Char × Json))
    (integral : e.Integral) (others : IntegralMembers ms) (rest : List Char) (fuel : Nat)
    (enough : 2 * (e.text.length + (moreMembers ms).length) < fuel) :
    members fuel (stringText key ++ ':' :: (e.text ++ (moreMembers ms ++ '\x7d' :: rest))) =
      some ((key, e) :: ms, rest) := by
  obtain ⟨fuel, rfl⟩ : ∃ n, fuel = n + 1 := ⟨fuel - 1, by omega⟩
  match ms, others with
  | [], _ =>
    have read := value_text e integral ('\x7d' :: rest) (stops_of_cons (.inr (.inr rfl))) fuel
      (by omega)
    simp only [members, moreMembers, stringText, List.cons_append, List.append_assoc,
      List.nil_append, skipSpace_cons (rfl : isSpace '\x22' = false), stringBody_escaped,
      Option.bind_eq_bind, Option.bind_some, skipSpace_cons (rfl : isSpace ':' = false), read,
      skipSpace_cons (rfl : isSpace '\x7d' = false)]
  | (key', e') :: ms, others =>
    simp only [moreMembers, List.length_cons, List.length_append] at enough
    have first := value_text e integral
      (',' :: (stringText key' ++ ':' :: (e'.text ++ (moreMembers ms ++ '\x7d' :: rest))))
      (stops_of_cons (.inl rfl)) fuel (by omega)
    have next := members_text key' e' ms others.1 others.2 rest fuel (by omega)
    simp only [members, moreMembers, stringText, List.cons_append, List.append_assoc,
      List.nil_append, skipSpace_cons (rfl : isSpace '\x22' = false), stringBody_escaped,
      Option.bind_eq_bind, Option.bind_some, skipSpace_cons (rfl : isSpace ':' = false)]
      at first next ⊢
    simp only [first, Option.bind_some, skipSpace_cons (rfl : isSpace ',' = false), next,
      Option.map_some]
termination_by fuel

end

/-- What is written for a value is read as this value. -/
theorem parse_text (e : Json) (integral : e.Integral) : parse e.text = some e := by
  have ends : Stops [] := fun _ member => by cases member
  have read := value_text e integral [] ends (2 * e.text.length + 1) (by omega)
  rw [List.append_nil] at read
  have blank : skipSpace [] = [] := rfl
  rw [parse, read, Option.bind_eq_bind, Option.bind_some]
  exact if_pos blank

/-! ## Texts in a page -/

/-- The character means nothing in an attribute between apostrophes. -/
def Inert (c : Char) : Prop := c ≠ '\x27' ∧ c ≠ '<' ∧ c ≠ '>' ∧ c ≠ '&'

instance (c : Char) : Decidable (Inert c) := inferInstanceAs (Decidable (_ ∧ _))

mutual

/-- No apostrophe is in any of the strings. -/
def Unquoted : Json → Prop
  | .string s => '\x27' ∉ s
  | .array es => UnquotedElements es
  | .object ms => UnquotedMembers ms
  | .null | .bool _ | .number _ => True

def UnquotedElements : List Json → Prop
  | [] => True
  | e :: es => e.Unquoted ∧ UnquotedElements es

def UnquotedMembers : List (List Char × Json) → Prop
  | [] => True
  | (key, e) :: ms => '\x27' ∉ key ∧ e.Unquoted ∧ UnquotedMembers ms

end

theorem unquotedElements_iff {es : List Json} : UnquotedElements es ↔ ∀ e ∈ es, e.Unquoted := by
  induction es with
  | nil => simp [UnquotedElements]
  | cons e es inductionHypothesis => simp [UnquotedElements, inductionHypothesis]

theorem inert_digitChar : ∀ n < 16, Inert (Nat.digitChar n) := by decide

theorem inert_of_isDigit {c : Char} (digit : c.isDigit = true) : Inert c :=
  ⟨isDigit_ne digit rfl, isDigit_ne digit rfl, isDigit_ne digit rfl, isDigit_ne digit rfl⟩

theorem inert_escape {c d : Char} (unquoted : c ≠ '\x27') (member : d ∈ escape c) : Inert d := by
  unfold escape at member
  split_ifs at member with special _ _ _ _ _ control
  · rcases List.mem_pair.mp member with rfl | rfl
    · decide
    · rcases special with rfl | rfl <;> decide
  · rcases List.mem_pair.mp member with rfl | rfl <;> decide
  · rcases List.mem_pair.mp member with rfl | rfl <;> decide
  · rcases List.mem_pair.mp member with rfl | rfl <;> decide
  · rcases List.mem_pair.mp member with rfl | rfl <;> decide
  · rcases List.mem_pair.mp member with rfl | rfl <;> decide
  · have digit (n : Nat) : Inert (Nat.digitChar (n % 16)) :=
      inert_digitChar _ (Nat.mod_lt _ (by decide))
    simp only [unicodeEscape, List.mem_cons, List.not_mem_nil, or_false] at member
    rcases member with rfl | rfl | rfl | rfl | rfl | rfl
    · decide
    · decide
    all_goals exact digit _
  · rw [List.mem_singleton.mp member]
    simp only [not_or] at control
    exact ⟨unquoted, control.2.1, control.2.2.1, control.2.2.2.1⟩

theorem inert_stringText {s : List Char} (unquoted : '\x27' ∉ s) :
    ∀ c ∈ stringText s, Inert c := by
  intro c member
  simp only [stringText, List.mem_cons, List.mem_append, List.mem_flatMap, List.not_mem_nil,
    or_false] at member
  rcases member with rfl | ⟨d, inside, escaped⟩ | rfl
  · decide
  · exact inert_escape (fun same => unquoted (same ▸ inside)) escaped
  · decide

theorem inert_intLiteral (n : Int) : ∀ c ∈ intLiteral n, Inert c := by
  have digits (n : Nat) : ∀ c ∈ Nat.toDigits 10 n, Inert c := fun c member =>
    inert_of_isDigit (Nat.isDigit_of_mem_toDigits (by decide) (by decide) member)
  cases n with
  | ofNat n => exact digits n
  | negSucc n =>
    intro c member
    rcases List.mem_cons.mp member with rfl | member
    · decide
    · exact digits (n + 1) c member

theorem inert_of_all {cs : List Char} (checked : cs.all (fun c => decide (Inert c)) = true) :
    ∀ c ∈ cs, Inert c := by
  simpa using checked

mutual

theorem inert_text (e : Json) (integral : e.Integral) (unquoted : e.Unquoted) :
    ∀ c ∈ e.text, Inert c := by
  match e, integral, unquoted with
  | .null, _, _ | .bool true, _, _ | .bool false, _, _ => exact inert_of_all (by decide)
  | .number literal, integral, _ =>
    obtain ⟨n, rfl⟩ := integral
    exact inert_intLiteral n
  | .string s, _, unquoted => exact inert_stringText unquoted
  | .array [], _, _ => exact inert_of_all (by decide)
  | .array (e :: es), integral, unquoted =>
    simp only [text, List.forall_mem_cons, List.forall_mem_append]
    exact ⟨by decide, inert_text e integral.1 unquoted.1,
      inert_moreElements es integral.2 unquoted.2, by decide, fun _ member => by cases member⟩
  | .object [], _, _ => exact inert_of_all (by decide)
  | .object ((key, e) :: ms), integral, unquoted =>
    simp only [text, List.forall_mem_cons, List.forall_mem_append]
    exact ⟨by decide, inert_stringText unquoted.1, by decide,
      inert_text e integral.1 unquoted.2.1, inert_moreMembers ms integral.2 unquoted.2.2,
      by decide, fun _ member => by cases member⟩

theorem inert_moreElements (es : List Json) (integral : IntegralElements es)
    (unquoted : UnquotedElements es) : ∀ c ∈ moreElements es, Inert c := by
  match es, integral, unquoted with
  | [], _, _ => simp [moreElements]
  | e :: es, integral, unquoted =>
    simp only [moreElements, List.forall_mem_cons, List.forall_mem_append]
    exact ⟨by decide, inert_text e integral.1 unquoted.1,
      inert_moreElements es integral.2 unquoted.2⟩

theorem inert_moreMembers (ms : List (List Char × Json)) (integral : IntegralMembers ms)
    (unquoted : UnquotedMembers ms) : ∀ c ∈ moreMembers ms, Inert c := by
  match ms, integral, unquoted with
  | [], _, _ => simp [moreMembers]
  | (key, e) :: ms, integral, unquoted =>
    simp only [moreMembers, List.forall_mem_cons, List.forall_mem_append]
    exact ⟨by decide, inert_stringText unquoted.1, by decide,
      inert_text e integral.1 unquoted.2.1, inert_moreMembers ms integral.2 unquoted.2.2⟩

end

end Json
