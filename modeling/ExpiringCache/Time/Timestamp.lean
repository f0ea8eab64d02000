import ExpiringCache.Text.Blank
import ExpiringCache.Time.Date
import ExpiringCache.Time.Deadline

/-!
# Timestamps

The text of a deadline in the internet date-time format (RFC 3339), in UTC (`print`), and the
texts that are read as deadlines (`parse`). The reader is generous with blanks, digits and
offsets; it looks at a text from left to right and reports the first thing wrong in it, the
validity of the date as a whole coming last.
-/

namespace ExpiringCache.Timestamp

/-! ## Writing -/

/-- A year: four digits, or a sign and at least four digits outside 0 to 9999. -/
def printYear (year : Int) : List Char :=
  let size := year.natAbs
  let digits := Decimal.fixed (if size < 10000 then 4 else if size < 100000 then 5 else 6) size
  if 0 ≤ year ∧ year ≤ 9999 then digits else (if year < 0 then '-' else '+') :: digits

/-- A fraction of a second in nanoseconds: none, or the fewest of 3, 6 and 9 digits. -/
def printFraction (nanos : Nat) : List Char :=
  if nanos = 0 then []
  else if nanos % 1000000 = 0 then '.' :: Decimal.fixed 3 (nanos / 1000000)
  else if nanos % 1000 = 0 then '.' :: Decimal.fixed 6 (nanos / 1000)
  else '.' :: Decimal.fixed 9 nanos

/-- The text of a deadline. A leap second is second 60. -/
def print (d : Deadline) : List Char :=
  let date := Date.ofDays (d.second / 86400)
  let clock := (d.second % 86400).toNat
  let second := if d.isLeap then 60 else clock % 60
  let fraction := if d.isLeap then d.fraction - 1000000000 else d.fraction
  printYear date.year ++ '-' :: Decimal.fixed 2 date.month ++ '-' :: Decimal.fixed 2 date.day ++
    'T' :: Decimal.fixed 2 (clock / 3600) ++ ':' :: Decimal.fixed 2 (clock / 60 % 60) ++
    ':' :: Decimal.fixed 2 second ++ printFraction fraction ++ ['Z']

/-! ## Reading -/

/-- Why a text is not read as a deadline. -/
inductive Fault where
  /-- The text ends too early. -/
  | tooShort
  /-- A character stands where it may not. -/
  | invalid
  /-- A number is too large or too small for its place, or there is no such date. -/
  | outOfRange
  /-- Something follows the timestamp. -/
  | trailing
  /-- The date exists at its offset but not in UTC. -/
  | impossible
  deriving DecidableEq, Repr

/-- The wording of a fault. -/
def Fault.message : Fault → String
  | .tooShort => "premature end of input"
  | .invalid => "input contains invalid characters"
  | .outOfRange => "input is out of range"
  | .trailing => "trailing input"
  | .impossible => "no possible date and time matching input"

/-- A reading step: it takes characters from the front of a text. -/
abbrev Step (α : Type) := List Char → Except Fault (α × List Char)

/-- Takes a number of at least one digit and at most `most`, below 2^63. -/
def number (most : Nat) : Step Nat := fun text =>
  let digits := (text.take most).takeWhile Char.isDigit
  if digits = [] then .error (if text = [] then .tooShort else .invalid)
  else if 0x8000000000000000 ≤ Decimal.value digits then .error .outOfRange
  else .ok (Decimal.value digits, text.drop digits.length)

/-- Takes a number of one or two digits, from `least` to `most`, after any blanks. -/
def field (least most : Nat) : Step Nat := fun text => do
  let (n, rest) ← number 2 (trimBlank text)
  if least ≤ n ∧ n ≤ most then return (n, rest) else throw .outOfRange

/-- Takes the character `c`, after any blanks. -/
def mark (c : Char) : Step Unit := fun text =>
  match trimBlank text with
  | [] => .error .tooShort
  | c' :: rest => if c' = c then .ok ((), rest) else .error .invalid

/-- Takes a year, after any blanks: up to four digits, or a sign and any number of digits. -/
def year : Step Int := fun text => do
  let text := trimBlank text
  let (n, rest) ← match text with
    | '-' :: text => do
      let (n, rest) ← number text.length text
      pure (-(n : Int), rest)
    | '+' :: text => do
      let (n, rest) ← number text.length text
      pure ((n : Int), rest)
    | text => do
      let (n, rest) ← number 4 text
      pure ((n : Int), rest)
  if -0x80000000 ≤ n ∧ n < 0x80000000 then return (n, rest) else throw .outOfRange

/-- Takes the letter T or a space. -/
def separator : Step Unit
  | [] => .error .tooShort
  | c :: rest => if c = 'T' ∨ c = 't' ∨ c = ' ' then .ok ((), rest) else .error .invalid

/-- Takes a fraction of a second, if there is one, in nanoseconds. Digits after the ninth do not
count. -/
def fraction : Step Nat
  | '.' :: text => do
    let digits := (text.take 9).takeWhile Char.isDigit
    let (n, rest) ← number 9 text
    return (n * Nat.pow 10 (9 - digits.length), rest.dropWhile Char.isDigit)
  | text => .ok (0, text)

/-- Takes two digits. A lone character counts as two if its UTF-8 form has more than one byte. -/
def twoDigits : Step Nat
  | [] => .error .tooShort
  | [c] => .error (if c.toNat < 0x80 then .tooShort else .invalid)
  | c :: c' :: rest =>
    if c.isDigit ∧ c'.isDigit then .ok (Decimal.value [c, c'], rest) else .error .invalid

/-- Takes the sign of an offset: a plus sign, a hyphen or a minus sign. -/
def sign : Step Int
  | [] => .error .tooShort
  | c :: rest =>
    if c = '+' then .ok (1, rest)
    else if c = '-' ∨ c = '−' then .ok (-1, rest)
    else .error .invalid

/-- Takes an offset from UTC, after any blanks, in minutes: UTC or Z in any case, or a sign, two
digits of hours and two digits of minutes, with colons and blanks between them. -/
def offset : Step Int := fun text => do
  match trimBlank text with
  | u :: t :: c :: rest =>
    if u.toUpper = 'U' ∧ t.toUpper = 'T' ∧ c.toUpper = 'C' then return (0, rest)
  | _ => pure ()
  match trimBlank text with
  | 'Z' :: rest => return (0, rest)
  | 'z' :: rest => return (0, rest)
  | text =>
    let (sign, rest) ← sign text
    let (hours, rest) ← twoDigits rest
    let (minutes, rest) ← twoDigits (rest.dropWhile fun c => c = ':' ∨ isBlank c)
    if 60 ≤ minutes then throw .outOfRange
    return (sign * (60 * hours + minutes), rest)

/-- The deadline at a date and a time of day, both at an offset in minutes. Second 60 lies in the
leap second that follows second 59. -/
def deadline (date : Date) (hour minute second fraction : Nat) (offset : Int) :
    Except Fault Deadline :=
  if ¬ (date.isValid ∧ -262143 ≤ date.year ∧ date.year ≤ 262142) then .error .outOfRange
  else if 24 * 60 ≤ offset.natAbs then .error .outOfRange
  else
    let leap := second = 60
    let whole := date.toDays * 86400 + hour * 3600 + minute * 60 +
      (if leap then 59 else second : Nat) - offset * 60
    let fraction := if leap then fraction + 1000000000 else fraction
    if h : fraction < 2000000000 ∧ (1000000000 ≤ fraction → whole % 60 = 59) ∧
        -8334601228800 ≤ whole ∧ whole ≤ 8210266876799 then
      .ok ⟨whole, fraction, h.1, h.2.1, h.2.2.1, h.2.2.2⟩
    else .error .impossible

/-- Reads a text as a deadline. -/
def parse (text : List Char) : Except Fault Deadline := do
  let (year, text) ← year text
  let (_, text) ← mark '-' text
  let (month, text) ← field 1 12 text
  let (_, text) ← mark '-' text
  let (day, text) ← field 1 31 text
  let (_, text) ← separator text
  let (hour, text) ← field 0 23 text
  let (_, text) ← mark ':' text
  let (minute, text) ← field 0 59 text
  let (_, text) ← mark ':' text
  let (second, text) ← field 0 60 text
  let (fraction, text) ← fraction text
  let (offset, text) ← offset text
  if trimBlank text ≠ [] then throw .trailing
  deadline ⟨year, month, day⟩ hour minute second fraction offset

end ExpiringCache.Timestamp
