import Coursework.Text.Blank

/-!
# Timestamps

An instant is kept as its calendar fields in UTC, a leap second being second 60.  It is read from any RFC 3339
text, with some latitude about blanks and missing zeros, and written with the fewest of 0, 3, 6 or 9 decimals
that lose nothing.
-/

namespace Coursework

namespace Calendar

def isLeap (y : Int) : Bool := y % 4 = 0 ∧ (y % 100 ≠ 0 ∨ y % 400 = 0)

def daysInMonth (y : Int) (m : Nat) : Nat :=
  if m = 2 then if isLeap y then 29 else 28
  else if m = 4 ∨ m = 6 ∨ m = 9 ∨ m = 11 then 30
  else 31

/-- Years that a timestamp can have. -/
def yearOk (y : Int) : Bool := -262143 ≤ y ∧ y ≤ 262142

end Calendar

structure Timestamp where
  year : Int
  month : Nat
  day : Nat
  hour : Nat
  minute : Nat
  second : Nat
  nano : Nat
  valid : (Calendar.yearOk year && (1 ≤ month && month ≤ 12) && (1 ≤ day && day ≤ Calendar.daysInMonth year month) &&
    hour < 24 && minute < 60 && second ≤ 60 && nano < 1000000000) = true
  deriving DecidableEq

namespace Timestamp

def ofFields? (year : Int) (month day hour minute second nano : Nat) : Option Timestamp :=
  if h : (Calendar.yearOk year && (1 ≤ month && month ≤ 12) && (1 ≤ day && day ≤ Calendar.daysInMonth year month) &&
      hour < 24 && minute < 60 && second ≤ 60 && nano < 1000000000) = true
  then some ⟨year, month, day, hour, minute, second, nano, h⟩
  else none

def epoch : Timestamp := ⟨1970, 1, 1, 0, 0, 0, 0, by decide⟩

instance : Inhabited Timestamp := ⟨epoch⟩

/-- The civil date of a day counted from the epoch. -/
def civil (days : Int) : Int × Nat × Nat :=
  let z := days + 719468
  let era := z / 146097
  let doe := z % 146097
  let yoe := (doe - doe / 1460 + doe / 36524 - doe / 146096) / 365
  let doy := doe - (365 * yoe + yoe / 4 - yoe / 100)
  let mp := (5 * doy + 2) / 153
  let d := doy - (153 * mp + 2) / 5 + 1
  let m := if mp < 10 then mp + 3 else mp - 9
  (yoe + era * 400 + (if m ≤ 2 then 1 else 0), m.toNat, d.toNat)

/-- The instant so many seconds after the epoch. -/
def ofUnix (seconds : Int) : Timestamp :=
  let (y, m, d) := civil (seconds / 86400)
  let s := (seconds % 86400).toNat
  (ofFields? y m d (s / 3600) (s / 60 % 60) (s % 60) 0).getD epoch

/-- The instant with another fraction of its second. -/
def withNano (t : Timestamp) (nano : Fin 1000000000) : Timestamp :=
  { t with
    nano := nano
    valid := by
      have hvalid := t.valid
      simp only [Bool.and_eq_true, decide_eq_true_eq] at hvalid ⊢
      exact ⟨hvalid.1, nano.isLt⟩ }

theorem nano_lt (t : Timestamp) : t.nano < 1000000000 := by
  have hvalid := t.valid
  simp only [Bool.and_eq_true, decide_eq_true_eq] at hvalid
  exact hvalid.2

/-- The instant without what is less than a millisecond. -/
def wholeMillis (t : Timestamp) : Timestamp :=
  t.withNano ⟨t.nano / 1000000 * 1000000, Nat.lt_of_le_of_lt (Nat.div_mul_le_self ..) t.nano_lt⟩

/-- The fields from the most to the least significant. -/
def fields (t : Timestamp) : List Int :=
  [t.year, t.month, t.day, t.hour, t.minute, t.second, t.nano]

def before : List Int → List Int → Bool
  | a :: as, b :: bs => a < b || (a = b && before as bs)
  | _, _ => false

/-- Whether the first instant is earlier than the second. -/
def lt (a b : Timestamp) : Bool := before a.fields b.fields

/-- At least `width` digits. -/
def padded (width n : Nat) : List Char :=
  let ds := Nat.toDigits 10 n
  List.replicate (width - ds.length) '0' ++ ds

def yearChars (y : Int) : List Char :=
  if 0 ≤ y ∧ y ≤ 9999 then padded 4 y.toNat
  else (if y < 0 then '-' else '+') :: padded 4 y.natAbs

def fractionChars (n : Nat) : List Char :=
  if n = 0 then []
  else if n % 1000000 = 0 then '.' :: padded 3 (n / 1000000)
  else if n % 1000 = 0 then '.' :: padded 6 (n / 1000)
  else '.' :: padded 9 n

def chars (t : Timestamp) : List Char :=
  yearChars t.year ++ '-' :: padded 2 t.month ++ '-' :: padded 2 t.day ++ 'T' :: padded 2 t.hour ++
    ':' :: padded 2 t.minute ++ ':' :: padded 2 t.second ++ fractionChars t.nano ++ ['Z']

def text (t : Timestamp) : String := String.ofList t.chars

inductive Error
  | tooShort
  | invalid
  | outOfRange
  | tooLong
  | impossible
  deriving DecidableEq, Repr

def Error.message : Error → String
  | .tooShort => "premature end of input"
  | .invalid => "input contains invalid characters"
  | .outOfRange => "input is out of range"
  | .tooLong => "trailing input"
  | .impossible => "no possible date and time matching input"

abbrev Reader (α : Type) := List Char → Except Error (α × List Char)

def isDigit (c : Char) : Bool := '0' ≤ c && c ≤ '9'

def digitsValue (ds : List Char) : Nat := ds.foldl (fun n c => n * 10 + (c.toNat - 48)) 0

/-- The digits at the front of a text. -/
def digitRun (cs : List Char) : List Char := cs.takeWhile isDigit

/-- A number of at most `width` digits, or of any length. -/
def number (width : Option Nat) : Reader Nat := fun cs =>
  let ds := digitRun (match width with | some w => cs.take w | none => cs)
  if ds = [] then .error (if cs = [] then .tooShort else .invalid)
  else if 0x8000000000000000 ≤ digitsValue ds then .error .outOfRange
  else .ok (digitsValue ds, cs.drop ds.length)

def literal (c : Char) : Reader Unit := fun cs =>
  match Text.trimStart cs with
  | [] => .error .tooShort
  | x :: rest => if x = c then .ok ((), rest) else .error .invalid

/-- A field of at most two digits that must lie between two bounds. -/
def field (lo hi : Nat) : Reader Nat := fun cs => do
  let (n, rest) ← number (some 2) (Text.trimStart cs)
  if lo ≤ n ∧ n ≤ hi then .ok (n, rest) else .error .outOfRange

def yearField : Reader Int := fun cs => do
  let (y, rest) ← (match Text.trimStart cs with
    | '-' :: rest => do let (n, rest) ← number none rest; .ok (-(n : Int), rest)
    | '+' :: rest => do let (n, rest) ← number none rest; .ok ((n : Int), rest)
    | cs => do let (n, rest) ← number (some 4) cs; .ok ((n : Int), rest) : Except Error (Int × List Char))
  if Int32.minValue.toInt ≤ y ∧ y ≤ Int32.maxValue.toInt then .ok (y, rest) else .error .outOfRange

/-- Digits after a decimal point; those after the ninth are dropped. -/
def fraction : Reader Nat
  | '.' :: cs => do
    let (n, rest) ← number (some 9) cs
    .ok (n * Nat.pow 10 (9 - (cs.length - rest.length)), rest.dropWhile isDigit)
  | cs => .ok (0, cs)

def isSpacer (c : Char) : Bool := c = ':' || Text.isBlank c

def twoDigits : Reader Nat
  | a :: b :: rest => if isDigit a ∧ isDigit b then .ok (digitsValue [a, b], rest) else .error .invalid
  | _ => .error .tooShort

/-- Two characters' room is measured in bytes. -/
def offsetMinutes : Reader Nat
  | a :: b :: rest =>
    if isDigit a ∧ isDigit b then
      if digitsValue [a, b] < 60 then .ok (digitsValue [a, b], rest) else .error .outOfRange
    else .error .invalid
  | [a] => .error (if a.utf8Size < 2 then .tooShort else .invalid)
  | [] => .error .tooShort

/-- The offset from UTC in minutes. -/
def offset : Reader Int
  | [] => .error .tooShort
  | c :: cs =>
    if c = 'Z' ∨ c = 'z' then .ok (0, cs)
    else if c = '+' ∨ c = '-' ∨ c = '−' then do
      let (h, rest) ← twoDigits cs
      let (m, rest) ← offsetMinutes (rest.dropWhile isSpacer)
      let total : Int := h * 60 + m
      .ok (if c = '+' then total else -total, rest)
    else .error .invalid

/-- `UTC` stands for an offset of zero. -/
def zone : Reader Int := fun cs =>
  if (cs.take 3).map Char.toUpper = ['U', 'T', 'C'] then .ok (0, cs.drop 3) else offset cs

def separator : Reader Unit
  | [] => .error .tooShort
  | c :: cs => if c = 'T' ∨ c = 't' ∨ c = ' ' then .ok ((), cs) else .error .invalid

def nextDay (y : Int) (m d : Nat) : Int × Nat × Nat :=
  if d < Calendar.daysInMonth y m then (y, m, d + 1)
  else if m < 12 then (y, m + 1, 1)
  else (y + 1, 1, 1)

def previousDay (y : Int) (m d : Nat) : Int × Nat × Nat :=
  if 1 < d then (y, m, d - 1)
  else if 1 < m then (y, m - 1, Calendar.daysInMonth y (m - 1))
  else (y - 1, 12, 31)

/-- The same fields so many minutes earlier; the offset is less than a day. -/
def shiftBack (t : Timestamp) (minutes : Int) : Option Timestamp :=
  let total : Int := t.hour * 60 + t.minute - minutes
  let (y, m, d) :=
    if total < 0 then previousDay t.year t.month t.day
    else if 1440 ≤ total then nextDay t.year t.month t.day
    else (t.year, t.month, t.day)
  let inDay := (total % 1440).toNat
  ofFields? y m d (inDay / 60) (inDay % 60) t.second t.nano

def parseChars (cs : List Char) : Except Error Timestamp := do
  let (y, cs) ← yearField cs
  let (_, cs) ← literal '-' cs
  let (m, cs) ← field 1 12 cs
  let (_, cs) ← literal '-' cs
  let (d, cs) ← field 1 31 cs
  let (_, cs) ← separator cs
  let (h, cs) ← field 0 23 cs
  let (_, cs) ← literal ':' cs
  let (min, cs) ← field 0 59 cs
  let (_, cs) ← literal ':' cs
  let (s, cs) ← field 0 60 cs
  let (n, cs) ← fraction cs
  let (off, cs) ← zone (Text.trimStart cs)
  if Text.trimStart cs ≠ [] then throw .tooLong
  let some t := ofFields? y m d h min s n | throw .outOfRange
  if 1440 ≤ off.natAbs then throw .outOfRange
  let some t := t.shiftBack off | throw .impossible
  return t

def parse (s : String) : Except Error Timestamp := parseChars s.toList

end Timestamp

end Coursework
