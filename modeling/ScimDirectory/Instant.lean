import ScimDirectory.Number.Digits
import ScimDirectory.Text.AsciiCase
import ScimDirectory.Text.Blank

/-!
# Instants

A point in time, its RFC 3339 text in UTC, and the reading of such texts with any offset.
The calendar is the proleptic Gregorian one. Reading is more generous than the format: fields
need no leading zeros, blanks may stand between them and at either end, and a year outside four
digits is given with a sign.
-/

namespace ScimDirectory

/-- Seconds since the start of 1970 in UTC, and nanoseconds after that second. A leap second is
a second longer than others, so its nanoseconds run on past a thousand million. -/
structure Instant where
  /-- Whole seconds since the start of 1970. -/
  seconds : Int
  /-- Nanoseconds after the second. -/
  nanos : Nat
  deriving DecidableEq

namespace Instant

/-- A whole second. -/
def ofSeconds (seconds : Int) : Instant := ⟨seconds, 0⟩

/-- Whether an instant comes before another one. -/
def before (a b : Instant) : Bool :=
  a.seconds < b.seconds || (a.seconds == b.seconds && a.nanos < b.nanos)

/-- The number of days from the start of 1970 to a date. Years are counted from March, so that
the day that a leap year adds is its last. -/
def daysOfDate (year : Int) (month day : Nat) : Int :=
  let y := if month ≤ 2 then year - 1 else year
  let era := y.fdiv 400
  let yearOfEra := y - era * 400
  let shifted : Int := Int.ofNat ((month + 9) % 12)
  let dayOfYear := (153 * shifted + 2).fdiv 5 + Int.ofNat day - 1
  let dayOfEra := yearOfEra * 365 + yearOfEra.fdiv 4 - yearOfEra.fdiv 100 + dayOfYear
  era * 146097 + dayOfEra - 719468

/-- The year, month and day that come a number of days after the start of 1970. -/
def dateOfDays (days : Int) : Int × Nat × Nat :=
  let z := days + 719468
  let era := z.fdiv 146097
  let dayOfEra := z - era * 146097
  let yearOfEra :=
    (dayOfEra - dayOfEra.fdiv 1460 + dayOfEra.fdiv 36524 - dayOfEra.fdiv 146096).fdiv 365
  let dayOfYear := dayOfEra - (365 * yearOfEra + yearOfEra.fdiv 4 - yearOfEra.fdiv 100)
  let shifted := (5 * dayOfYear + 2).fdiv 153
  let day := (dayOfYear - (153 * shifted + 2).fdiv 5 + 1).toNat
  let month := (if shifted < 10 then shifted + 3 else shifted - 9).toNat
  let year := yearOfEra + era * 400 + (if month ≤ 2 then 1 else 0)
  (year, month, day)

/-- Whether a year has 366 days. -/
def isLeapYear (year : Int) : Bool :=
  year.fmod 4 == 0 && (year.fmod 100 != 0 || year.fmod 400 == 0)

/-- The number of days of a month. -/
def daysInMonth (year : Int) (month : Nat) : Nat :=
  if month = 2 then (if isLeapYear year then 29 else 28)
  else if month = 4 ∨ month = 6 ∨ month = 9 ∨ month = 11 then 30
  else 31

/-- A year in four digits, or with a sign when it needs more or is negative. -/
def yearText (year : Int) : List Char :=
  if 0 ≤ year ∧ year ≤ 9999 then Digits.padded 4 year.toNat
  else (if year < 0 then '-' else '+') :: Digits.padded 4 year.natAbs

/-- The fraction of a second in none, three, six or nine digits, as few as are exact. -/
def fractionText (nanos : Nat) : List Char :=
  if nanos = 0 then []
  else if nanos % 1000000 = 0 then '.' :: Digits.padded 3 (nanos / 1000000)
  else if nanos % 1000 = 0 then '.' :: Digits.padded 6 (nanos / 1000)
  else '.' :: Digits.padded 9 nanos

/-- The RFC 3339 text in UTC. -/
def toText (t : Instant) : String :=
  let (year, month, day) := dateOfDays (t.seconds.fdiv 86400)
  let time := (t.seconds.fmod 86400).toNat
  let second := time % 60 + t.nanos / 1000000000
  String.ofList <|
    yearText year ++ '-' :: Digits.padded 2 month ++ '-' :: Digits.padded 2 day ++ 'T' ::
      Digits.padded 2 (time / 3600) ++ ':' :: Digits.padded 2 (time / 60 % 60) ++ ':' ::
      Digits.padded 2 second ++ fractionText (t.nanos % 1000000000) ++ ['Z']

/-- A number of at least one and at most `width` digits, after any blanks. -/
def number? (width : Nat) (text : List Char) : Option (Nat × List Char) :=
  let text := Text.skipBlanks text
  let digits := (text.take width).takeWhile Char.isDigit
  if digits.isEmpty then none else some (Digits.value digits, text.drop digits.length)

/-- A year of up to four digits, or of any number of digits after a sign. -/
def year? (text : List Char) : Option (Int × List Char) :=
  match Text.skipBlanks text with
  | '-' :: rest =>
    if (rest.head?.any Char.isDigit) then
      (number? rest.length rest).map fun (n, rest) => (-Int.ofNat n, rest)
    else none
  | '+' :: rest =>
    if (rest.head?.any Char.isDigit) then
      (number? rest.length rest).map fun (n, rest) => (Int.ofNat n, rest)
    else none
  | text => (number? 4 text).map fun (n, rest) => (Int.ofNat n, rest)

/-- One character, after any blanks. -/
def mark? (c : Char) (text : List Char) : Option (List Char) :=
  match Text.skipBlanks text with
  | d :: rest => if d = c then some rest else none
  | [] => none

/-- The fraction of a second in nanoseconds. Digits past the ninth are dropped. -/
def fraction? : List Char → Option (Nat × List Char)
  | '.' :: rest =>
    let digits := rest.takeWhile Char.isDigit
    if digits.isEmpty then none
    else
      let kept := digits.take 9
      some (Digits.value kept * Nat.pow 10 (9 - kept.length), rest.dropWhile Char.isDigit)
  | text => some (0, text)

/-- Two digits, the first below a bound. -/
def twoDigits? (bound : Nat) : List Char → Option (Nat × List Char)
  | a :: b :: rest =>
    if a.isDigit ∧ b.isDigit ∧ a.toNat - '0'.toNat < bound then some (Digits.value [a, b], rest)
    else none
  | _ => none

/-- Hours and minutes in seconds, each in two digits. Colons and blanks may stand between them. -/
def hoursAndMinutes? (text : List Char) : Option (Nat × List Char) := do
  let (hours, rest) ← twoDigits? 10 text
  let (minutes, rest) ← twoDigits? 6 (rest.dropWhile fun c => c == ':' || Text.isBlank c)
  return (hours * 3600 + minutes * 60, rest)

/-- The seconds by which local time is ahead of UTC, from `Z`, `UTC` or signed hours and minutes. -/
def offset? (text : List Char) : Option (Int × List Char) :=
  match text with
  | 'Z' :: rest | 'z' :: rest => some (0, rest)
  | '+' :: rest => (hoursAndMinutes? rest).map fun (n, rest) => (Int.ofNat n, rest)
  | '-' :: rest | '\u2212' :: rest =>
    (hoursAndMinutes? rest).map fun (n, rest) => (-Int.ofNat n, rest)
  | text => if Text.lowerAscii (text.take 3) = ['u', 't', 'c'] then some (0, text.drop 3) else none

/-- The first year of the calendar. -/
def firstYear : Int := -262143

/-- The last year of the calendar. -/
def lastYear : Int := 262142

/-- Whether an instant lies in the years of the calendar, in UTC. -/
def isDated (t : Instant) : Bool :=
  daysOfDate firstYear 1 1 * 86400 ≤ t.seconds &&
    t.seconds < daysOfDate (lastYear + 1) 1 1 * 86400

/-- Reads an RFC 3339 text whose date lies in the years of the calendar, both as written and in
UTC. -/
def ofText? (text : String) : Option Instant := do
  let (year, rest) ← year? text.toList
  let (month, rest) ← number? 2 (← mark? '-' rest)
  let (day, rest) ← number? 2 (← mark? '-' rest)
  let rest ← match rest with
    | c :: rest => if c = 'T' ∨ c = 't' ∨ c = ' ' then some rest else none
    | [] => none
  let (hour, rest) ← number? 2 rest
  let (minute, rest) ← number? 2 (← mark? ':' rest)
  let (second, rest) ← number? 2 (← mark? ':' rest)
  let (nanos, rest) ← fraction? rest
  let (offset, rest) ← offset? (Text.skipBlanks rest)
  if rest.all Text.isBlank ∧ 1 ≤ month ∧ month ≤ 12 ∧ 1 ≤ day ∧ day ≤ daysInMonth year month ∧
      hour ≤ 23 ∧ minute ≤ 59 ∧ second ≤ 60 ∧ offset.natAbs < 86400 ∧
      firstYear ≤ year ∧ year ≤ lastYear then
    let leap := second / 60
    let time := Int.ofNat (hour * 3600 + minute * 60 + (second - leap))
    let t : Instant :=
      ⟨daysOfDate year month day * 86400 + time - offset, nanos + leap * 1000000000⟩
    if t.isDated then some t else none
  else none

end Instant
end ScimDirectory
