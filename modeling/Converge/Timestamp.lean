import Converge.Text.Blank
import Converge.Text.Digits
/-!
# Points in time

A `Timestamp` is a point in time of the proleptic Gregorian calendar in UTC, with nanoseconds; a
leap second is the last second of its minute with a billion or more nanoseconds.
`Timestamp.read?` reads the date and time format of RFC 3339 in a tolerant form, and
`Timestamp.write` writes it with as many groups of three decimals as the nanoseconds need.
-/

namespace Converge

/-- A point in time. -/
structure Timestamp where
  /-- Days since 1970-01-01. -/
  day : Int
  /-- Seconds since midnight. -/
  second : Nat
  /-- Nanoseconds within the second, up to twice a billion in a leap second. -/
  nanos : Nat
  deriving DecidableEq

namespace Timestamp

/-! ## The calendar -/

/-- A year with a twenty-ninth of February. -/
def isLeapYear (year : Int) : Bool :=
  year % 4 == 0 && (year % 100 != 0 || year % 400 == 0)

/-- How many days a month has. -/
def daysInMonth (year : Int) (month : Nat) : Nat :=
  if month == 2 then (if isLeapYear year then 29 else 28)
  else if month == 4 || month == 6 || month == 9 || month == 11 then 30
  else 31

/-- Days from 1970-01-01 to a date.  Years are counted from March, in cycles of 400 years, so that
the leap day is the last of its year. -/
def dayOfDate (year : Int) (month day : Nat) : Int :=
  let y := if month ≤ 2 then year - 1 else year
  let cycle := y.fdiv 400
  let yearOfCycle := y - cycle * 400
  let monthFromMarch : Int := if month > 2 then (month : Int) - 3 else (month : Int) + 9
  let dayOfYear := (153 * monthFromMarch + 2) / 5 + day - 1
  let dayOfCycle := yearOfCycle * 365 + yearOfCycle / 4 - yearOfCycle / 100 + dayOfYear
  cycle * 146097 + dayOfCycle - 719468

/-- The year, month and day of a number of days since 1970-01-01. -/
def dateOfDay (days : Int) : Int × Nat × Nat :=
  let z := days + 719468
  let cycle := z.fdiv 146097
  let dayOfCycle := z - cycle * 146097
  let yearOfCycle :=
    (dayOfCycle - dayOfCycle / 1460 + dayOfCycle / 36524 - dayOfCycle / 146096) / 365
  let dayOfYear := dayOfCycle - (365 * yearOfCycle + yearOfCycle / 4 - yearOfCycle / 100)
  let monthFromMarch := (5 * dayOfYear + 2) / 153
  let day := dayOfYear - (153 * monthFromMarch + 2) / 5 + 1
  let month := if monthFromMarch < 10 then monthFromMarch + 3 else monthFromMarch - 9
  let year := yearOfCycle + cycle * 400 + (if month ≤ 2 then 1 else 0)
  (year, month.toNat, day.toNat)

/-- The first and the last year that have points in time. -/
def minYear : Int := -262143

@[inherit_doc minYear] def maxYear : Int := 262142

/-! ## Writing -/

/-- A year: four digits, and outside of four digits a sign in front of at least four. -/
def yearText (year : Int) : List Char :=
  if 0 ≤ year && year ≤ 9999 then Text.paddedDecimal 4 year.natAbs
  else (if year < 0 then '-' else '+') :: Text.paddedDecimal 4 year.natAbs

/-- A date as `year-month-day`. -/
def dateText (t : Timestamp) : List Char :=
  let (year, month, day) := dateOfDay t.day
  yearText year ++ '-' :: Text.paddedDecimal 2 month ++ '-' :: Text.paddedDecimal 2 day

/-- The hour and the minute as `hour:minute`. -/
def clockText (t : Timestamp) : List Char :=
  Text.paddedDecimal 2 (t.second / 3600) ++ ':' :: Text.paddedDecimal 2 (t.second / 60 % 60)

/-- The decimals of a second: none, three, six or nine, as few as the nanoseconds need. -/
def fractionText (nanos : Nat) : List Char :=
  if nanos == 0 then []
  else if nanos % 1000000 == 0 then '.' :: Text.paddedDecimal 3 (nanos / 1000000)
  else if nanos % 1000 == 0 then '.' :: Text.paddedDecimal 6 (nanos / 1000)
  else '.' :: Text.paddedDecimal 9 nanos

/-- The date and the time in UTC, up to the sign of the zone. -/
def writeLocal (t : Timestamp) : List Char :=
  let leap := t.nanos ≥ 1000000000
  let second := t.second % 60 + (if leap then 1 else 0)
  let nanos := if leap then t.nanos - 1000000000 else t.nanos
  t.dateText ++ 'T' :: t.clockText ++ ':' :: Text.paddedDecimal 2 second ++ fractionText nanos

/-- The RFC 3339 form with the zone written as `Z`. -/
def writeZulu (t : Timestamp) : String :=
  String.ofList (t.writeLocal ++ ['Z'])

/-- The RFC 3339 form with the zone written as an offset of zero. -/
def write (t : Timestamp) : String :=
  String.ofList (t.writeLocal ++ ['+', '0', '0', ':', '0', '0'])

/-- The date, the hour and the minute, for a reader. -/
def writeBrief (t : Timestamp) : String :=
  String.ofList (t.dateText ++ ' ' :: t.clockText)

/-! ## Reading -/

/-- One to `width` digits behind blanks, and what follows them. -/
def readNumber (width : Nat) (s : List Char) : Option (Nat × List Char) :=
  let s := Text.trimStart s
  let digits := (s.take width).takeWhile Text.isDigit
  (Text.natOfDigits? 10 digits).map fun n => (n, s.drop digits.length)

/-- A year behind blanks: up to four digits, or a sign and any number of digits. -/
def readYear (s : List Char) : Option (Int × List Char) :=
  match Text.trimStart s with
  | '-' :: rest => (readSigned rest).map fun (n, rest) => (-(n : Int), rest)
  | '+' :: rest => (readSigned rest).map fun (n, rest) => ((n : Int), rest)
  | rest => (readNumber 4 rest).map fun (n, rest) => ((n : Int), rest)
where
  /-- All the digits in front. -/
  readSigned (s : List Char) : Option (Nat × List Char) :=
    let digits := s.takeWhile Text.isDigit
    (Text.natOfDigits? 10 digits).map fun n => (n, s.drop digits.length)

/-- A separator behind blanks. -/
def readMark (mark : Char) (s : List Char) : Option (List Char) :=
  match Text.trimStart s with
  | c :: rest => if c = mark then some rest else none
  | [] => none

/-- The decimals of a second: a point and at least one digit, of which nine count. -/
def readNanos : List Char → Option (Nat × List Char)
  | '.' :: rest =>
    let digits := (rest.take 9).takeWhile Text.isDigit
    (Text.natOfDigits? 10 digits).map fun n =>
      (n * Nat.pow 10 (9 - digits.length), rest.dropWhile Text.isDigit)
  | rest => some (0, rest)

/-- Two digits. -/
def readPair : List Char → Option (Nat × List Char)
  | a :: b :: rest =>
    if Text.isDigit a && Text.isDigit b then
      (Text.natOfDigits? 10 [a, b]).map fun n => (n, rest)
    else none
  | _ => none

/-- A zone as seconds east of UTC: `Z`, `UTC`, or a sign with hours and minutes. -/
def readZone (s : List Char) : Option (Int × List Char) :=
  match s with
  | a :: b :: c :: rest =>
    if [a, b, c].map Char.toUpper = ['U', 'T', 'C'] then some (0, rest) else readOffset s
  | _ => readOffset s
where
  /-- `Z`, or a sign with hours and minutes. -/
  readOffset : List Char → Option (Int × List Char)
    | 'Z' :: rest | 'z' :: rest => some (0, rest)
    | '+' :: rest => readHours 1 rest
    | '-' :: rest | '\u2212' :: rest => readHours (-1) rest
    | _ => none
  /-- Two digits of hours and two of minutes, with colons or blanks between them. -/
  readHours (sign : Int) (s : List Char) : Option (Int × List Char) := do
    let (hours, s) ← readPair s
    let (minutes, s) ← readPair (s.dropWhile fun c => c = ':' || Text.isBlank c)
    if minutes < 60 then some (sign * (hours * 3600 + minutes * 60 : Nat), s) else none

/-- A point in time from its parts in a zone, if they exist. -/
def ofParts? (year : Int) (month day hour minute second nanos : Nat) (zone : Int) :
    Option Timestamp :=
  let leap := second == 60
  if month < 1 || month > 12 || day < 1 || day > daysInMonth year month || hour > 23 ||
      minute > 59 || second > 60 || zone.natAbs ≥ 86400 || year < minYear || year > maxYear then
    none
  else
    let local_ := hour * 3600 + minute * 60 + (if leap then 59 else second)
    let seconds := dayOfDate year month day * 86400 + local_ - zone
    let utcDay := seconds.fdiv 86400
    let utcYear := (dateOfDay utcDay).1
    if utcYear < minYear || utcYear > maxYear then none
    else
      some ⟨utcDay, (seconds - utcDay * 86400).toNat, nanos + (if leap then 1000000000 else 0)⟩

/-- Reads a date and time of RFC 3339.  Blanks may stand in front of a number and a separator and
at the end, numbers may be shorter than they are written, and `T` may be a blank. -/
def read? (text : String) : Option Timestamp := do
  let (year, s) ← readYear text.toList
  let s ← readMark '-' s
  let (month, s) ← readNumber 2 s
  let s ← readMark '-' s
  let (day, s) ← readNumber 2 s
  let s ← match s with
    | 'T' :: s | 't' :: s | ' ' :: s => some s
    | _ => none
  let (hour, s) ← readNumber 2 s
  let s ← readMark ':' s
  let (minute, s) ← readNumber 2 s
  let s ← readMark ':' s
  let (second, s) ← readNumber 2 s
  let (nanos, s) ← readNanos s
  let (zone, s) ← readZone (Text.trimStart s)
  if (Text.trimStart s).isEmpty then ofParts? year month day hour minute second nanos zone
  else none

end Timestamp

end Converge
