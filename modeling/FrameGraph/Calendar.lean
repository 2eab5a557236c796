/-!
# Dates and moments

A date is a day of the Gregorian calendar in the years 1 to 9999. A moment is a time of a day, exact
to the microsecond; it may state how many minutes its clock is ahead of universal time. Moments are
ordered by the instant they denote, as long as both or neither of them state the difference.
-/

namespace FrameGraph

def zeroPadded (width n : Nat) : String :=
  let digits := Nat.toDigits 10 n
  String.ofList (List.replicate (width - digits.length) '0' ++ digits)

structure Date where
  year : Nat
  month : Nat
  day : Nat
  deriving DecidableEq, Repr, Inhabited

namespace Date

def isLeapYear (year : Nat) : Bool := year % 4 == 0 && (year % 100 != 0 || year % 400 == 0)

def monthLengths (year : Nat) : List Nat :=
  [31, if isLeapYear year then 29 else 28, 31, 30, 31, 30, 31, 31, 30, 31, 30, 31]

/-- The days of a month, which is counted from one. -/
def daysInMonth (year month : Nat) : Nat := (0 :: monthLengths year).getD month 0

/-- The date with these parts, if there is such a day. -/
def of? (year month day : Nat) : Option Date :=
  if 1 ≤ year ∧ year ≤ 9999 ∧ 1 ≤ day ∧ day ≤ daysInMonth year month then
    some ⟨year, month, day⟩
  else none

/-- The number of a day, counted from the first day of the year 1. -/
def number (d : Date) : Nat :=
  let past := d.year - 1
  365 * past + past / 4 - past / 100 + past / 400 +
    ((monthLengths d.year).take (d.month - 1)).foldl (· + ·) 0 + d.day

/-- Year, month and day with dashes between them. -/
def text (d : Date) : String :=
  zeroPadded 4 d.year ++ "-" ++ zeroPadded 2 d.month ++ "-" ++ zeroPadded 2 d.day

/-- The date as an expression that makes it. -/
def literal (d : Date) : String :=
  "datetime.date(" ++ ", ".intercalate ([d.year, d.month, d.day].map toString) ++ ")"

end Date

structure Moment where
  date : Date
  hour : Nat
  minute : Nat
  second : Nat
  microsecond : Nat
  /-- The minutes by which the clock is ahead of universal time, if that is stated. -/
  ahead : Option Int := none
  deriving DecidableEq, Repr, Inhabited

namespace Moment

def minutesPerDay : Nat := 1440

/-- Whether the parts are those of a time of a day, and the difference is less than a day. -/
def isProper (m : Moment) : Bool :=
  m.hour < 24 && m.minute < 60 && m.second < 60 && m.microsecond < 1000000 &&
    m.ahead.all fun a => a.natAbs < minutesPerDay

def instant (m : Moment) : Int :=
  let minutes : Int :=
    (minutesPerDay * m.date.number + 60 * m.hour + m.minute : Nat) - m.ahead.getD 0
  1000000 * (60 * minutes + m.second) + m.microsecond

/-- The order of two moments, if both or neither of them state their difference. -/
def compare? (a b : Moment) : Option Ordering :=
  if a.ahead.isSome = b.ahead.isSome then some (compare a.instant b.instant) else none

/-- The difference to universal time, in hours and minutes. -/
def aheadText (ahead : Int) : String :=
  (if ahead < 0 then "-" else "+") ++ zeroPadded 2 (ahead.natAbs / 60) ++ ":" ++
    zeroPadded 2 (ahead.natAbs % 60)

/-- The date and the time of the day, with the difference where it is stated. Whole seconds have no
fraction. -/
def text (m : Moment) : String :=
  m.date.text ++ " " ++ zeroPadded 2 m.hour ++ ":" ++ zeroPadded 2 m.minute ++ ":" ++
    zeroPadded 2 m.second ++
    (if m.microsecond = 0 then "" else "." ++ zeroPadded 6 m.microsecond) ++
    (m.ahead.map aheadText).getD ""

/-- The difference to universal time as an expression that makes it. -/
def aheadLiteral (ahead : Int) : String :=
  if ahead = 0 then "datetime.timezone.utc"
  else if 0 < ahead then
    "datetime.timezone(datetime.timedelta(seconds=" ++ toString (60 * ahead) ++ "))"
  else
    "datetime.timezone(datetime.timedelta(days=-1, seconds=" ++
      toString (60 * (minutesPerDay + ahead)) ++ "))"

/-- The moment as an expression that makes it. Seconds and microseconds are left out where they and
all that follows are zero. -/
def literal (m : Moment) : String :=
  let fine := if m.microsecond ≠ 0 then [m.second, m.microsecond]
    else if m.second ≠ 0 then [m.second]
    else []
  let parts := [m.date.year, m.date.month, m.date.day, m.hour, m.minute] ++ fine
  "datetime.datetime(" ++ ", ".intercalate (parts.map toString) ++
    (m.ahead.map fun a => ", tzinfo=" ++ aheadLiteral a).getD "" ++ ")"

end Moment

end FrameGraph
