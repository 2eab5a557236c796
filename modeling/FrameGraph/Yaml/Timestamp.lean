import FrameGraph.Calendar
import FrameGraph.Decimal.Binary64
import FrameGraph.Value

/-!
# Timestamps

A date is written with dashes between year, month and day. A time of the day may follow it after a
letter `T` or blanks, with a fraction of a second and a difference to universal time. A date alone
needs two digits for month and day to be taken for one without a tag.

* `Timestamp.read?`: the parts of a written date or moment.
* `Timestamp.value`: the date or moment, if there is one with these parts.
-/

namespace FrameGraph.Yaml

structure ClockTime where
  hour : Nat
  minute : Nat
  second : Nat
  fraction : List Char
  /-- The minutes by which the clock is ahead of universal time. -/
  ahead : Option Int

/-- A date as it is written, and perhaps a time. -/
structure Timestamp where
  year : Nat
  month : Nat
  day : Nat
  /-- Whether month and day have two digits each. -/
  padded : Bool
  time : Option ClockTime

namespace Timestamp

/-- Between `least` and `most` digits at the head of a text: their number, whether there are as many
as possible, and the rest. -/
def digits? (least most : Nat) (s : List Char) : Option (Nat × Bool × List Char) :=
  let digits := (s.takeWhile Char.isDigit).take most
  if digits.length < least then none
  else some ((Binary64.takeDigits digits).1, digits.length == most, s.drop digits.length)

def after? (c : Char) : List Char → Option (List Char)
  | d :: rest => if d = c then some rest else none
  | [] => none

def isBlankOrTab (c : Char) : Bool := c = ' ' || c = '\t'

/-- A difference to universal time up to the end: nothing, `Z`, or hours and perhaps minutes after a
sign. -/
def readZone? (s : List Char) : Option (Option Int) :=
  match s.dropWhile isBlankOrTab with
  | [] => if s = [] then some none else none
  | ['Z'] => some (some 0)
  | c :: rest => do
    if c ≠ '-' ∧ c ≠ '+' then none
    let (hours, _, rest) ← digits? 1 2 rest
    let minutes ← match rest with
      | [] => some 0
      | ':' :: rest => do
        let (minutes, _, rest) ← digits? 2 2 rest
        if rest = [] then some minutes else none
      | _ => none
    let ahead : Int := (60 * hours + minutes : Nat)
    return some (if c = '-' then -ahead else ahead)

/-- A time of the day up to the end. -/
def readTime? (s : List Char) : Option ClockTime := do
  let (hour, _, s) ← digits? 1 2 s
  let (minute, _, s) ← digits? 2 2 (← after? ':' s)
  let (second, _, s) ← digits? 2 2 (← after? ':' s)
  let (fraction, s) := match s with
    | '.' :: rest => (rest.takeWhile Char.isDigit, rest.dropWhile Char.isDigit)
    | s => ([], s)
  return { hour, minute, second, fraction, ahead := ← readZone? s }

/-- The time after the mark that separates it from the date; without a mark there is none. -/
def readRest? : List Char → Option (Option ClockTime)
  | [] => some none
  | c :: rest =>
    if c = 'T' ∨ c = 't' then (readTime? rest).map some
    else if isBlankOrTab c then (readTime? (rest.dropWhile isBlankOrTab)).map some
    else none

/-- The parts of a written date or moment. -/
def read? (s : List Char) : Option Timestamp := do
  let (year, _, s) ← digits? 4 4 s
  let (month, monthPadded, s) ← digits? 1 2 (← after? '-' s)
  let (day, dayPadded, s) ← digits? 1 2 (← after? '-' s)
  return { year, month, day, padded := monthPadded && dayPadded, time := ← readRest? s }

/-- Whether what is written needs no tag. -/
def isPlain (t : Timestamp) : Bool := t.padded || t.time.isSome

/-- The first six digits after a point, as millionths. -/
def microseconds (fraction : List Char) : Nat :=
  (Binary64.takeDigits ((fraction ++ List.replicate 6 '0').take 6)).1

def value (t : Timestamp) : Except Fault Value :=
  match Date.of? t.year t.month t.day with
  | none => .error (.badData "no such day")
  | some date =>
    match t.time with
    | none => .ok (.date date)
    | some c =>
      let m : Moment :=
        { date, hour := c.hour, minute := c.minute, second := c.second,
          microsecond := microseconds c.fraction, ahead := c.ahead }
      if m.isProper then .ok (.moment m) else .error (.badData "no such time")

end Timestamp

end FrameGraph.Yaml
