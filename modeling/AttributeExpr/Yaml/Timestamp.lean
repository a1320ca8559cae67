import AttributeExpr.Decimal.Basic
/-!
Dates and points in time: how they are written, which of them exist in the calendar, how a message
shows them and when two of them are the same.
-/
namespace AttributeExpr

structure Date where
  year : Nat
  month : Nat
  day : Nat
deriving DecidableEq, Repr

/-- A time of day. The offset from universal time is in minutes, if it is known. -/
structure Clock where
  hour : Nat
  minute : Nat
  second : Nat
  microsecond : Nat
  offset : Option Int
deriving DecidableEq, Repr

structure Timestamp where
  date : Date
  clock : Option Clock
deriving DecidableEq, Repr

namespace Date

def isLeapYear (year : Nat) : Bool := year % 4 = 0 && (year % 100 ≠ 0 || year % 400 = 0)

def monthLengths (year : Nat) : List Nat :=
  [31, if isLeapYear year then 29 else 28, 31, 30, 31, 30, 31, 31, 30, 31, 30, 31]

/-- Whether a date lies in the calendar, which has years of one to four digits. -/
def isValid (date : Date) : Bool :=
  1 ≤ date.year && date.year ≤ 9999 && 1 ≤ date.month && 1 ≤ date.day &&
    (monthLengths date.year)[date.month - 1]?.any (date.day ≤ ·)

/-- The number of a day, counted without gaps. -/
def dayNumber (date : Date) : Nat :=
  let before := date.year - 1
  365 * before + before / 4 - before / 100 + before / 400 +
    ((monthLengths date.year).take (date.month - 1)).foldl (· + ·) 0 + date.day

end Date

namespace Clock

def isValid (clock : Clock) : Bool :=
  clock.hour < 24 && clock.minute < 60 && clock.second < 60 &&
    clock.offset.all fun offset => offset.natAbs < 24 * 60

/-- The arguments with which an offset is shown: whole days, if it is negative, and seconds. -/
def offsetDisplay (offset : Int) : String :=
  if offset = 0 then "datetime.timezone.utc"
  else
    let shown := if offset < 0 then "days=-1, seconds=" ++ toString (86400 + 60 * offset)
      else "seconds=" ++ toString (60 * offset)
    "datetime.timezone(datetime.timedelta(" ++ shown ++ "))"

/-- The arguments with which a time of day is shown. Seconds are left out if they are zero. -/
def arguments (clock : Clock) : List String :=
  let seconds := if clock.microsecond ≠ 0 then [clock.second, clock.microsecond]
    else if clock.second ≠ 0 then [clock.second] else []
  (clock.hour :: clock.minute :: seconds).map toString ++
    (clock.offset.map fun offset => "tzinfo=" ++ offsetDisplay offset).toList

end Clock

namespace Timestamp

def isValid (time : Timestamp) : Bool := time.date.isValid && time.clock.all Clock.isValid

def display (time : Timestamp) : String :=
  let date := [time.date.year, time.date.month, time.date.day].map toString
  match time.clock with
  | none => "datetime.date(" ++ ", ".intercalate date ++ ")"
  | some clock => "datetime.datetime(" ++ ", ".intercalate (date ++ clock.arguments) ++ ")"

/-- The microseconds of universal time, if the offset is known. -/
def instant? (time : Timestamp) : Option Int := do
  let clock ← time.clock
  let offset ← clock.offset
  let minutes : Int := (time.date.dayNumber * 24 + clock.hour) * 60 + clock.minute - offset
  return (minutes * 60 + clock.second) * 1000000 + clock.microsecond

/-- Points in time with an offset are the same if they are at once; all others if they are written
with the same numbers. -/
def same (a b : Timestamp) : Bool :=
  match a.instant?, b.instant? with
  | some m, some n => m = n
  | none, none => a = b
  | _, _ => false

/-! Reading -/

/-- Splits off a number of at least `least` and at most `most` digits. -/
def splitDigits? (least most : Nat) (text : List Char) : Option (Nat × List Char) :=
  let digits := (text.take most).takeWhile Numeral.isDigit
  if digits.length < least then none
  else some (Decimal.ofDigits digits, text.drop digits.length)

/-- A fraction of a second in microseconds; further digits do not count. -/
def microseconds (digits : List Char) : Nat :=
  Decimal.ofDigits ((digits ++ List.replicate 6 '0').take 6)

/-- Reads what follows the seconds and their fraction: an offset, if there is one. -/
def readOffset? (text : List Char) : Option (Option Int) :=
  match text, text.dropWhile isSpaceOrTab with
  | [], _ => some none
  | _, ['Z'] => some (some 0)
  | _, sign :: rest =>
    if !Numeral.isSign sign then none
    else do
      let (hours, rest) ← splitDigits? 1 2 rest
      let (minutes, rest) ← match rest with
        | [] => some (0, [])
        | ':' :: rest => splitDigits? 2 2 rest
        | _ => none
      let offset : Int := hours * 60 + minutes
      if rest.isEmpty then some (some (if sign = '-' then -offset else offset)) else none
  | _, [] => none

/-- Reads what follows a date: nothing, or a time of day. -/
def readClock? (text : List Char) : Option (Option Clock) :=
  match text with
  | [] => some none
  | separator :: rest =>
    let rest? := if separator = 'T' || separator = 't' then some rest
      else if isSpaceOrTab separator then some (rest.dropWhile isSpaceOrTab) else none
    rest?.bind fun rest => do
      let (hour, rest) ← splitDigits? 1 2 rest
      let (minute, rest) ← if rest.head? = some ':' then splitDigits? 2 2 (rest.drop 1) else none
      let (second, rest) ← if rest.head? = some ':' then splitDigits? 2 2 (rest.drop 1) else none
      let (fraction, rest) := Numeral.splitFraction rest
      let offset ← readOffset? rest
      return some ⟨hour, minute, second, microseconds (fraction.drop 1), offset⟩

/-- Reads a date, perhaps with a time of day, whether it exists or not. -/
def read? (text : List Char) : Option Timestamp := do
  let (year, rest) ← splitDigits? 4 4 text
  let (month, rest) ← if rest.head? = some '-' then splitDigits? 1 2 (rest.drop 1) else none
  let (day, rest) ← if rest.head? = some '-' then splitDigits? 1 2 (rest.drop 1) else none
  let clock ← readClock? rest
  return ⟨⟨year, month, day⟩, clock⟩

end Timestamp

end AttributeExpr
