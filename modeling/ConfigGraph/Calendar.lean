import ConfigGraph.Text.Basic

/-!
# Dates and times

Calendar dates, points in time with an optional offset from universal time, and their ISO texts.
-/

namespace ConfigGraph

/-- A date of the proleptic Gregorian calendar. -/
structure Date where
  year : Nat
  month : Nat
  day : Nat
  deriving DecidableEq, Inhabited

/-- A date with a time of day; the offset is in microseconds east of universal time. -/
structure DateTime where
  date : Date
  hour : Nat
  minute : Nat
  second : Nat
  microsecond : Nat
  offset : Option Int
  deriving DecidableEq, Inhabited

namespace Date

/-- Every fourth year is a leap year, except for centuries that four hundred does not divide. -/
def isLeap (year : Nat) : Bool := year % 4 == 0 && (year % 100 != 0 || year % 400 == 0)

/-- The number of days in a month. -/
def daysIn (year month : Nat) : Nat :=
  if month = 2 then if isLeap year then 29 else 28
  else if month = 4 ∨ month = 6 ∨ month = 9 ∨ month = 11 then 30
  else 31

/-- Days before the first of January of a year, counted from the year one. -/
def daysBeforeYear (year : Nat) : Nat :=
  let past := year - 1
  past * 365 + past / 4 - past / 100 + past / 400

/-- Days before the first of a month in its year. -/
def daysBeforeMonth (year month : Nat) : Nat :=
  (List.range (month - 1)).foldl (fun days earlier => days + daysIn year (earlier + 1)) 0

/-- The number of the day, where the first day of the year one is one. -/
def ordinal (date : Date) : Nat :=
  daysBeforeYear date.year + daysBeforeMonth date.year date.month + date.day

/-- The text `YYYY-MM-DD`. -/
def isoText (date : Date) : Text :=
  Text.padded 10 4 date.year ++ "-" ++ Text.padded 10 2 date.month ++ "-" ++
    Text.padded 10 2 date.day

end Date

namespace DateTime

/-- Microseconds since the start of the year one on the local clock. -/
def localMicroseconds (time : DateTime) : Int :=
  Int.ofNat ((((time.date.ordinal * 24 + time.hour) * 60 + time.minute) * 60 + time.second)
    * 1000000 + time.microsecond)

/-- Two points in time are the same if both have an offset and are the same instant, or neither
has one and the clocks agree. -/
def same (left right : DateTime) : Bool :=
  match left.offset, right.offset with
  | none, none => left == right
  | some leftOffset, some rightOffset =>
      left.localMicroseconds - leftOffset == right.localMicroseconds - rightOffset
  | _, _ => false

/-- The text of an offset, `±HH:MM` and seconds and microseconds where they are not zero. -/
def offsetText (offset : Int) : Text :=
  let size := offset.natAbs
  let micros := size % 1000000
  let seconds := size / 1000000
  let sign : Text := if offset < 0 then "-" else "+"
  let two (number : Nat) := Text.padded 10 2 number
  sign ++ two (seconds / 3600) ++ ":" ++ two (seconds / 60 % 60) ++
    (if seconds % 60 = 0 ∧ micros = 0 then [] else (":" : Text) ++ two (seconds % 60)) ++
    (if micros = 0 then [] else ("." : Text) ++ Text.padded 10 6 micros)

/-- A point in time with a text between its date and its clock. -/
def textWith (separator : Text) (time : DateTime) : Text :=
  let two (number : Nat) := Text.padded 10 2 number
  time.date.isoText ++ separator ++ two time.hour ++ ":" ++ two time.minute ++ ":" ++
    two time.second ++
    (if time.microsecond = 0 then [] else ("." : Text) ++ Text.padded 10 6 time.microsecond) ++
    (match time.offset with
      | none => []
      | some offset => offsetText offset)

/-- The text `YYYY-MM-DDTHH:MM:SS`, with six decimals if there are microseconds, and the offset. -/
def isoText (time : DateTime) : Text := time.textWith "T"

end DateTime

end ConfigGraph
