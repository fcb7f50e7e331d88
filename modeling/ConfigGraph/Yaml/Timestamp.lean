import ConfigGraph.Calendar
import ConfigGraph.Error
import ConfigGraph.Number.Literal

/-!
# Timestamps

A timestamp is a date, or a date with a time of day and possibly an offset from universal time.
`Timestamp.parse?` reads the form, and `Timestamp.value` checks that such a date and time exist.
-/

namespace ConfigGraph.Yaml

/-- The offset of a time from universal time, as it is written. -/
inductive ZoneText where
  | universal
  | offset (negative : Bool) (hours minutes : Nat)

/-- A time of day, as it is written. -/
structure TimeText where
  hour : Nat
  minute : Nat
  second : Nat
  fraction : Text
  zone : Option ZoneText

/-- A timestamp, as it is written. -/
structure Timestamp where
  date : Date
  /-- Whether the date is written with ten code points. -/
  isFull : Bool
  time : Option TimeText

namespace Timestamp

/-- The number of decimal digits at the start of a text, taken up to a number of them, if there are
enough. -/
def digits? (least most : Nat) (text : Text) : Option (Text × Text) :=
  let digits := (text.take most).takeWhile CodePoint.isAsciiDigit
  if least ≤ digits.length then some (digits, text.drop digits.length) else none

/-- The text behind a sign. -/
def behind? (sign : CodePoint) : Text → Option Text
  | [] => none
  | code :: rest => if code = sign then some rest else none

/-- A zone, which takes the whole text. -/
def zone? (text : Text) : Option ZoneText :=
  match text with
  | [] => none
  | sign :: rest =>
      if sign = 'Z' then if rest = [] then some .universal else none
      else if sign = '+' ∨ sign = '-' then do
        let (hours, behindHours) ← digits? 1 2 rest
        let minutes ←
          if behindHours = [] then some []
          else do
            let (minutes, last) ← digits? 2 2 (← behind? ':' behindHours)
            if last = [] then some minutes else none
        return .offset (sign == '-') (Number.ofDigits hours) (Number.ofDigits minutes)
      else none

/-- A time, which takes the whole text. -/
def time? (text : Text) : Option TimeText := do
  let (hour, behindHour) ← digits? 1 2 text
  let (minute, behindMinute) ← digits? 2 2 (← behind? ':' behindHour)
  let (second, behindSecond) ← digits? 2 2 (← behind? ':' behindMinute)
  let fraction :=
    ((behind? '.' behindSecond).map fun digits => digits.takeWhile CodePoint.isAsciiDigit)
  let rest := behindSecond.drop ((fraction.map fun digits => digits.length + 1).getD 0)
  let number := Number.ofDigits
  let time (zone : Option ZoneText) : TimeText :=
    ⟨number hour, number minute, number second, fraction.getD [], zone⟩
  if rest = [] then return time none
  let zone ← zone? (rest.dropWhile isBlank)
  return time (some zone)
where
  /-- A space or a tab. -/
  isBlank (code : CodePoint) : Bool := code == ' ' || code == '\t'

/-- What stands between a date and a time: the letter T, or blanks. -/
def behindDate? (text : Text) : Option Text :=
  let blanks := text.takeWhile time?.isBlank
  if blanks ≠ [] then some (text.drop blanks.length)
  else
    match behind? 'T' text with
    | some rest => some rest
    | none => behind? 't' text

/-- The timestamp that a text spells. -/
def parse? (text : Text) : Option Timestamp := do
  let (year, behindYear) ← digits? 4 4 text
  let (month, behindMonth) ← digits? 1 2 (← behind? '-' behindYear)
  let (day, rest) ← digits? 1 2 (← behind? '-' behindMonth)
  let date : Date := ⟨Number.ofDigits year, Number.ofDigits month, Number.ofDigits day⟩
  let isFull := month.length + day.length == 4
  if rest = [] then return ⟨date, isFull, none⟩
  let time ← time? (← behindDate? rest)
  return ⟨date, isFull, some time⟩

/-- Whether a timestamp needs no tag to be one. -/
def isImplicit (timestamp : Timestamp) : Bool := timestamp.time.isSome || timestamp.isFull

/-- Fails if a number is out of an interval. -/
def check (condition : Bool) (reason : Text) : Except ScalarFault Unit :=
  if condition then .ok () else .error (.outOfCalendar reason)

/-- Fails if there is no such date. -/
def checkDate (date : Date) : Except ScalarFault Unit := do
  check (1 ≤ date.year) ("year " ++ Text.ofNat date.year ++ " is out of range")
  check (1 ≤ date.month && date.month ≤ 12) "month must be in 1..12"
  check (1 ≤ date.day && date.day ≤ Date.daysIn date.year date.month)
    "day is out of range for month"

/-- The seconds in a day. -/
def daySeconds : Int := 86400

/-- The seconds of an offset, which must be less than a day. -/
def offsetSeconds (negative : Bool) (hours minutes : Nat) : Except ScalarFault Int :=
  let size : Int := (hours * 60 + minutes) * 60
  let seconds := if negative then -size else size
  if seconds.natAbs < daySeconds.natAbs then .ok seconds
  else
    let days := Int.fdiv seconds daySeconds
    let rest := Int.fmod seconds daySeconds
    let bounds : Text := "strictly between -timedelta(hours=24) and timedelta(hours=24)"
    let shownRest : Text := if rest = 0 then [] else ", seconds=" ++ Text.ofInt rest
    let shown := "datetime.timedelta(days=" ++ Text.ofInt days ++ shownRest ++ ")"
    .error (.outOfCalendar ("offset must be a timedelta " ++ bounds ++ ", not " ++ shown ++ "."))

/-- The microseconds that a fraction of a second spells; digits behind the sixth are dropped. -/
def microseconds (fraction : Text) : Nat :=
  let digits := fraction.take 6
  Number.ofDigits digits * Nat.pow 10 (6 - digits.length)

/-- The offset of a zone in microseconds. -/
def zoneOffset : Option ZoneText → Except ScalarFault (Option Int)
  | none => .ok none
  | some .universal => .ok (some 0)
  | some (.offset negative hours minutes) =>
      (offsetSeconds negative hours minutes).map fun seconds => some (seconds * 1000000)

/-- The date and time of a timestamp that has a time. -/
def dateTime (date : Date) (time : TimeText) : Except ScalarFault DateTime := do
  let offset ← zoneOffset time.zone
  checkDate date
  check (time.hour ≤ 23) "hour must be in 0..23"
  check (time.minute ≤ 59) "minute must be in 0..59"
  check (time.second ≤ 59) "second must be in 0..59"
  return ⟨date, time.hour, time.minute, time.second, microseconds time.fraction, offset⟩

end Timestamp

end ConfigGraph.Yaml
