import KeyAudit.Text.Basic

namespace KeyAudit

/-!
# Dates and times

Dates of the proleptic Gregorian calendar from year 1 to year 9999, and times
of a day with an optional distance from universal time.
-/

/-- A day of the calendar. -/
structure Date where
  year : Nat
  month : Nat
  day : Nat
  deriving Repr, DecidableEq

/-- A time on a day; `zone` is the distance from universal time in minutes. -/
structure DateTime where
  date : Date
  hour : Nat
  minute : Nat
  second : Nat
  microsecond : Nat
  zone : Option Int
  deriving Repr, DecidableEq

/-- Why numbers are not a date or time. -/
inductive CalendarFault where
  | year (value : Nat)
  | month
  | day
  | hour
  | minute
  | second
  | zone (minutes : Int)
  deriving Repr, DecidableEq

/-- How a span of minutes is shown in messages: whole days and the seconds above them. -/
def spanLabel (minutes : Int) : Text :=
  let part (name : String) (value : Int) : List Text :=
    if value = 0 then [] else [name ++ "=" ++ Text.ofInt value]
  let parts := part "days" (Int.fdiv minutes 1440) ++ part "seconds" (Int.fmod minutes 1440 * 60)
  let span : Text := if parts.isEmpty then "0" else Text.joinWith ", " parts
  "datetime.timedelta(" ++ span ++ ")"

/-- The wording of a calendar fault. -/
def CalendarFault.message : CalendarFault → Text
  | .year value => "year " ++ Text.ofNat value ++ " is out of range"
  | .month => "month must be in 1..12"
  | .day => "day is out of range for month"
  | .hour => "hour must be in 0..23"
  | .minute => "minute must be in 0..59"
  | .second => "second must be in 0..59"
  | .zone minutes =>
      "offset must be a timedelta strictly between -timedelta(hours=24) and " ++
        "timedelta(hours=24), not " ++ spanLabel minutes ++ "."

namespace Date

/-- Whether February has 29 days. -/
def isLeap (year : Nat) : Bool :=
  year % 4 == 0 && (year % 100 != 0 || year % 400 == 0)

/-- The number of days of a month. -/
def daysIn (year month : Nat) : Nat :=
  match month with
  | 2 => if isLeap year then 29 else 28
  | 4 | 6 | 9 | 11 => 30
  | _ => 31

/-- The number of days from the start of the calendar up to and with a day. -/
def dayNumber (date : Date) : Nat :=
  let years := date.year - 1
  let months := ((List.range (date.month - 1)).map fun month => daysIn date.year (month + 1))
  years * 365 + years / 4 - years / 100 + years / 400 + months.foldl (· + ·) 0 + date.day

/-- Require a year, a month and a day to be in range. -/
def checked (date : Date) : Except CalendarFault Date :=
  if date.year < 1 ∨ 9999 < date.year then
    .error (.year date.year)
  else if date.month < 1 ∨ 12 < date.month then
    .error .month
  else if date.day < 1 ∨ daysIn date.year date.month < date.day then
    .error .day
  else
    .ok date

/-- Year, month and day with hyphens. -/
def toText (date : Date) : Text :=
  Text.zeroPadded 4 date.year ++ "-" ++ Text.zeroPadded 2 date.month ++ "-" ++
    Text.zeroPadded 2 date.day

/-- The numbers of a date between commas. -/
def numbers (date : Date) : List Nat :=
  [date.year, date.month, date.day]

/-- How a date is shown in messages. -/
def label (date : Date) : Text :=
  "datetime.date(" ++ Text.joinWith ", " (date.numbers.map Text.ofNat) ++ ")"

end Date

namespace DateTime

/-- Require the date and all parts of the time to be in range. -/
def checked (time : DateTime) : Except CalendarFault DateTime := do
  match time.zone with
  | some minutes => if 1440 ≤ minutes.natAbs then throw (.zone minutes)
  | none => pure ()
  let _ ← time.date.checked
  if 23 < time.hour then
    throw .hour
  if 59 < time.minute then
    throw .minute
  if 59 < time.second then
    throw .second
  return time

/-- The minutes from the start of the calendar to a time, by its own clock. -/
def clockMinutes (time : DateTime) : Int :=
  time.date.dayNumber * 1440 + time.hour * 60 + time.minute

/--
Whether two times are the same.  Times with a distance from universal time are
compared by it; a time without one is never the same as a time with one.
-/
def same (first second : DateTime) : Bool :=
  match first.zone, second.zone with
  | none, none => first == second
  | some z₁, some z₂ =>
      first.clockMinutes - z₁ == second.clockMinutes - z₂ &&
        first.second == second.second && first.microsecond == second.microsecond
  | _, _ => false

/-- The distance from universal time with its sign. -/
def zoneText : Option Int → Text
  | none => ""
  | some minutes =>
      let sign : Text := if minutes < 0 then "-" else "+"
      sign ++ Text.zeroPadded 2 (minutes.natAbs / 60) ++ ":" ++
        Text.zeroPadded 2 (minutes.natAbs % 60)

/-- Date and time with a separator between them. -/
def toText (separator : CodePoint) (time : DateTime) : Text :=
  let fraction : Text :=
    if time.microsecond = 0 then "" else "." ++ Text.zeroPadded 6 time.microsecond
  time.date.toText ++ [separator] ++ Text.zeroPadded 2 time.hour ++ ":" ++
    Text.zeroPadded 2 time.minute ++ ":" ++ Text.zeroPadded 2 time.second ++ fraction ++
    zoneText time.zone

/-- How a distance from universal time is shown in messages. -/
def zoneLabel (minutes : Int) : Text :=
  if minutes = 0 then
    "datetime.timezone.utc"
  else
    "datetime.timezone(" ++ spanLabel minutes ++ ")"

/-- How a time is shown in messages; seconds and their fraction are left out when zero. -/
def label (time : DateTime) : Text :=
  let seconds :=
    if time.microsecond ≠ 0 then [time.second, time.microsecond]
    else if time.second ≠ 0 then [time.second]
    else []
  let numbers := (time.date.numbers ++ [time.hour, time.minute] ++ seconds).map Text.ofNat
  let zone : List Text := match time.zone with
    | none => []
    | some minutes => ["tzinfo=" ++ zoneLabel minutes]
  "datetime.datetime(" ++ Text.joinWith ", " (numbers ++ zone) ++ ")"

end DateTime

end KeyAudit
