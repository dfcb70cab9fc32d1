import WindowFold.Time

/-! The proleptic Gregorian calendar by months. A month is counted from
January of year 0; a day is counted from 1 January 1970. -/
namespace WindowFold.Calendar

def isLeapYear (year : Int) : Bool :=
  year % 4 == 0 && (year % 100 != 0 || year % 400 == 0)

/-- The year and the month of the year (0 to 11) of a counted month. -/
def yearOf (month : Int) : Int := month / 12
def monthOfYear (month : Int) : Int := month % 12

def monthLength (month : Int) : Int :=
  match (monthOfYear month).toNat with
  | 1 => if isLeapYear (yearOf month) then 29 else 28
  | 3 | 5 | 8 | 10 => 30
  | _ => 31

/-- Days from 1 January of year 0 to 1 January of `year`. -/
def daysBeforeYear (year : Int) : Int :=
  365 * year + (year + 3) / 4 - (year + 99) / 100 + (year + 399) / 400

/-- Days of a common year before the month of the year. -/
def daysBeforeMonth (month : Int) : Int :=
  match (monthOfYear month).toNat with
  | 0 => 0 | 1 => 31 | 2 => 59 | 3 => 90 | 4 => 120 | 5 => 151
  | 6 => 181 | 7 => 212 | 8 => 243 | 9 => 273 | 10 => 304 | _ => 334

/-- The first day of a month. -/
def firstDay (month : Int) : Int :=
  daysBeforeYear (yearOf month) + daysBeforeMonth month
    + (if isLeapYear (yearOf month) && 2 ≤ monthOfYear month then 1 else 0) - 719528

/-- A month has 146097 / 4800 days on average, so this is at most one month off. -/
def monthEstimate (day : Int) : Int := (day + 719528) * 4800 / 146097

/-- The month that a day lies in. -/
def monthOfDay (day : Int) : Int :=
  let guess := monthEstimate day
  if day < firstDay guess then guess - 1
  else if firstDay (guess + 1) ≤ day then guess + 1
  else guess

def dayLength : Int := 86400000

/-- The first and the last time of the calendar's supported years. -/
def earliest : Timestamp := -8334601228800000
def latest : Timestamp := 8210266876799999

def covers (t : Timestamp) : Bool := earliest ≤ t && t ≤ latest

/-- A time by its place in the calendar. -/
structure Moment where
  month : Int
  /-- Days since the first of the month. -/
  day : Int
  /-- Milliseconds since midnight. -/
  time : Int
  deriving DecidableEq

def Moment.of (t : Timestamp) : Moment :=
  let day := t / dayLength
  let month := monthOfDay day
  ⟨month, day - firstDay month, t % dayLength⟩

/-- The same time of day on the same day of the month, `months` later; a month
that is too short gives its last day. -/
def Moment.later (m : Moment) (months : Nat) : Timestamp :=
  let target := m.month + months
  (firstDay target + min m.day (monthLength target - 1)) * dayLength + m.time

/-- Refuses shifts of 2^31 months or more, and those out of the supported years. -/
def Moment.later? (m : Moment) (months : Nat) : Option Timestamp :=
  if months < 2147483648 then
    let t := m.later months
    if covers t then some t else none
  else none

/-- The day with the given year, month (1 to 12) and day of the month. -/
def dayOfDate? (year : Int) (month day : Nat) : Option Int :=
  let counted := year * 12 + (month : Int) - 1
  if 1 ≤ month && month ≤ 12 && 1 ≤ day && (day : Int) ≤ monthLength counted then
    let found := firstDay counted + (day : Int) - 1
    if covers (found * dayLength) then some found else none
  else none

end WindowFold.Calendar
