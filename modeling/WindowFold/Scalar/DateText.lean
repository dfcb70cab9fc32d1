import WindowFold.Calendar.Clock
import WindowFold.Scalar.Text

/-! Dates as text. What is read may go on with a time of day and a zone; the
date is then the one of universal time. -/
namespace WindowFold.DateText

private def padded (width n : Nat) : String :=
  let digits := toString n
  String.ofList (List.replicate (width - digits.length) '0') ++ digits

/-- A date as `YYYY-MM-DD`; a year outside 0 to 9999 is written with its sign. -/
def render? (day : Int) : Option String :=
  if Calendar.covers (day * Calendar.dayLength) then
    let month := Calendar.monthOfDay day
    let year := Calendar.yearOf month
    let yearText :=
      if 0 ≤ year && year ≤ 9999 then padded 4 year.toNat
      else (if year < 0 then "-" else "+") ++ padded 4 year.natAbs
    some (yearText ++ "-" ++ padded 2 ((Calendar.monthOfYear month).toNat + 1)
      ++ "-" ++ padded 2 ((day - Calendar.firstDay month).toNat + 1))
  else none

/-! ### Reading -/

/-- The digits in front, and the rest. -/
private def takeDigits (cs : List Char) : List Char × List Char :=
  (cs.takeWhile Char.isDigit, cs.dropWhile Char.isDigit)

/-- A number of so many digits in front, and the rest. -/
private def takeNumber (size : Nat) (cs : List Char) : Option (Nat × List Char) :=
  let digits := cs.take size
  if digits.length = size && digits.all Char.isDigit then
    some (Text.digitsValue digits, cs.drop size)
  else none

/-- Digits, perhaps with a plus sign before them. -/
private def plusNumber? (cs : List Char) : Option Nat :=
  let digits := if cs.head? = some '+' then cs.drop 1 else cs
  if !digits.isEmpty && digits.all Char.isDigit then some (Text.digitsValue digits) else none

/-- A sign and a year of four digits or more, a month and a day. -/
def readSigned? (cs : List Char) : Option Int :=
  let (year, rest) := ((cs.drop 1).takeWhile (· ≠ '-'), (cs.drop 1).dropWhile (· ≠ '-'))
  let (month, rest) := ((rest.drop 1).takeWhile (· ≠ '-'), (rest.drop 1).dropWhile (· ≠ '-'))
  if year.length < 4 || !year.all Char.isDigit || rest.isEmpty then none
  else
    match plusNumber? month, plusNumber? (rest.drop 1) with
    | some month, some day =>
      let number : Int := Text.digitsValue year
      Calendar.dayOfDate? (if cs.head? = some '-' then -number else number) month day
    | _, _ => none

/-- A year of four digits, and a month and a day of one or two each. No digit
may follow. -/
def readHyphenated? (cs : List Char) : Option Int :=
  match takeNumber 4 cs with
  | some (year, '-' :: rest) =>
    let (month, rest) := takeDigits rest
    match rest with
    | '-' :: rest =>
      let (day, rest) := takeDigits rest
      let fits (digits : List Char) : Bool := digits.length = 1 || digits.length = 2
      if fits month && fits day && !rest.any Char.isDigit then
        Calendar.dayOfDate? year (Text.digitsValue month) (Text.digitsValue day)
      else none
    | _ => none
  | _ => none

/-- Eight digits and nothing else. -/
def readCompact? (cs : List Char) : Option Int :=
  match takeNumber 8 cs with
  | some (number, []) =>
    Calendar.dayOfDate? (number / 10000 : Nat) (number / 100 % 100) (number % 100)
  | _ => none

/-- The minutes of a time of day, which has a second up to 60, and what follows
it: two digits each with colons between them and perhaps a fraction, or six
digits with no digit close behind. -/
def readTime? (cs : List Char) : Option (Int × List Char) :=
  let time (hour minute second : Nat) (rest : List Char) : Option (Int × List Char) :=
    if hour < 24 && minute < 60 && second ≤ 60 then some (60 * hour + minute, rest) else none
  match takeNumber 2 cs with
  | some (hour, ':' :: rest) =>
    match takeNumber 2 rest with
    | some (minute, ':' :: rest) =>
      match takeNumber 2 rest with
      | some (second, '.' :: rest) =>
        let (fraction, rest) := takeDigits rest
        if fraction.isEmpty then none else time hour minute second rest
      | some (second, rest) => time hour minute second rest
      | none => none
    | _ => none
  | _ =>
    match takeNumber 6 cs with
    | some (number, rest) =>
      if (rest.take 2).any Char.isDigit then none
      else time (number / 10000) (number / 100 % 100) (number % 100) rest
    | none => none

/-- The zone behind a time: none is universal time, and so is a `Z` that follows
closely. Others have an offset or a name, perhaps with blanks before it. -/
def readZone? (cs : List Char) : Option Calendar.Clock :=
  if cs.isEmpty || cs = ['Z'] || cs = ['z'] then some .universal
  else
    let name := cs.dropWhile Text.isSpace
    match Calendar.Clock.ofOffset? name with
    | some clock => some clock
    | none => Calendar.Clock.ofZone? (String.ofList name)

/-- `YYYY-MM-DD`, a blank or a `T`, a time of day, and perhaps a zone. -/
def readMoment? (cs : List Char) : Option Int :=
  match readHyphenated? (cs.take 10), cs.drop 10 with
  | some day, c :: rest =>
    if ((cs.take 10).filter Char.isDigit).length = 8 && (c = 'T' || c = 't' || c = ' ') then
      match readTime? rest with
      | none => none
      | some (minute, rest) =>
        match readZone? rest with
        | none => none
        | some clock => (clock.universalOf? (1440 * day + minute)).map (· / 1440)
    else none
  | _, _ => none

/-- Reads a date. Texts of more than ten bytes must have a time of day or a signed year. -/
def read? (text : String) : Option Int :=
  let cs := text.toList
  if cs.head? = some '+' || cs.head? = some '-' then readSigned? cs
  else if 10 < text.utf8ByteSize then readMoment? cs
  else
    match readHyphenated? cs with
    | some day => some day
    | none => readCompact? cs

end WindowFold.DateText
