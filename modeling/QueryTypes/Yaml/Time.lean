import QueryTypes.Decimal.Reading
import QueryTypes.Text.Basic
import QueryTypes.Yaml.Fault

/-!
# Dates and times in a YAML text

A date, or a date with a time of day and perhaps a zone. The form is checked first; whether
there is such a day and hour is a question of the calendar and comes second.
-/

namespace QueryTypes

namespace Yaml

/-- A time of day. -/
structure Clock where
  hour : Nat
  minute : Nat
  second : Nat
  microsecond : Nat
  /-- How many minutes the clock is ahead of universal time, if that is known. -/
  zone : Option Int
  deriving DecidableEq, Inhabited

/-- A date, perhaps with a time of day. -/
structure Time where
  year : Nat
  month : Nat
  day : Nat
  clock : Option Clock
  deriving DecidableEq, Inhabited

namespace Time

/-! ### Form -/

/-- A run of decimal digits of some lengths at the front of a text. -/
def digits? (least most : Nat) (text : List Char) : Option (Nat × List Char) :=
  let found := (text.take most).takeWhile Decimal.isDigit
  if found.length < least then none else some (Decimal.toNat found, text.drop found.length)

/-- The text behind a mark at its front. -/
def mark? (c : Char) : List Char → Option (List Char)
  | d :: rest => if d = c then some rest else none
  | [] => none

/-- A blank between the parts of a time. -/
def isGap (c : Char) : Bool := c = ' ' || c = '\t'

/-- The digits of a fraction of a second in millionths. -/
def microseconds (digits : List Char) : Nat :=
  Decimal.toNat ((digits ++ List.replicate 6 '0').take 6)

/-- A fraction of a second, if there is one. -/
def fraction : List Char → Nat × List Char
  | '.' :: rest =>
    let (digits, rest) := Decimal.spanDigits rest
    (microseconds digits, rest)
  | rest => (0, rest)

/-- The hours and minutes of a zone, in minutes. -/
def offset? (text : List Char) : Option Nat := do
  let (hours, rest) ← digits? 1 2 text
  match rest with
  | [] => return hours * 60
  | _ =>
    let (minutes, rest) ← digits? 2 2 (← mark? ':' rest)
    guard rest.isEmpty
    return hours * 60 + minutes

/-- A zone at the end of a time, if there is one. -/
def zone? (text : List Char) : Option (Option Int) :=
  match text, text.dropWhile isGap with
  | [], _ => some none
  | _, ['Z'] => some (some 0)
  | _, '+' :: rest => (offset? rest).map fun n => some n
  | _, '-' :: rest => (offset? rest).map fun n => some (-(n : Int))
  | _, _ => none

/-- A time of day. -/
def clock? (text : List Char) : Option Clock := do
  let (hour, rest) ← digits? 1 2 text
  let (minute, rest) ← digits? 2 2 (← mark? ':' rest)
  let (second, rest) ← digits? 2 2 (← mark? ':' rest)
  let (microsecond, rest) := fraction rest
  return { hour, minute, second, microsecond, zone := ← zone? rest }

/-- What stands between a date and a time of day. -/
def dropGap? : List Char → Option (List Char)
  | c :: rest =>
    if c = 'T' || c = 't' then some rest
    else if isGap c then some (rest.dropWhile isGap)
    else none
  | [] => none

/-- A time, by its form alone. -/
def ofChars? (text : List Char) : Option Time := do
  let (year, rest) ← digits? 4 4 text
  let (month, rest) ← digits? 1 2 (← mark? '-' rest)
  let (day, rest) ← digits? 1 2 (← mark? '-' rest)
  if rest.isEmpty then return { year, month, day, clock := none }
  else return { year, month, day, clock := some (← clock? (← dropGap? rest)) }

/-- Whether a plain scalar is a time. A date alone has all its digits. -/
def isTime (text : List Char) : Bool :=
  match ofChars? text with
  | none => false
  | some time => time.clock.isSome || text.length = 10

/-! ### Calendar -/

/-- Whether a year has a day more. -/
def isLeap (year : Nat) : Bool := year % 4 = 0 && (year % 100 ≠ 0 || year % 400 = 0)

/-- How many days a month has. -/
def daysIn (year month : Nat) : Nat :=
  if month = 2 then (if isLeap year then 29 else 28)
  else if month = 4 || month = 6 || month = 9 || month = 11 then 30 else 31

/-- Whether there is such a time of day. A zone is less than a day away. -/
def Clock.isReal (c : Clock) : Bool :=
  c.hour < 24 && c.minute < 60 && c.second < 60 &&
    c.zone.all fun minutes => minutes.natAbs < 24 * 60

/-- Whether there is such a time. -/
def isReal (t : Time) : Bool :=
  1 ≤ t.year && 1 ≤ t.month && t.month ≤ 12 && 1 ≤ t.day && t.day ≤ daysIn t.year t.month &&
    t.clock.all Clock.isReal

/-- A text without one line feed at its end. -/
def dropLineEnd (text : List Char) : List Char :=
  if text.getLast? = some '\n' then text.dropLast else text

/-- The time that a text writes; a line feed may stand behind it. -/
def ofText (text : List Char) : Except Fault Time :=
  match ofChars? (dropLineEnd text) with
  | none => .error .notTime
  | some time => if time.isReal then .ok time else .error .noTime

/-! ### Instants -/

/-- How many days so many months at the beginning of a year have. -/
def daysOfMonths (year : Nat) : Nat → Nat
  | 0 => 0
  | month + 1 => daysOfMonths year month + daysIn year (month + 1)

/-- How many days a date is after the last day before the year one. -/
def dayNumber (t : Time) : Nat :=
  let years := t.year - 1
  years * 365 + years / 4 - years / 100 + years / 400 + daysOfMonths t.year (t.month - 1) + t.day

/-- The instant of a time whose zone is known, in millionths of a second. -/
def instant? (t : Time) : Option Int := do
  let clock ← t.clock
  let zone ← clock.zone
  let minutes : Int := (t.dayNumber * 24 + clock.hour) * 60 + clock.minute - zone
  return (minutes * 60 + clock.second) * 1000000 + clock.microsecond

/-- Whether two times are the same. If their zones are known, they are if it is one instant. -/
def same (s t : Time) : Bool :=
  match s.instant?, t.instant? with
  | some m, some n => m = n
  | _, _ => s = t

/-! ### In messages -/

/-- Numbers with commas between them. -/
def listed (numbers : List Nat) : String := Text.join ", " (numbers.map fun n => toString n)

/-- A zone as a message shows it. -/
def zoneText (minutes : Int) : String :=
  let seconds := minutes * 60
  let days := Int.fdiv seconds 86400
  let rest := Int.fmod seconds 86400
  if minutes = 0 then "datetime.timezone.utc"
  else
    let parts := (if days = 0 then [] else ["days=" ++ toString days]) ++
      (if rest = 0 then [] else ["seconds=" ++ toString rest])
    "datetime.timezone(datetime.timedelta(" ++ Text.join ", " parts ++ "))"

/-- A time as a message shows it; seconds that are zero are left out. -/
def describe (t : Time) : String :=
  match t.clock with
  | none => "datetime.date(" ++ listed [t.year, t.month, t.day] ++ ")"
  | some c =>
    let small :=
      if c.microsecond ≠ 0 then [c.second, c.microsecond]
      else if c.second ≠ 0 then [c.second] else []
    let zone := match c.zone with
      | none => ""
      | some minutes => ", tzinfo=" ++ zoneText minutes
    "datetime.datetime(" ++ listed ([t.year, t.month, t.day, c.hour, c.minute] ++ small) ++
      zone ++ ")"

end Time

end Yaml

end QueryTypes
