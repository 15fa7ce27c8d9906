import PacketWire.Toml.Reader
import PacketWire.Toml.Text

/-!
# Dates and times

A moment is a date, a time of day, or both; only with both can it say how far it is from universal
time. Months, days, hours, minutes and seconds are checked against the calendar; a minute may
have a 61st second.
-/

namespace PacketWire.Toml

/-- A day of the calendar. -/
structure Date where
  year : Nat
  month : Nat
  day : Nat
  deriving DecidableEq, Repr

/-- A time of day, to the billionth of a second; what is finer is cut off. -/
structure TimeOfDay where
  hour : Nat
  minute : Nat
  second : Nat
  nanosecond : Nat
  deriving DecidableEq, Repr

/-- A date, a time, or both, possibly with the distance from universal time in minutes. -/
inductive Moment
  | date (date : Date)
  | time (time : TimeOfDay)
  | dateTime (date : Date) (time : TimeOfDay)
  | instant (date : Date) (time : TimeOfDay) (minutes : Int)
  deriving DecidableEq, Repr

namespace Moment

def daysIn (year month : Nat) : Nat :=
  if month = 2 then
    if year % 4 = 0 ∧ (year % 100 ≠ 0 ∨ year % 400 = 0) then 29 else 28
  else if month = 4 ∨ month = 6 ∨ month = 9 ∨ month = 11 then 30
  else 31

/-- A number of exactly that many digits, between two bounds. -/
def field (digits low high : Nat) : Reader Nat := do
  let n ← ofDigits 10 <$> Reader.exactCount Char.isDigit digits
  if low ≤ n ∧ n ≤ high then return n else Reader.fail

/-- A date, as in `2024-02-29`. -/
def dateReader : Reader Date := do
  let year ← field 4 0 9999
  Reader.char '-'
  let month ← field 2 1 12
  Reader.char '-'
  let day ← field 2 1 (daysIn year month)
  return ⟨year, month, day⟩

/-- A point and the digits of a fraction, as billionths. -/
def fraction : Reader Nat := do
  Reader.char '.'
  let digits ← Reader.takeWhile₁ Char.isDigit
  return ofDigits 10 ((digits ++ List.replicate 9 '0').take 9)

/-- A time of day, as in `07:32:00.5`. -/
def timeReader : Reader TimeOfDay := do
  let hour ← field 2 0 23
  Reader.char ':'
  let minute ← field 2 0 59
  Reader.char ':'
  let second ← field 2 0 60
  let nanosecond ← Reader.optional fraction
  return ⟨hour, minute, second, nanosecond.getD 0⟩

/-- The distance from universal time in minutes: `Z`, or a sign, hours and minutes. -/
def offsetReader : Reader Int := do
  match ← Reader.any with
  | 'Z' | 'z' => return 0
  | '+' => distance
  | '-' => return -(← distance)
  | _ => Reader.fail
where
  distance : Reader Int := do
    let hours ← field 2 0 23
    Reader.char ':'
    let minutes ← field 2 0 59
    return hours * 60 + minutes

/-- The time after a date, set off by `T` or a space. -/
def afterDate : Reader (TimeOfDay × Option Int) := do
  let _ ← Reader.satisfying fun c => c = 'T' || c = 't' || c = ' '
  let clock ← timeReader
  let offset ← Reader.optional offsetReader
  return (clock, offset)

def datedReader : Reader Moment := do
  let day ← dateReader
  match ← Reader.optional afterDate with
  | none => return .date day
  | some (clock, none) => return .dateTime day clock
  | some (clock, some minutes) => return .instant day clock minutes

def reader : Reader Moment :=
  Reader.orElse datedReader (.time <$> timeReader)

end Moment

end PacketWire.Toml
