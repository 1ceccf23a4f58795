/-
Moments: dates with a time and a zone.

Texts are read byte by byte, and the first byte that does not fit decides the
fault.  Of the time only this is kept, whether it is midnight.
-/
import WebForm.Date.Basic

namespace WebForm

/-- Why a text or a number is no moment. -/
inductive MomentFault where
  | tooShort
  | extraCharacters
  | year | month | day
  | dateSeparator
  | timeSeparator
  | hour | minute | second
  | colon
  | fractionMissing
  | zoneSign | zoneHour | zoneMinute
  | monthRange | dayRange | hourRange | minuteRange | secondRange
  | zoneMinuteRange | zoneRange
  | tooEarly | tooLate
  | notANumber
deriving DecidableEq

namespace MomentFault

/-- The wording of a fault. -/
def message : MomentFault → String
  | tooShort => "input is too short"
  | extraCharacters => "unexpected extra characters at the end of the input"
  | year => "invalid character in year"
  | month => "invalid character in month"
  | day => "invalid character in day"
  | dateSeparator => "invalid date separator, expected \x60-\x60"
  | timeSeparator => "invalid datetime separator, expected \x60T\x60, \x60t\x60, \x60_\x60 or space"
  | hour => "invalid character in hour"
  | minute => "invalid character in minute"
  | second => "invalid character in second"
  | colon => "invalid time separator, expected \x60:\x60"
  | fractionMissing => "second fraction digits missing after \x60.\x60"
  | zoneSign => "invalid timezone sign"
  | zoneHour => "invalid timezone hour"
  | zoneMinute => "invalid timezone minute"
  | monthRange => "month value is outside expected range of 1-12"
  | dayRange => "day value is outside expected range"
  | hourRange => "hour value is outside expected range of 0-23"
  | minuteRange => "minute value is outside expected range of 0-59"
  | secondRange => "second value is outside expected range of 0-59"
  | zoneMinuteRange => "timezone minute value is outside expected range of 0-59"
  | zoneRange => "timezone offset must be less than 24 hours"
  | tooEarly => "dates before 0000 are not supported as unix timestamps"
  | tooLate => "dates after 9999 are not supported as unix timestamps"
  | notANumber => "NaN values not permitted"

end MomentFault

/-- The date of a moment, and whether its time is midnight. -/
structure Moment where
  date : Date
  midnight : Bool
deriving DecidableEq

namespace Date

/-- The value of the digit at a place, or the fault. -/
def digitAt (bytes : List UInt8) (i : Nat) (fault : MomentFault) : Except MomentFault Nat :=
  match bytes[i]? with
  | some b => if 0x30 ≤ b && b ≤ 0x39 then .ok (b.toNat - 0x30) else .error fault
  | none => .error fault

/-- The value of two digits, or the fault. -/
def twoDigitsAt (bytes : List UInt8) (i : Nat) (fault : MomentFault) : Except MomentFault Nat := do
  let a ← digitAt bytes i fault
  let b ← digitAt bytes (i + 1) fault
  return 10 * a + b

/-- The byte at a place is the expected one. -/
def expectAt (bytes : List UInt8) (i : Nat) (b : UInt8) (fault : MomentFault) :
    Except MomentFault Unit :=
  if bytes[i]? = some b then .ok () else .error fault

/-- Reads the date at the start of a text. -/
def leading (bytes : List UInt8) : Except MomentFault Date := do
  if bytes.length < 10 then throw .tooShort
  let century ← twoDigitsAt bytes 0 .year
  let year ← twoDigitsAt bytes 2 .year
  let year := 100 * century + year
  expectAt bytes 4 0x2d .dateSeparator
  let month ← twoDigitsAt bytes 5 .month
  expectAt bytes 7 0x2d .dateSeparator
  let day ← twoDigitsAt bytes 8 .day
  if daysIn year month = 0 then throw .monthRange
  if day < 1 || daysIn year month < day then throw .dayRange
  return ⟨year, month, day⟩

/-- Reads a text that is a date and nothing more. -/
def readIso (bytes : List UInt8) : Except MomentFault Date := do
  let d ← leading bytes
  if 10 < bytes.length then throw .extraCharacters
  return d

/-- The bytes from a place on that are digits. -/
def digitRun (bytes : List UInt8) (i : Nat) : List UInt8 :=
  (bytes.drop i).takeWhile fun b => 0x30 ≤ b && b ≤ 0x39

/-- Reads seconds and their fraction from a place on: whether all are zero, and the place
behind them. -/
def secondsAt (bytes : List UInt8) (i : Nat) : Except MomentFault (Bool × Nat) := do
  if bytes[i]? != some 0x3a then return (true, i)
  let second ← twoDigitsAt bytes (i + 1) .second
  if 59 < second then throw .secondRange
  if bytes[i + 3]? != some 0x2e && bytes[i + 3]? != some 0x2c then return (second = 0, i + 3)
  let run := digitRun bytes (i + 4)
  if run.isEmpty then throw .fractionMissing
  return (second = 0 && (run.take 6).all (· = 0x30), i + 4 + run.length)

/-- Reads a zone from a place on, up to the end of the text. -/
def zoneAt (bytes : List UInt8) (i : Nat) : Except MomentFault Unit := do
  let finish (j : Nat) : Except MomentFault Unit :=
    if j < bytes.length then throw .extraCharacters else return ()
  match bytes[i]? with
  | none => return ()
  | some b =>
    if b = 0x5a || b = 0x7a then finish (i + 1)
    else
      let isMinus := b = 0xe2 && bytes[i + 1]? = some 0x88 && bytes[i + 2]? = some 0x92
      if b != 0x2b && b != 0x2d && !isMinus then throw .zoneSign
      let j := if isMinus then i + 3 else i + 1
      let hours ← twoDigitsAt bytes j .zoneHour
      let k := if bytes[j + 2]? = some 0x3a then j + 3 else j + 2
      let minutes ← twoDigitsAt bytes k .zoneMinute
      if 60 ≤ minutes then throw .zoneMinuteRange
      if 24 ≤ hours then throw .zoneRange
      finish (k + 2)

/-- Reads a date with a time. -/
def readMoment (bytes : List UInt8) : Except MomentFault Moment := do
  let d ← leading bytes
  match bytes[10]? with
  | some b => if b != 0x54 && b != 0x74 && b != 0x20 && b != 0x5f then throw .timeSeparator
  | none => throw .timeSeparator
  if bytes.length < 16 then throw .tooShort
  let hour ← twoDigitsAt bytes 11 .hour
  expectAt bytes 13 0x3a .colon
  let minute ← twoDigitsAt bytes 14 .minute
  if 23 < hour then throw .hourRange
  if 59 < minute then throw .minuteRange
  let (still, i) ← secondsAt bytes 16
  zoneAt bytes i
  return ⟨d, hour = 0 && minute = 0 && still⟩

end Date

end WebForm
