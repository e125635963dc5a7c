/-! Days of the proleptic Gregorian calendar and instants within them, with the text that SQL
date and time literals use. A leap second is written as second 60. -/

namespace SqlCompose

namespace Calendar

def isLeap (year : Int) : Bool := year % 4 == 0 && (year % 100 != 0 || year % 400 == 0)

def daysInMonth (year : Int) (month : Nat) : Nat :=
  match month with
  | 2 => if isLeap year then 29 else 28
  | 4 | 6 | 9 | 11 => 30
  | _ => 31

/-- Days of the months before `month`. -/
def daysBeforeMonth (year : Int) (month : Nat) : Nat :=
  (List.range (month - 1)).foldl (fun days m => days + daysInMonth year (m + 1)) 0

/-- Days from the first of January of year 1 to that of `year`. -/
def daysBeforeYear (year : Int) : Int :=
  let past := year - 1
  365 * past + past / 4 - past / 100 + past / 400

/-- Decimal digits with zeros in front up to a width. -/
def padded (width n : Nat) : String :=
  let cs := Nat.toDigits 10 n
  String.ofList (List.replicate (width - cs.length) '0' ++ cs)

/-- Four digits, with a sign when the year does not lie between 0 and 9999. -/
def yearText (year : Int) : String :=
  if 0 ≤ year ∧ year ≤ 9999 then padded 4 year.toNat
  else (if year < 0 then "-" else "+") ++ padded 4 year.natAbs

end Calendar

structure Date where
  year : Int
  month : Nat
  day : Nat
  month_mem : 1 ≤ month ∧ month ≤ 12
  day_mem : 1 ≤ day ∧ day ≤ Calendar.daysInMonth year month
deriving DecidableEq

namespace Date

def of? (year : Int) (month day : Nat) : Option Date :=
  if hm : 1 ≤ month ∧ month ≤ 12 then
    if hd : 1 ≤ day ∧ day ≤ Calendar.daysInMonth year month then some ⟨year, month, day, hm, hd⟩
    else none
  else none

/-- Days since the first of January of year 1. -/
def ordinal (d : Date) : Int :=
  Calendar.daysBeforeYear d.year + Calendar.daysBeforeMonth d.year d.month + (d.day - 1 : Nat)

/-- Days since the first of January 2000. -/
def daysSince2000 (d : Date) : Int := d.ordinal - Calendar.daysBeforeYear 2000

def text (d : Date) : String :=
  Calendar.yearText d.year ++ "-" ++ Calendar.padded 2 d.month ++ "-" ++ Calendar.padded 2 d.day

end Date

/-- A date with a time of day. Nanoseconds from `10 ^ 9` on belong to a leap second. -/
structure Timestamp where
  date : Date
  hour : Nat
  minute : Nat
  second : Nat
  nanosecond : Nat
  hour_lt : hour < 24
  minute_lt : minute < 60
  second_lt : second < 60
  nanosecond_lt : nanosecond < 1000000000 ∨ second = 59 ∧ nanosecond < 2000000000
deriving DecidableEq

namespace Timestamp

def of? (date : Date) (hour minute second nanosecond : Nat) : Option Timestamp :=
  if hh : hour < 24 then
    if hm : minute < 60 then
      if hs : second < 60 then
        if hn : nanosecond < 1000000000 ∨ second = 59 ∧ nanosecond < 2000000000 then
          some ⟨date, hour, minute, second, nanosecond, hh, hm, hs, hn⟩
        else none
      else none
    else none
  else none

/-- No digits, or three, six or nine, as few as are exact. -/
def fractionText (nanosecond : Nat) : String :=
  if nanosecond = 0 then ""
  else if nanosecond % 1000000 = 0 then "." ++ Calendar.padded 3 (nanosecond / 1000000)
  else if nanosecond % 1000 = 0 then "." ++ Calendar.padded 6 (nanosecond / 1000)
  else "." ++ Calendar.padded 9 nanosecond

def text (t : Timestamp) : String :=
  t.date.text ++ " " ++ Calendar.padded 2 t.hour ++ ":" ++ Calendar.padded 2 t.minute ++ ":" ++
    Calendar.padded 2 (t.second + t.nanosecond / 1000000000) ++
    fractionText (t.nanosecond % 1000000000)

/-- Nanoseconds since the start of 2000. A leap second overlaps the second after it. -/
def nanosecondsSince2000 (t : Timestamp) : Int :=
  (((t.date.daysSince2000 * 24 + t.hour) * 60 + t.minute) * 60 + t.second) * 1000000000 +
    t.nanosecond

/-- Whole microseconds since the start of 2000, cut toward zero. -/
def microsecondsSince2000 (t : Timestamp) : Int := t.nanosecondsSince2000.tdiv 1000

end Timestamp

end SqlCompose
