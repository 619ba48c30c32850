/-!
# Dates and points in time

The days of a month, and nanoseconds since 1970 written as a date and time of day in universal time.
-/

namespace PlatterMachine.Calendar

def isLeap (year : Nat) : Bool := year % 4 = 0 && (year % 100 ≠ 0 || year % 400 = 0)

def daysIn (year month : Nat) : Nat :=
  if month = 2 then if isLeap year then 29 else 28
  else if month = 4 ∨ month = 6 ∨ month = 9 ∨ month = 11 then 30
  else 31

end PlatterMachine.Calendar

namespace PlatterMachine.Timestamp

def padded (width n : Nat) : String :=
  let digits := Nat.toDigits 10 n
  String.ofList (List.replicate (width - digits.length) '0' ++ digits)

/-- Year, month and day from the days since 1970. Years are counted from March, so that a leap day
is the last of its year. -/
def civil (days : Int) : Int × Nat × Nat :=
  let shifted := days + 719468
  let era := shifted / 146097
  let dayOfEra := (shifted % 146097).toNat
  let yearOfEra := (dayOfEra - dayOfEra / 1460 + dayOfEra / 36524 - dayOfEra / 146096) / 365
  let dayOfYear := dayOfEra - (365 * yearOfEra + yearOfEra / 4 - yearOfEra / 100)
  let shiftedMonth := (5 * dayOfYear + 2) / 153
  let day := dayOfYear - (153 * shiftedMonth + 2) / 5 + 1
  let month := if shiftedMonth < 10 then shiftedMonth + 3 else shiftedMonth - 9
  (yearOfEra + 400 * era + (if month ≤ 2 then 1 else 0), month, day)

def text (nanoseconds : Int) : String :=
  let seconds := nanoseconds / 1000000000
  let (year, month, day) := civil (seconds / 86400)
  let second := (seconds % 86400).toNat
  let millis := (nanoseconds % 1000000000).toNat / 1000000
  s!"{padded 4 year.toNat}-{padded 2 month}-{padded 2 day}T" ++
    s!"{padded 2 (second / 3600)}:{padded 2 (second / 60 % 60)}:{padded 2 (second % 60)}" ++
    s!".{padded 3 millis}Z"

end PlatterMachine.Timestamp
