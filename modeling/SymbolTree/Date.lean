import SymbolTree.Decimal.Layout

/-!
# Dates

The date of a document: day of the week, date and time in universal time.
-/

namespace SymbolTree.Date

/-- A number with at least a given count of digits. -/
def padded (width n : Nat) : String :=
  let digits := Decimal.digitChars n
  String.ofList (List.replicate (width - digits.length) '0' ++ digits)

/-- Day, month and year of a day counted from the first of March of the year zero. The length of a
month follows a pattern when years start in March. -/
def civil (day : Nat) : Nat × Nat × Nat :=
  let era := day / 146097
  let dayOfEra := day % 146097
  let yearOfEra :=
    (dayOfEra - dayOfEra / 1460 + dayOfEra / 36524 - dayOfEra / 146096) / 365
  let dayOfYear := dayOfEra - (365 * yearOfEra + yearOfEra / 4 - yearOfEra / 100)
  let shifted := (5 * dayOfYear + 2) / 153
  let dayOfMonth := dayOfYear - (153 * shifted + 2) / 5 + 1
  let month := if shifted < 10 then shifted + 3 else shifted - 9
  (dayOfMonth, month, era * 400 + yearOfEra + if month ≤ 2 then 1 else 0)

/-- Names of the days, from the day of the week on which 1970 began. -/
def weekdays : List String := ["Thu", "Fri", "Sat", "Sun", "Mon", "Tue", "Wed"]

/-- Names of the months. -/
def months : List String :=
  ["Jan", "Feb", "Mar", "Apr", "May", "Jun", "Jul", "Aug", "Sep", "Oct", "Nov", "Dec"]

/-- The date of a moment, given in seconds since the beginning of 1970. -/
def ofUnixSeconds (seconds : Nat) : String :=
  let days := seconds / 86400
  let second := seconds % 86400
  let (day, month, year) := civil (days + 719468)
  weekdays.getD (days % 7) "" ++ ", " ++ padded 2 day ++ " " ++ months.getD (month - 1) "" ++ " "
    ++ padded 4 year ++ " " ++ padded 2 (second / 3600) ++ ":" ++ padded 2 (second / 60 % 60) ++ ":"
    ++ padded 2 (second % 60) ++ " GMT"

end SymbolTree.Date
