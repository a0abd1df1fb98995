import AgentBridge.Base.Text

/-! UTC instants printed as RFC 3339 text with millisecond precision. -/

abbrev Timestamp := Text

namespace Timestamp

def padded (width n : Nat) : Text :=
  let digits := Text.decimal n
  List.replicate (width - digits.length) '0' ++ digits

/-- Year, month and day of a day count since 1970-01-01. -/
def civil (days : Nat) : Nat × Nat × Nat :=
  let z := days + 719468
  let era := z / 146097
  let doe := z % 146097
  let yoe := (doe - doe / 1460 + doe / 36524 - doe / 146096) / 365
  let doy := doe - (365 * yoe + yoe / 4 - yoe / 100)
  let mp := (5 * doy + 2) / 153
  let day := doy - (153 * mp + 2) / 5 + 1
  let month := if mp < 10 then mp + 3 else mp - 9
  (yoe + era * 400 + (if month ≤ 2 then 1 else 0), month, day)

/-- The timestamp of `millis` milliseconds since the epoch. A year beyond four digits
is printed with its sign. -/
def ofMillis (millis : Nat) : Timestamp :=
  let (year, month, day) := civil (millis / 86400000)
  let rest := millis % 86400000
  (if 9999 < year then "+".toList else []) ++ padded 4 year ++ "-".toList ++ padded 2 month ++ "-".toList ++
    padded 2 day ++ "T".toList ++
    padded 2 (rest / 3600000) ++ ":".toList ++ padded 2 (rest / 60000 % 60) ++ ":".toList ++
    padded 2 (rest / 1000 % 60) ++ ".".toList ++ padded 3 (rest % 1000) ++ "Z".toList

example : ofMillis 1783514096789 = "2026-07-08T12:34:56.789Z".toList := by decide

end Timestamp
