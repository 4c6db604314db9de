import EmbedUI.Decimal.Layout
import EmbedUI.Host.Clock

/-!
# Times as they are shown

A time of the wall clock is shown in the form of RFC 3339, in universal time: the date, a `T`, the
time of day with as many decimal places of the second as it takes, and a `Z`.
-/

namespace EmbedUI.Host

/-- A number filled up with zeros in front. -/
def padded (width n : Nat) : String :=
  let text := Decimal.integerText n
  String.ofList (List.replicate (width - text.length) '0') ++ text

/-- Year, month and day of the day that is so many days after the first of January 1970. Years are
counted from the first of March, so that the day that is not in every year comes last. -/
def calendarDay (days : Nat) : Nat × Nat × Nat :=
  let z := days + 719468
  let era := z / 146097
  let doe := z % 146097
  let yoe := (doe - doe / 1460 + doe / 36524 - doe / 146096) / 365
  let doy := doe - (365 * yoe + yoe / 4 - yoe / 100)
  let mp := (5 * doy + 2) / 153
  let day := doy - (153 * mp + 2) / 5 + 1
  let month := if mp < 10 then mp + 3 else mp - 9
  (yoe + 400 * era + (if month ≤ 2 then 1 else 0), month, day)

/-- The decimal places of a second, none when there is nothing but zeros. -/
def fractionText (nanos : Nat) : String :=
  let digits := ((padded 9 nanos).toList.reverse.dropWhile (· = '0')).reverse
  if digits.isEmpty then "" else String.ofList ('.' :: digits)

/-- The text of the time that is so many nanoseconds after the start of 1970. -/
def timeText (nanos : Nat) : String :=
  let seconds := nanos / nanosPerSecond
  let (year, month, day) := calendarDay (seconds / 86400)
  let second := seconds % 86400
  padded 4 year ++ "-" ++ padded 2 month ++ "-" ++ padded 2 day ++ "T"
    ++ padded 2 (second / 3600) ++ ":" ++ padded 2 (second / 60 % 60) ++ ":"
    ++ padded 2 (second % 60) ++ fractionText (nanos % nanosPerSecond) ++ "Z"

end EmbedUI.Host
