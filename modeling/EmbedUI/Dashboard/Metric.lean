import EmbedUI.Text.Blank
import EmbedUI.Json.Record

/-!
# Metric values

A metric is shown as text: `1,234`, `$45,678`, `42 users`. Where a number is needed, the integer at
the front of the text is read; thousands separators do not count, and text that does not begin with
an integer counts as zero.

On the wire a metric value may be a number; it is kept as the text of that number.
-/

namespace EmbedUI.Dashboard.Metric

/-- The sign at the front of a text, and what follows it. -/
def splitSign : List Char → Bool × List Char
  | '-' :: rest => (true, rest)
  | '+' :: rest => (false, rest)
  | cs => (false, cs)

/-- The sign and the digits that a metric text begins with. -/
def leadingInteger (s : String) : Bool × List Char :=
  let (negative, rest) := splitSign ((Text.trimmed s.toList).filter (· ≠ ','))
  (negative, rest.takeWhile Char.isDigit)

/-- The number that a metric text stands for. A minus sign without digits does not count, but one
before a zero does. -/
def amount (s : String) : Float :=
  match leadingInteger s with
  | (_, []) => 0.0
  | (negative, ds) =>
    let size := Float.ofNat (Text.naturalOf ds)
    if negative then -1.0 * size else size

/-- A string, or a number in the text it has in JSON. -/
def decodeText {ε : Type} [Json.Source ε] : Json.Decoder ε String := fun t => do
  match ← Json.hold t with
  | .str s => return s
  | .num n => return n.toText
  | _ => throw (.noAlternative "StringOrNumber")

end EmbedUI.Dashboard.Metric
