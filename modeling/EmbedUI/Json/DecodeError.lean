import EmbedUI.Json.Basic
import EmbedUI.Text.Quoted

/-!
# Why a document does not fit

A decoder stops at the first problem it meets. The causes are told apart here; their wording is
`DecodeError.message`, and `DecodeError.category` says whether the document was no JSON at all or
JSON of another shape.
-/

namespace EmbedUI.Json

/-- What stood where something else was wanted. -/
inductive Found where
  | null
  | boolean (value : Bool)
  | number (value : Number)
  | string (value : String)
  | sequence
  | map

inductive DecodeError where
  /-- The text is broken here. -/
  | broken (fault : Fault)
  | missingField (name : String)
  | duplicateField (name : String)
  | wrongType (found : Found) (wanted : String)
  /-- An integer that does not fit the wanted width. -/
  | outOfRange (value : Int) (wanted : String)
  | unknownVariant (name : String) (known : List String)
  /-- A variant is named by a string, or by an object with the name as its only key. -/
  | notAName (found : Found)
  | notOneKey
  /-- A record given as an array of its fields has too few of them. -/
  | tooFewItems (given : Nat) (wanted : String)
  | tooManyItems (given : Nat)
  /-- As `tooManyItems`, when the array was set aside before it was decoded. -/
  | tooManyHeldItems (given wanted : Nat)
  /-- A value that may be written in several ways is in none of them. -/
  | noAlternative (name : String)
  /-- The data of a widget does not fit its kind. -/
  | inWidget (kind title : String) (cause : DecodeError)

/-- How a document fails to be read. -/
inductive Category where
  | malformed
  | truncated
  | mismatch
deriving DecidableEq, Repr

def Found.describe : Found → String
  | .null => "null"
  | .boolean true => "boolean `true`"
  | .boolean false => "boolean `false`"
  | .number (.integer n _) => "integer `" ++ Decimal.integerText n ++ "`"
  | .number (.real v _) => "floating point `" ++ Decimal.jsonLayout.render v ++ "`"
  | .string s => "string " ++ Text.quoted s
  | .sequence => "sequence"
  | .map => "map"

/-- The names that would have been right. -/
def expectedNames : List String → String
  | [] => "there are no variants"
  | [a] => "expected `" ++ a ++ "`"
  | [a, b] => "expected `" ++ a ++ "` or `" ++ b ++ "`"
  | names => "expected one of " ++ ", ".intercalate (names.map fun n => "`" ++ n ++ "`")

def DecodeError.message : DecodeError → String
  | .broken .malformed => "malformed JSON"
  | .broken .truncated => "unexpected end of JSON"
  | .missingField name => "missing field `" ++ name ++ "`"
  | .duplicateField name => "duplicate field `" ++ name ++ "`"
  | .wrongType found wanted => "invalid type: " ++ found.describe ++ ", expected " ++ wanted
  | .outOfRange n wanted =>
    "invalid value: integer `" ++ Decimal.integerText n ++ "`, expected " ++ wanted
  | .unknownVariant name known => "unknown variant `" ++ name ++ "`, " ++ expectedNames known
  | .notAName found => "invalid type: " ++ found.describe ++ ", expected string or map"
  | .notOneKey => "invalid value: map, expected map with a single key"
  | .tooFewItems given wanted =>
    "invalid length " ++ Decimal.integerText given ++ ", expected " ++ wanted
  | .tooManyItems given =>
    "invalid length " ++ Decimal.integerText given ++ ", expected fewer elements in array"
  | .tooManyHeldItems given wanted =>
    "invalid length " ++ Decimal.integerText given ++ ", expected " ++
      (if wanted = 1 then "1 element" else Decimal.integerText wanted ++ " elements") ++
      " in sequence"
  | .noAlternative name => "data did not match any variant of untagged enum " ++ name
  | .inWidget kind title cause => kind ++ " widget '" ++ title ++ "': " ++ cause.message

def Fault.category : Fault → Category
  | .malformed => .malformed
  | .truncated => .truncated

/-- Text that starts like no variant, names several, or goes on after the last field of a record is
malformed there and then; everything else is JSON of another shape. -/
def DecodeError.category : DecodeError → Category
  | .broken fault => fault.category
  | .notAName _ => .malformed
  | .notOneKey => .malformed
  | .tooManyItems _ => .malformed
  | _ => .mismatch

end EmbedUI.Json
