import EmbedUI.Component.Kind

/-!
# Rejected configurations

A configuration that makes no sense is rejected before any markup is written. A rejection names the
kind of component, the path of the offending part and what is wrong with it.
-/

namespace EmbedUI

/-- What is wrong with a configuration. -/
inductive Complaint where
  | blankFieldName
  | duplicateFieldName (name : String)
  | noOptions (name : String)
  | noValues
  | labelCount (values labels : Nat)
  | notFinite
  | negativeSlice
  | infiniteTotal
  | noTotal
  | noMarkup
deriving DecidableEq, Repr

structure Rejection where
  kind : ComponentKind
  path : String
  complaint : Complaint
deriving DecidableEq, Repr

def Complaint.message : Complaint → String
  | .blankFieldName => "field name must not be empty"
  | .duplicateFieldName name => "duplicate field name '" ++ name ++ "'"
  | .noOptions name => "select field '" ++ name ++ "' requires options"
  | .noValues => "chart requires at least one value"
  | .labelCount values labels =>
    "expected " ++ Decimal.integerText values ++ " labels to match values, got " ++
      Decimal.integerText labels
  | .notFinite => "value must be finite"
  | .negativeSlice => "pie values must not be negative"
  | .infiniteTotal => "pie values must have a finite sum"
  | .noTotal => "pie values must sum to more than 0"
  | .noMarkup => "custom component requires markup"

def Rejection.message (r : Rejection) : String :=
  "invalid " ++ r.kind.name ++ " config: " ++ r.path ++ ": " ++ r.complaint.message

end EmbedUI
