import LoadRamp.Number.Decimal

/-!
# Problems of data that does not fit

A document can be well formed and still not fit the data that is read from it.
`Problem` lists the ways, with one text for each.
-/

namespace LoadRamp

/-- Why well-formed data does not fit. -/
inductive Problem
  | unknownField (field : String) (known : List String)
  | missingField (field : String)
  | repeatedField (field : String)
  | wrongType (found wanted : String)
  | wrongValue (found wanted : String)
  | wrongLength (length : Nat) (wanted : String)
  | noVariant (wanted : String)
  deriving DecidableEq

namespace Problem

/-- A list of names in backticks. -/
def alternatives : List String → String
  | [a, b] => "`" ++ a ++ "` or `" ++ b ++ "`"
  | names => "one of " ++ ", ".intercalate (names.map fun name => "`" ++ name ++ "`")

def message : Problem → String
  | .unknownField field known =>
    "unknown field `" ++ field ++ "`, expected " ++ alternatives known
  | .missingField field => "missing field `" ++ field ++ "`"
  | .repeatedField field => "duplicate field `" ++ field ++ "`"
  | .wrongType found wanted => "invalid type: " ++ found ++ ", expected " ++ wanted
  | .wrongValue found wanted => "invalid value: " ++ found ++ ", expected " ++ wanted
  | .wrongLength length wanted =>
    "invalid length " ++ Number.Decimal.write length ++ ", expected " ++ wanted
  | .noVariant wanted => "data did not match any variant of untagged enum " ++ wanted

/-- The size that an array of fields should have. -/
def arrayTitle (title : String) (fields : Nat) : String :=
  "struct " ++ title ++ " with " ++ Number.Decimal.write fields ++ " elements"

end Problem
end LoadRamp
