import ApiManifest.Json.Printer
import ApiManifest.Text.Quoted

/-!
Why a value cannot be read as what it should be, and how that is said.
-/

namespace ApiManifest

/-- What was found. -/
inductive Found where
  | null
  | bool (value : Bool)
  | int (value : Int)
  | float (value : Double)
  | string (text : String)
  | sequence
  | map
  | bareVariant
  deriving DecidableEq

namespace Found

def message : Found → String
  | .null => "null"
  | .bool true => "boolean \x60true\x60"
  | .bool false => "boolean \x60false\x60"
  | .int n => "integer \x60" ++ toString n ++ "\x60"
  | .float x => "floating point \x60" ++ Decimal.jsonText x ++ "\x60"
  | .string text => "string " ++ Text.quoted text
  | .sequence => "sequence"
  | .map => "map"
  | .bareVariant => "unit variant"

end Found

inductive DecodeError where
  | wrongType (found : Found) (expected : String)
  | wrongValue (found : Found) (expected : String)
  | wrongLength (length : Nat) (expected : String)
  | missingField (name : String)
  | repeatedField (name : String)
  | unknownVariant (name : String) (known : List String)
  /-- No key of a record names one of the variants that stand among its fields. -/
  | noVariant (choice : String)
  | labelNotScalar (key : String) (value : Json)
  | unexpectedTag (tag : String)
  /-- More collections inside each other than may be. -/
  | tooDeep
  /-- References followed more often than may be. -/
  | tooManyReferences
  deriving DecidableEq

namespace DecodeError

def ticked (name : String) : String :=
  "\x60" ++ name ++ "\x60"

def oneOf : List String → String
  | [] => "nothing"
  | [only] => ticked only
  | [first, second] => ticked first ++ " or " ++ ticked second
  | names => "one of " ++ ", ".intercalate (names.map ticked)

def message : DecodeError → String
  | .wrongType found expected => "invalid type: " ++ found.message ++ ", expected " ++ expected
  | .wrongValue found expected => "invalid value: " ++ found.message ++ ", expected " ++ expected
  | .wrongLength length expected =>
    "invalid length " ++ toString length ++ ", expected " ++ expected
  | .missingField name => "missing field " ++ ticked name
  | .repeatedField name => "duplicate field " ++ ticked name
  | .unknownVariant name known => "unknown variant " ++ ticked name ++ ", expected " ++ oneOf known
  | .noVariant choice => "no variant of enum " ++ choice ++ " found in flattened data"
  | .labelNotScalar key value =>
    "label " ++ key ++ " must have a scalar value, not " ++ value.compact
  | .unexpectedTag tag => "unexpected tag " ++ tag
  | .tooDeep => "too many collections inside each other"
  | .tooManyReferences => "too many references to anchors"

end DecodeError

end ApiManifest
