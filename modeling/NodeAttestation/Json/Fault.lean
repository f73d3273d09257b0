import NodeAttestation.Json.Value
import NodeAttestation.Text.Quoted
import NodeAttestation.Time.Stamp

/-! Why a JSON text could not be read as a value of the wanted kind. -/

namespace NodeAttestation.Json

/-- What a text holds where something else was wanted. -/
inductive Found where
  | null
  | bool (value : Bool)
  | integer (value : Int)
  | double (value : Double)
  | text (value : String)
  | array
  | object
deriving DecidableEq

def Found.describe : Found → String
  | .null => "null"
  | .bool b => "boolean `" ++ String.ofList (boolText b) ++ "`"
  | .integer n => "integer `" ++ String.ofList (integerText n) ++ "`"
  | .double x => "floating point `" ++ String.ofList x.jsonText ++ "`"
  | .text s => "string " ++ Text.quote s
  | .array => "sequence"
  | .object => "map"

/-- A well-formed value that does not suit its place. -/
inductive Mismatch where
  | kind (found : Found) (wanted : String)
  | range (value : Int) (wanted : String)
  | tooShort (length : Nat) (record : String) (fields : Nat)
  | unknownName (name : String) (known : List String)
  | repeated (field : String)
  | missing (field : String)
  | stamp (fault : Stamp.Fault)
deriving DecidableEq

def ticked (name : String) : String := "`" ++ name ++ "`"

def Mismatch.message : Mismatch → String
  | .kind found wanted => "invalid type: " ++ found.describe ++ ", expected " ++ wanted
  | .range value wanted =>
    "invalid value: " ++ (Found.integer value).describe ++ ", expected " ++ wanted
  | .tooShort length record fields =>
    "invalid length " ++ toString length ++ ", expected struct " ++ record ++ " with " ++
      toString fields ++ (if fields == 1 then " element" else " elements")
  | .unknownName name known =>
    "unknown variant " ++ ticked name ++ ", expected one of " ++
      String.intercalate ", " (known.map ticked)
  | .repeated field => "duplicate field " ++ ticked field
  | .missing field => "missing field " ++ ticked field
  | .stamp fault => fault.message

inductive Fault where
  /-- The text ends inside a value. -/
  | unfinished
  /-- The text is not JSON. -/
  | malformed
  | unsuitable (mismatch : Mismatch)
deriving DecidableEq

end NodeAttestation.Json
