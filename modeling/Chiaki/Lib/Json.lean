import Mathlib.Tactic

/-!
# JSON values

The bytes of a name or of a string are taken as they are.
-/

namespace Json

inductive Value where
  | null
  | bool (b : Bool)
  | int (n : Int)
  | double (literal : List UInt8)
  | string (bytes : List UInt8)
  | array (elements : List Value)
  | object (members : List (List UInt8 × Value))

/-- The value of a name. Only an object has one. -/
def Value.get (key : List UInt8) : Value → Option Value
  | .object members => members.lookup key
  | _ => none

end Json
