/-!
# Croupier.Json.Basic

JSON values. Numbers keep the form they were written in: a whole number is exact, a number with
a fraction or an exponent is `digits · 10 ^ exponent`, and there are the three spellings that
lie outside the standard, `NaN` and the two infinities.
-/

namespace Croupier

inductive Json where
  | null
  | bool (b : Bool)
  | int (n : Int)
  | real (digits : Int) (exponent : Int)
  | nan
  | infinity (negative : Bool)
  | string (s : String)
  | array (items : List Json)
  | object (fields : List (String × Json))

namespace Json

/-- The name of the type of a value. -/
def kind : Json → String
  | .null => "NoneType"
  | .bool _ => "bool"
  | .int _ => "int"
  | .real _ _ | .nan | .infinity _ => "float"
  | .string _ => "str"
  | .array _ => "list"
  | .object _ => "dict"

/-- The value under a key; of several fields with one key the last counts. -/
def get? (key : String) (fields : List (String × Json)) : Option Json :=
  (fields.reverse.find? fun field => field.1 == key).map (·.2)

/-- The keys in the order of their first appearance. -/
def keys (fields : List (String × Json)) : List String :=
  (fields.map (·.1)).eraseDups

end Json
end Croupier
