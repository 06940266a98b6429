import Croupier.Json.Basic
import Croupier.Numeral.Binary64
import Croupier.Numeral.Lenient

/-!
# Croupier.Json.Integer

The whole number a JSON value stands for: truth values are one and zero, numbers are cut towards
zero, strings are read leniently. The rest stands for none.
-/

namespace Croupier
namespace Json

/-- Why a value stands for no whole number. -/
inductive NotInteger where
  | badText (e : Numeral.Lenient.Fault)
  | notANumber
  | infinite
  | nothing
  | array
  | object
  deriving DecidableEq, Repr

def NotInteger.message : NotInteger → String
  | .badText e => e.message
  | .notANumber => "cannot convert float NaN to integer"
  | .infinite => "cannot convert float infinity to integer"
  | .nothing => wrongKind "NoneType"
  | .array => wrongKind "list"
  | .object => wrongKind "dict"
where
  wrongKind (kind : String) : String :=
    "int() argument must be a string, a bytes-like object or a real number, not '" ++ kind ++ "'"

def toInt : Json → Except NotInteger Int
  | .null => .error .nothing
  | .bool b => .ok (if b then 1 else 0)
  | .int n => .ok n
  | .real digits exponent =>
    match Numeral.Binary64.trunc digits exponent with
    | some n => .ok n
    | none => .error .infinite
  | .nan => .error .notANumber
  | .infinity _ => .error .infinite
  | .string s =>
    match Numeral.Lenient.toInt s with
    | .ok n => .ok n
    | .error e => .error (.badText e)
  | .array _ => .error .array
  | .object _ => .error .object

end Json
end Croupier
