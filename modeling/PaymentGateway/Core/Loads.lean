import PaymentGateway.Db.Statements
import PaymentGateway.Lib.JsonLoads

/-! # Documents

`json.loads` with the exceptions that it raises. `depth` is how deep the interpreter lets a document
be nested. -/

namespace PaymentGateway.Core.Loads

open PaymentGateway.Lib.Numerals PaymentGateway.Lib.JsonLoads PaymentGateway.Db.Statements

def exception : LoadsError → Exc
  | .unicodeDecode => .unicodeDecodeError
  | .jsonDecode => .jsonDecodeError
  | .value => .valueError
  | .recursion => .recursionError

/-- `json.loads(body)` -/
def loadsBody (depth : ℕ) (body : List UInt8) : Except Exc Json :=
  (loads depth body).mapError exception

/-- `json.loads(s)` -/
def loadsString (depth : ℕ) (s : String) : Except Exc Json :=
  (loadsText depth (text s)).mapError exception

/-- `value.get(name, default)`, which only an object has. -/
def getMember (value : Json) (name : String) (fallback : Json) : Except Exc Json :=
  match value with
  | .obj members => .ok ((member name members).getD fallback)
  | _ => .error .attributeError

end PaymentGateway.Core.Loads
