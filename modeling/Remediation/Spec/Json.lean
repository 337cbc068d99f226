import Remediation.Spec.Devin

/-!
# JSON values

What `json.loads` returns, as far as the code looks at it, and what SQLite stores of such a value when
it is bound to a parameter of a statement.
-/

namespace Remediation

/-- A string of Python: its code points, surrogates among them. -/
abbrev PyStr : Type := List ℕ

def pyStr (s : String) : PyStr := s.toList.map Char.toNat

/-- A float, by its value. -/
inductive PyFloat
  | finite (q : ℚ)
  | infinity (negative : Bool)
  | nan
  deriving DecidableEq

/-- What `json.loads` returns. -/
inductive Json
  | null
  | bool (b : Bool)
  | int (i : ℤ)
  | float (x : PyFloat)
  | str (s : PyStr)
  | list (elems : List Json)
  | dict (items : List (PyStr × Json))

namespace Json

/-- `type(x).__name__` -/
def typeName : Json → String
  | null => "NoneType"
  | bool _ => "bool"
  | int _ => "int"
  | float _ => "float"
  | str _ => "str"
  | list _ => "list"
  | dict _ => "dict"

/-- `bool(x)` -/
def truthy : Json → Bool
  | null => false
  | bool b => b
  | int i => i ≠ 0
  | float x => x ≠ .finite 0
  | str s => !s.isEmpty
  | list elems => !elems.isEmpty
  | dict items => !items.isEmpty

def text (s : String) : Json := .str (pyStr s)

/-- `x.get(key)`, nothing where the key is missing. -/
def get (key : String) : Json → Except Exc (Option Json)
  | dict items => .ok (items.lookup (pyStr key))
  | x => .error ⟨"AttributeError", s!"'{x.typeName}' object has no attribute 'get'"⟩

end Json

/-- A value that SQLite stores. -/
inductive SqlValue
  | null
  | integer (i : ℤ)
  | real (x : PyFloat)
  | text (s : PyStr)

/-- Bind a value to a parameter of a statement, given by its number. An integer has 64 bits, a NaN is
stored as NULL and a text as UTF-8; there is nothing that a list or a dictionary could be stored as. -/
def bindValue (param : ℕ) : Json → Except Exc SqlValue
  | .null => .ok .null
  | .bool b => .ok (.integer (if b then 1 else 0))
  | .int i =>
    if -2 ^ 63 ≤ i ∧ i < 2 ^ 63 then .ok (.integer i)
    else .error ⟨"OverflowError", "Python int too large to convert to SQLite INTEGER"⟩
  | .float .nan => .ok .null
  | .float x => .ok (.real x)
  | .str s =>
    if s.all fun c => decide c.isValidChar then .ok (.text s)
    else .error ⟨"UnicodeEncodeError", "surrogates not allowed"⟩
  | x =>
    .error ⟨"ProgrammingError",
      s!"Error binding parameter {param}: type '{x.typeName}' is not supported"⟩

end Remediation
