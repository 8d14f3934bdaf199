/-
  JSON values as the services read them.

  What `json.loads` returns is read with `get`, subscripts and loops without
  looking at its type first; on a value of another type these raise.

  * `Scalar` is what a row of a response holds, `JsonValue` what a reply or an
    artifact payload is made of;
  * `get`, `item`, `upper` and `iter` are the reading operations, with the
    exceptions that Python raises;
  * `dumps` is `json.dumps` with `ensure_ascii=False`.
-/
import RoboMeta.Artifact

namespace RoboMeta

/-- An exception: the name of its class and its text. -/
structure Exc where
  cls : String
  text : String
deriving DecidableEq, Repr

def PyError.exc : PyError → Exc
  | keyError key => ⟨"KeyError", (keyError key).str⟩
  | parseError message => ⟨"ParseError", message⟩
  | tokenError message => ⟨"TokenError", message⟩
  | validationError message => ⟨"ValidationError", message⟩

inductive Scalar where
  | null
  | bool (b : Bool)
  | int (n : ℤ)
  /-- A float as its `repr`. -/
  | float (text : String)
  | str (s : String)
deriving DecidableEq, Repr

inductive JsonValue where
  | scalar (s : Scalar)
  | arr (items : List JsonValue)
  | obj (items : List (String × JsonValue))

namespace JsonValue

@[match_pattern] def null : JsonValue := scalar .null

@[match_pattern] def bool (b : Bool) : JsonValue := scalar (.bool b)

@[match_pattern] def str (s : String) : JsonValue := scalar (.str s)

/-! ## Reading -/

/-- `type(v).__name__`. -/
def typeName : JsonValue → String
  | scalar .null => "NoneType"
  | scalar (.bool _) => "bool"
  | scalar (.int _) => "int"
  | scalar (.float _) => "float"
  | scalar (.str _) => "str"
  | arr _ => "list"
  | obj _ => "dict"

/-- `bool(v)`. -/
def truthy : JsonValue → Bool
  | scalar .null => false
  | scalar (.bool b) => b
  | scalar (.int n) => n != 0
  | scalar (.float text) => text != "0.0" && text != "-0.0"
  | scalar (.str s) => s != ""
  | arr items => !items.isEmpty
  | obj items => !items.isEmpty

/-- `v or w`. -/
def or (v w : JsonValue) : JsonValue := if v.truthy then v else w

/-- `v is None`. -/
def isNull : JsonValue → Bool
  | null => true
  | _ => false

/-- `v == s` for a string `s`. -/
def isStr (s : String) : JsonValue → Bool
  | str t => t == s
  | _ => false

/-- `v.get(k, default)`. -/
def getD (v : JsonValue) (k : String) (default : JsonValue) : Except Exc JsonValue :=
  match v with
  | obj items => .ok ((Dict.get? items k).getD default)
  | v => .error ⟨"AttributeError", "'" ++ v.typeName ++ "' object has no attribute 'get'"⟩

/-- `v.get(k)`. -/
def get (v : JsonValue) (k : String) : Except Exc JsonValue := v.getD k null

/-- `v[k]`. -/
def item (v : JsonValue) (k : String) : Except Exc JsonValue :=
  match v with
  | obj items => match Dict.get? items k with
    | some v => .ok v
    | none => .error (PyError.keyError k).exc
  | arr _ => .error ⟨"TypeError", "list indices must be integers or slices, not str"⟩
  | str _ => .error ⟨"TypeError", "string indices must be integers, not 'str'"⟩
  | v => .error ⟨"TypeError", "'" ++ v.typeName ++ "' object is not subscriptable"⟩

/-- `v.upper()`. -/
def upper (v : JsonValue) (U : Unicode) : Except Exc String :=
  match v with
  | str s => .ok (U.upper s)
  | v => .error ⟨"AttributeError", "'" ++ v.typeName ++ "' object has no attribute 'upper'"⟩

/-- What a `for` loop over `v` runs through. -/
def iter : JsonValue → Except Exc (List JsonValue)
  | arr items => .ok items
  | obj items => .ok (items.map fun entry => str entry.1)
  | str s => .ok (s.toList.map fun c => str (String.singleton c))
  | v => .error ⟨"TypeError", "'" ++ v.typeName ++ "' object is not iterable"⟩

/-- `str(v)`, the `repr` of a list or a dict being given. -/
def pyStr (repr : JsonValue → String) : JsonValue → String
  | scalar .null => "None"
  | scalar (.bool b) => if b then "True" else "False"
  | scalar (.int n) => toString n
  | scalar (.float text) => text
  | scalar (.str s) => s
  | v => repr v

end JsonValue

/-! ## Writing -/

/-- A character of a string literal. -/
def escapeChar (c : Char) : String :=
  if c = '"' then "\\\"" else if c = '\\' then "\\\\"
  else if c = '\n' then "\\n" else if c = '\r' then "\\r" else if c = '\t' then "\\t"
  else if c.toNat = 8 then "\\b" else if c.toNat = 12 then "\\f"
  else if c.toNat < 32 then
    (if c.toNat < 16 then "\\u000" else "\\u00") ++ String.ofList (Nat.toDigits 16 c.toNat)
  else String.singleton c

def Scalar.dumps : Scalar → String
  | null => "null"
  | bool b => if b then "true" else "false"
  | int n => toString n
  | float text =>
    if text = "nan" then "NaN" else if text = "inf" then "Infinity"
    else if text = "-inf" then "-Infinity" else text
  | str s => "\"" ++ String.join (s.toList.map escapeChar) ++ "\""

def dumps (row : List Scalar) : String := "[" ++ ", ".intercalate (row.map Scalar.dumps) ++ "]"

example : dumps [.int 3, .null, .str "a\"b"] = "[3, null, \"a\\\"b\"]" := by decide +kernel

end RoboMeta
