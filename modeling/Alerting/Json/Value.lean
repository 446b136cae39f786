import Alerting.Dict
/-!
# JSON values

A value keeps the kind of its numbers: an integer that fits 64 bits, signed or unsigned, stays an
integer, every other number is a float.  An object keeps the order of its fields.  `Json.ofFields`
puts them in the ascending order of their keys and lets the last of several equal keys win; every
object that is read from a text is made so, and therefore equal objects that are read are equal
values.
-/

namespace Alerting

inductive Json.Number where
  | int (n : Int)
  | float (x : Float)
deriving DecidableEq, Repr

inductive Json where
  | null
  | bool (b : Bool)
  | number (n : Json.Number)
  | string (s : String)
  | array (items : List Json)
  | object (fields : List (String × Json))
deriving Inhabited

namespace Json

def Number.toFloat : Number → Float
  | .int n => .ofInt n
  | .float x => x

def int (n : Int) : Json :=
  .number (.int n)

/-- A float as a value; JSON has no text for the infinities and NaN, which become null. -/
def ofFloat (x : Float) : Json :=
  if x.isFinite then .number (.float x) else .null

def ofString? (s : Option String) : Json :=
  s.elim .null .string

def ofStrings (l : List String) : Json :=
  .array (l.map .string)

/-- The object with these fields; of several with one name the last is kept. -/
def ofFields (fields : List (String × Json)) : Json :=
  .object (fields.foldl (fun sorted field => Dict.insertEntry field.1 field.2 sorted) [])

def get? (key : String) : Json → Option Json
  | .object fields => fields.lookup key
  | _ => none

def string? : Json → Option String
  | .string s => some s
  | _ => none

def array? : Json → Option (List Json)
  | .array items => some items
  | _ => none

mutual

/-- The value with every text in it changed; the names of fields stay. -/
def mapStrings (f : String → String) : Json → Json
  | .string s => .string (f s)
  | .array items => .array (mapItems f items)
  | .object fields => .object (mapFields f fields)
  | j => j

def mapItems (f : String → String) : List Json → List Json
  | [] => []
  | j :: js => mapStrings f j :: mapItems f js

def mapFields (f : String → String) : List (String × Json) → List (String × Json)
  | [] => []
  | (k, j) :: fs => (k, mapStrings f j) :: mapFields f fs

end

mutual

/-- Structural equality.  Floats are compared as numbers, so both zeros are equal. -/
def beq : Json → Json → Bool
  | .null, .null => true
  | .bool a, .bool b => a == b
  | .number (.int a), .number (.int b) => a == b
  | .number (.float a), .number (.float b) => a == b
  | .string a, .string b => a == b
  | .array a, .array b => beqItems a b
  | .object a, .object b => beqFields a b
  | _, _ => false

def beqItems : List Json → List Json → Bool
  | [], [] => true
  | a :: as, b :: bs => beq a b && beqItems as bs
  | _, _ => false

def beqFields : List (String × Json) → List (String × Json) → Bool
  | [], [] => true
  | (k, a) :: as, (l, b) :: bs => k == l && beq a b && beqFields as bs
  | _, _ => false

end

instance : BEq Json := ⟨beq⟩

end Json

end Alerting
