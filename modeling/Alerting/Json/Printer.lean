import Alerting.Json.Value
import Alerting.Numeric.Notation
/-!
# JSON text

The compact text of a value, and an indented one for people.  Characters beyond ASCII stand for
themselves; quotation marks, backslashes and control characters are escaped, the latter in lower
case hexadecimal where they have no letter of their own.
-/

namespace Alerting.Json

/-- Floats keep a fraction and are positional for leading exponents from -5 to 15. -/
def floatNotation : Numeric.Notation where
  plain := some (-5, 15)
  pointZero := true
  positiveMark := "e+"
  negativeMark := "e-"
  tie := .toEven
  nan := "null"
  infinity := "null"

def Number.text : Number → String
  | .int n => toString n
  | .float x => floatNotation.write x

def hexDigit (n : Nat) : Char :=
  if n < 10 then Char.ofNat (48 + n) else Char.ofNat (87 + n)

def escapeChar (c : Char) : List Char :=
  match c with
  | '"' => ['\\', '"']
  | '\\' => ['\\', '\\']
  | '\n' => ['\\', 'n']
  | '\r' => ['\\', 'r']
  | '\t' => ['\\', 't']
  | '\x08' => ['\\', 'b']
  | '\x0c' => ['\\', 'f']
  | _ =>
    if c.toNat < 0x20 then ['\\', 'u', '0', '0', hexDigit (c.toNat / 16), hexDigit (c.toNat % 16)]
    else [c]

def quote (s : String) : String :=
  String.ofList ('"' :: s.toList.flatMap escapeChar ++ ['"'])

mutual

def text : Json → String
  | .null => "null"
  | .bool true => "true"
  | .bool false => "false"
  | .number n => n.text
  | .string s => quote s
  | .array items => "[" ++ ",".intercalate (itemTexts items) ++ "]"
  | .object fields => "\x7b" ++ ",".intercalate (fieldTexts fields) ++ "\x7d"

def itemTexts : List Json → List String
  | [] => []
  | item :: rest => text item :: itemTexts rest

def fieldTexts : List (String × Json) → List String
  | [] => []
  | (key, value) :: rest => (quote key ++ ":" ++ text value) :: fieldTexts rest

end

/-! ## Indented text -/

def newLine (depth : Nat) : String :=
  "\n" ++ String.ofList (List.replicate (2 * depth) ' ')

/-- Parts on lines of their own between brackets; without parts the brackets stand together. -/
def bracketed (opening closing : String) (depth : Nat) (parts : List String) : String :=
  if parts.isEmpty then opening ++ closing
  else
    opening ++ newLine (depth + 1) ++ ("," ++ newLine (depth + 1)).intercalate parts
      ++ newLine depth ++ closing

mutual

def indented (depth : Nat) : Json → String
  | .array items => bracketed "[" "]" depth (indentedItems depth items)
  | .object fields => bracketed "\x7b" "\x7d" depth (indentedFields depth fields)
  | j => j.text

def indentedItems (depth : Nat) : List Json → List String
  | [] => []
  | item :: rest => indented (depth + 1) item :: indentedItems depth rest

def indentedFields (depth : Nat) : List (String × Json) → List String
  | [] => []
  | (key, value) :: rest =>
    (quote key ++ ": " ++ indented (depth + 1) value) :: indentedFields depth rest

end

end Alerting.Json
