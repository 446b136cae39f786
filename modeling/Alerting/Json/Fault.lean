import Alerting.Json.Printer
import Alerting.Text.Basic
import Alerting.Text.Utf8
/-!
# Faults

Why a text or a value cannot be read as what was wanted, and where in the text that shows.  While a
text is read, a place in it is what is left of it there; lines and columns are counted once reading
has stopped.
-/

namespace Alerting.Json

inductive Scalar where
  | null
  | bool (b : Bool)
  | number (n : Number)
  | string (s : String)
deriving DecidableEq, Repr, Inhabited

def Scalar.value : Scalar → Json
  | null => .null
  | bool b => .bool b
  | number n => .number n
  | string s => .string s

/-- What a value is, as far as its outermost layer shows. -/
inductive Shape where
  | scalar (s : Scalar)
  | array
  | object
deriving DecidableEq, Repr, Inhabited

def Shape.text : Shape → String
  | scalar .null => "null"
  | scalar (.bool b) => "boolean `" ++ (Json.bool b).text ++ "`"
  | scalar (.number (.int n)) => "integer `" ++ toString n ++ "`"
  | scalar (.number (.float x)) => "floating point `" ++ (Number.float x).text ++ "`"
  | scalar (.string s) => "string " ++ Text.quoted s
  | array => "sequence"
  | object => "map"

/-! ## Causes -/

inductive Flaw where
  | endInValue
  | endInArray
  | endInObject
  | endInString
  | noColon
  | noArraySeparator
  | noObjectSeparator
  | badKeyword
  | noValue
  | badEscape
  | badNumber
  | numberRange
  | control
  | badKey
  | loneSurrogate
  | halfPair
  | trailingComma
  | trailingText
  | tooDeep
deriving DecidableEq, Repr, Inhabited

namespace Flaw

def isEnd : Flaw → Bool
  | endInValue | endInArray | endInObject | endInString => true
  | _ => false

def text : Flaw → String
  | endInValue => "EOF while parsing a value"
  | endInArray => "EOF while parsing a list"
  | endInObject => "EOF while parsing an object"
  | endInString => "EOF while parsing a string"
  | noColon => "expected `:`"
  | noArraySeparator => "expected `,` or `]`"
  | noObjectSeparator => "expected `,` or `\x7d`"
  | badKeyword => "expected ident"
  | noValue => "expected value"
  | badEscape => "invalid escape"
  | badNumber => "invalid number"
  | numberRange => "number out of range"
  | control => "control character (\\u0000-\\u001F) found while parsing a string"
  | badKey => "key must be a string"
  | loneSurrogate => "lone leading surrogate in hex escape"
  | halfPair => "unexpected end of hex escape"
  | trailingComma => "trailing comma"
  | trailingText => "trailing characters"
  | tooDeep => "recursion limit exceeded"

end Flaw

inductive Cause where
  | flaw (flaw : Flaw)
  /-- Something of another kind was wanted. -/
  | unexpected (found : Shape) (wanted : String)
  /-- The kind is right, but the value is of no use. -/
  | useless (found : Shape) (wanted : String)
  | wrongLength (length : Nat) (wanted : String)
  | unknownKeyword (keyword : String) (known : List String)
  | unknownField (name : String) (known : List String)
  | missingField (name : String)
  | duplicateField (name : String)
  /-- None of several readings fits. -/
  | noChoice (title : String)
  | refused (message : String)
deriving DecidableEq, Repr, Inhabited

namespace Cause

def choice (known : List String) : String :=
  let quoted := known.map fun word => "`" ++ word ++ "`"
  match quoted with
  | [] => ""
  | [a] => a
  | [a, b] => a ++ " or " ++ b
  | _ => "one of " ++ ", ".intercalate quoted

def text : Cause → String
  | flaw f => f.text
  | unexpected found wanted => "invalid type: " ++ found.text ++ ", expected " ++ wanted
  | useless found wanted => "invalid value: " ++ found.text ++ ", expected " ++ wanted
  | wrongLength length wanted => "invalid length " ++ toString length ++ ", expected " ++ wanted
  | unknownKeyword keyword known => "unknown variant `" ++ keyword ++ "`, expected " ++ choice known
  | unknownField name known => "unknown field `" ++ name ++ "`, expected " ++ choice known
  | missingField name => "missing field `" ++ name ++ "`"
  | duplicateField name => "duplicate field `" ++ name ++ "`"
  | noChoice title => "data did not match any variant of untagged enum " ++ title
  | refused message => message

/-- The text is not well formed, the text ends too early, or the text is well formed and has the
wrong shape. -/
inductive Kind where
  | malformed
  | unfinished
  | shape
deriving DecidableEq, Repr, Inhabited

def kind : Cause → Kind
  | flaw f => if f.isEnd then .unfinished else .malformed
  | _ => .shape

end Cause

/-! ## Places -/

/-- A place in a text: what is left of the text, and how many bytes of that have been looked at. -/
structure Place where
  rest : List Char
  seen : Nat := 0
deriving DecidableEq, Repr, Inhabited

structure Position where
  line : Nat
  /-- The number of bytes in front of the place on its line. -/
  column : Nat
deriving DecidableEq, Repr, Inhabited

def Position.advance : Nat → List Char → Position → Position
  | 0, _, p => p
  | _, [], p => p
  | n, c :: cs, p =>
    if c = '\n' then advance (n - 1) cs ⟨p.line + 1, 0⟩
    else advance (n - c.utf8Size) cs ⟨p.line, p.column + min n c.utf8Size⟩

def Place.position (text : List Char) (p : Place) : Position :=
  let left := Text.Utf8.byteCount p.rest
  Position.advance (Text.Utf8.byteCount text - left + min p.seen left) text ⟨1, 0⟩

/-! ## Faults -/

/-- Why reading stops, and where if that is known yet. -/
structure Halt where
  cause : Cause
  place : Option Place := none
deriving DecidableEq, Repr, Inhabited

namespace Halt

/-- Stops at a flaw: the rest of the text, and how many bytes of it show the flaw. -/
def atFlaw (flaw : Flaw) (rest : List Char) (seen : Nat := 0) : Halt :=
  ⟨.flaw flaw, some ⟨rest, seen⟩⟩

/-- Stops at a flaw in the next character, or at the end of the text. -/
def atNext (flaw : Flaw) (rest : List Char) : Halt :=
  atFlaw flaw rest 1

/-- The halt at a place, unless it has one. -/
def within (h : Halt) (rest : List Char) : Halt :=
  { h with place := h.place <|> some ⟨rest, 0⟩ }

def unplaced (h : Halt) : Halt :=
  { h with place := none }

end Halt

structure Fault where
  cause : Cause
  /-- The position in the text, if it is a text that was read. -/
  position : Option Position
deriving DecidableEq, Repr, Inhabited

namespace Fault

def inText (text : List Char) (h : Halt) : Fault :=
  ⟨h.cause, h.place.map (·.position text)⟩

def kind (f : Fault) : Cause.Kind :=
  f.cause.kind

def message (f : Fault) : String :=
  match f.position with
  | none => f.cause.text
  | some p => f.cause.text ++ " at line " ++ toString p.line ++ " column " ++ toString p.column

end Fault

end Alerting.Json
