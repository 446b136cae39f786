/-!
# Media types

What kind of content a part of a mail holds: a type and a subtype, with parameters.
-/

namespace Alerting.Email

structure MediaType where
  type : String
  subtype : String
deriving DecidableEq, Repr, Inhabited

namespace MediaType

inductive Flaw where
  | missingSlash
  | missingEqual
  | missingQuote
  /-- A byte that cannot stand at its position. -/
  | invalidToken (byte position : Nat)
deriving DecidableEq, Repr

private def hexText (n : Nat) : String :=
  String.ofList ((Nat.toDigits 16 n).map Char.toUpper)

def Flaw.message (flaw : Flaw) : String :=
  "mime parse error: " ++ match flaw with
    | missingSlash => "a slash (/) was missing between the type and subtype"
    | missingEqual => "an equals sign (=) was missing between a parameter and its value"
    | missingQuote => "a quote (\") was missing from a parameter value"
    | invalidToken byte position =>
      "an invalid token was encountered, " ++ hexText byte ++ " at position " ++ toString position

def isToken (b : UInt8) : Bool :=
  let c := Char.ofNat b.toNat
  b < 128 && (c.isAlphanum || "!#$%&'*+-.^_`|~".toList.contains c)

private def byte (c : Char) : UInt8 :=
  .ofNat c.toNat

private inductive Place where
  /-- Before the name of a parameter. -/
  | start
  | name
  /-- Right behind the equals sign. -/
  | value
  | plainValue
  | quotedValue (isEmpty : Bool)
  | afterValue

private def parameters : Place → Nat → List UInt8 → Except Flaw Unit
  | .start, _, [] => .ok ()
  | .name, _, [] => .error .missingEqual
  | .value, _, [] | .plainValue, _, [] | .afterValue, _, [] => .ok ()
  | .quotedValue _, _, [] => .error .missingQuote
  | place, position, b :: bs =>
    let wrong : Except Flaw Unit := .error (.invalidToken b.toNat position)
    let next (place : Place) := parameters place (position + 1) bs
    match place with
    | .start => if b = byte ' ' then next .start else if isToken b then next .name else wrong
    | .name => if isToken b then next .name else if b = byte '=' then next .value else wrong
    | .value =>
      if b = byte '"' then next (.quotedValue true)
      else if isToken b then next .plainValue else wrong
    | .plainValue =>
      if isToken b then next .plainValue else if b = byte ';' then next .start else wrong
    | .quotedValue isEmpty =>
      if b = byte '"' && !isEmpty then next .afterValue
      else if 31 < b && b ≠ 127 then next (.quotedValue false) else wrong
    | .afterValue =>
      if b = byte ';' then next .start else if b = byte ' ' then next .afterValue else wrong

private def subtypeEnd (length : Nat) : Nat → List UInt8 → Except Flaw (List UInt8)
  | _, [] => .ok []
  | position, b :: bs =>
    if isToken b then return b :: (← subtypeEnd length (position + 1) bs)
    else if b = byte ';' && length < position then do
      parameters .start (position + 1) bs
      return []
    else .error (.invalidToken b.toNat position)

private def typeEnd : Nat → List UInt8 → Except Flaw (List UInt8 × List UInt8)
  | _, [] => .error .missingSlash
  | position, b :: bs =>
    if isToken b then do
      let (type, rest) ← typeEnd (position + 1) bs
      return (b :: type, rest)
    else if b = byte '/' && 0 < position then return ([], bs)
    else .error (.invalidToken b.toNat position)

private def lowerText (bytes : List UInt8) : String :=
  String.ofList (bytes.map fun b => (Char.ofNat b.toNat).toLower)

/-- The media type that a text is, in lower case; parameters have to be well formed and are left
out. -/
def ofText (s : String) : Except Flaw MediaType :=
  if s = "*/*" then .ok ⟨"*", "*"⟩
  else do
    let (type, rest) ← typeEnd 0 s.toUTF8.toList
    let subtype ← subtypeEnd (type.length + 1) (type.length + 1) rest
    return ⟨lowerText type, lowerText subtype⟩

def text (m : MediaType) : String :=
  m.type ++ "/" ++ m.subtype

end MediaType

end Alerting.Email
