/-!
# UTF-8

Texts as bytes, and what is wrong with bytes that are no text.
-/

namespace Alerting.Text.Utf8

def encode (s : String) : List UInt8 :=
  s.toUTF8.toList

def byteCount : List Char → Nat
  | [] => 0
  | c :: cs => c.utf8Size + byteCount cs

inductive Flaw where
  /-- Some bytes at a position cannot be part of a text. -/
  | invalid (length position : Nat)
  /-- The bytes end inside a character that starts at a position. -/
  | incomplete (position : Nat)
deriving DecidableEq, Repr, Inhabited

def Flaw.message : Flaw → String
  | invalid length position =>
    "invalid utf-8 sequence of " ++ toString length ++ " bytes from index " ++ toString position
  | incomplete position => "incomplete utf-8 byte sequence from index " ++ toString position

/-- The ranges of the bytes that follow a first byte, and `none` if no character starts with it. -/
def following (b : UInt8) : Option (List (UInt8 × UInt8)) :=
  let tail : UInt8 × UInt8 := (0x80, 0xBF)
  if b < 0x80 then some []
  else if b < 0xC2 then none
  else if b < 0xE0 then some [tail]
  else if b = 0xE0 then some [(0xA0, 0xBF), tail]
  else if b = 0xED then some [(0x80, 0x9F), tail]
  else if b < 0xF0 then some [tail, tail]
  else if b = 0xF0 then some [(0x90, 0xBF), tail, tail]
  else if b < 0xF4 then some [tail, tail, tail]
  else if b = 0xF4 then some [(0x80, 0x8F), tail, tail]
  else none

/-- The first flaw of bytes at a position, with the bytes that are owed to a character and the
number of those that it has. -/
def flawFrom : Nat → List (UInt8 × UInt8) → Nat → List UInt8 → Option Flaw
  | _, [], _, [] => none
  | position, _ :: _, had, [] => some (.incomplete (position - had))
  | position, (low, high) :: owed, had, b :: bs =>
    if low ≤ b && b ≤ high then flawFrom (position + 1) owed (had + 1) bs
    else some (.invalid had (position - had))
  | position, [], _, b :: bs =>
    match following b with
    | some owed => flawFrom (position + 1) owed 1 bs
    | none => some (.invalid 1 position)

def flaw? (bytes : List UInt8) : Option Flaw :=
  flawFrom 0 [] 0 bytes

/-- The bytes with those replaced that cannot be part of a text; the second argument bounds the
number of replacements. -/
def mend : Nat → List UInt8 → List UInt8
  | 0, bytes => bytes
  | fuel + 1, bytes =>
    match flaw? bytes with
    | none => bytes
    | some (.invalid length position) =>
      bytes.take position ++ replacement ++ mend fuel (bytes.drop (position + length))
    | some (.incomplete position) => bytes.take position ++ replacement
where
  /-- The bytes of the replacement character. -/
  replacement : List UInt8 := encode "\ufffd"

/-- The text that bytes are, with a replacement character wherever they are none. -/
def decodeLossy (bytes : List UInt8) : String :=
  (String.fromUTF8? ⟨(mend bytes.length bytes).toArray⟩).getD ""

def decode (bytes : List UInt8) : Except Flaw String :=
  match String.fromUTF8? ⟨bytes.toArray⟩ with
  | some s => .ok s
  | none => .error ((flaw? bytes).getD default)

end Alerting.Text.Utf8
