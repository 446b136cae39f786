/-!
# Base 64

Bytes as text: three bytes make four letters, and the last group is padded.  Decoding is strict, so
a text is the encoding of at most one sequence of bytes.  The report on a text that does not decode
says where its first flaw is, in bytes.
-/

namespace Alerting.Text.Base64

def letter (n : Nat) : Char :=
  if n < 26 then Char.ofNat (65 + n)
  else if n < 52 then Char.ofNat (97 + (n - 26))
  else if n < 62 then Char.ofNat (48 + (n - 52))
  else if n = 62 then '+' else '/'

def value? (c : Char) : Option Nat :=
  if 'A' ≤ c && c ≤ 'Z' then some (c.toNat - 65)
  else if 'a' ≤ c && c ≤ 'z' then some (c.toNat - 97 + 26)
  else if '0' ≤ c && c ≤ '9' then some (c.toNat - 48 + 52)
  else if c = '+' then some 62
  else if c = '/' then some 63
  else none

def encode : List UInt8 → List Char
  | [] => []
  | [a] => [letter (a.toNat / 4), letter (a.toNat % 4 * 16), '=', '=']
  | [a, b] =>
    [letter (a.toNat / 4), letter (a.toNat % 4 * 16 + b.toNat / 16), letter (b.toNat % 16 * 4), '=']
  | a :: b :: c :: rest =>
    letter (a.toNat / 4) :: letter (a.toNat % 4 * 16 + b.toNat / 16)
      :: letter (b.toNat % 16 * 4 + c.toNat / 64) :: letter (c.toNat % 64) :: encode rest

def encodeText (bytes : List UInt8) : String :=
  String.ofList (encode bytes)

/-- The bytes of a text.  The padding has to be there, and the bits that it leaves over have to be
zero. -/
def decode : List Char → Option (List UInt8)
  | [] => some []
  | [a, b, '=', '='] => do
    let x ← value? a
    let y ← value? b
    if y % 16 = 0 then some [.ofNat (x * 4 + y / 16)] else none
  | [a, b, c, '='] => do
    let x ← value? a
    let y ← value? b
    let z ← value? c
    if z % 4 = 0 then some [.ofNat (x * 4 + y / 16), .ofNat (y % 16 * 16 + z / 4)] else none
  | a :: b :: c :: d :: rest => do
    let x ← value? a
    let y ← value? b
    let z ← value? c
    let w ← value? d
    let bytes ← decode rest
    some (.ofNat (x * 4 + y / 16) :: .ofNat (y % 16 * 16 + z / 4) :: .ofNat (z % 4 * 64 + w)
      :: bytes)
  | _ => none

/-! ## Flaws -/

inductive Flaw where
  | symbol (byte : UInt8) (position : Nat)
  | length (n : Nat)
  | lastSymbol (byte : UInt8) (position : Nat)
  | padding
deriving DecidableEq, Repr, Inhabited

def Flaw.message : Flaw → String
  | symbol byte position =>
    "Invalid symbol " ++ toString byte.toNat ++ ", offset " ++ toString position ++ "."
  | length n => "Invalid input length: " ++ toString n
  | lastSymbol byte position =>
    "Invalid last symbol " ++ toString byte.toNat ++ ", offset " ++ toString position ++ "."
  | padding => "Invalid padding"

private def padByte : UInt8 := 61

private def isLetter (b : UInt8) : Bool :=
  b < 128 && (value? (Char.ofNat b.toNat)).isSome

/-- The flaw of the last group, whose first byte is at a position: padding stands behind two or
three letters, and every other byte is a letter. -/
private def lastFlaw (position : Nat) (group : List UInt8) : Flaw :=
  let letters := group.takeWhile isLetter
  let rest := group.drop letters.length
  let padded := rest.takeWhile (· = padByte)
  match rest.drop padded.length with
  | b :: _ =>
    if padded.isEmpty then .symbol b (position + letters.length)
    else .symbol padByte (position + letters.length)
  | [] =>
    if !padded.isEmpty && letters.length < 2 then .symbol padByte (position + letters.length)
    else if letters.length < 2 then .length (position + letters.length)
    else if (letters.length + padded.length) % 4 ≠ 0 then .padding
    else .lastSymbol (letters.getLastD 0) (position + letters.length - 1)

def flaw (bytes : List UInt8) : Flaw :=
  let surplus := bytes.length % 4
  let last := bytes.getLastD 0
  if surplus = 1 && last != padByte && !isLetter last then .symbol last (bytes.length - 1)
  else
    let position := bytes.length - if surplus = 0 then 4 else surplus
    match (bytes.take position).zipIdx.find? fun (b, _) => !isLetter b with
    | some (b, i) => .symbol b i
    | none => lastFlaw position (bytes.drop position)

end Alerting.Text.Base64
