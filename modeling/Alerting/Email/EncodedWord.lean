import Alerting.Text.Base64
import Alerting.Text.Basic
import Alerting.Text.Utf8
/-!
# Encoded words

The header of a letter may hold words such as `=?utf-8?q?caf=C3=A9?=`, which mail programs show
decoded.  White space between two such words is not shown.
-/

namespace Alerting.Email.EncodedWord

open Text

private def hexValue? (c : Char) : Option Nat :=
  if c.isDigit then some (c.toNat - 48)
  else if 'a' ≤ c && c ≤ 'f' then some (c.toNat - 87)
  else if 'A' ≤ c && c ≤ 'F' then some (c.toNat - 55)
  else none

/-- The bytes of a quoted text: an underscore is a space, and an equals sign introduces the two
digits of a byte. -/
def quotedBytes : List Char → List UInt8
  | [] => []
  | '=' :: a :: b :: cs =>
    match hexValue? a, hexValue? b with
    | some x, some y => .ofNat (16 * x + y) :: quotedBytes cs
    | _, _ => 61 :: quotedBytes (a :: b :: cs)
  | c :: cs => (if c = '_' then [32] else Utf8.encode (String.singleton c)) ++ quotedBytes cs

def bytes? (coding : List Char) (text : List Char) : Option (List UInt8) :=
  match coding with
  | ['q'] | ['Q'] => some (quotedBytes text)
  | ['b'] | ['B'] => Base64.decode text
  | _ => none

private def splitAt? (mark : Char) : List Char → Option (List Char × List Char)
  | [] => none
  | c :: cs =>
    if c = mark then some ([], cs)
    else (splitAt? mark cs).map fun (before, after) => (c :: before, after)

def charsets : List String :=
  ["utf-8", "utf8", "unicode-1-1-utf-8"]

def decode? (inner : List Char) : Option String := do
  let (charset, rest) ← splitAt? '?' inner
  let (coding, text) ← splitAt? '?' rest
  let bytes ← bytes? coding text
  guard (charsets.contains (lower (String.ofList charset)))
  return Utf8.decodeLossy bytes

def isBoundary (c : Char) : Bool :=
  isBlank c || ['"', '(', ')', '<', '>', ','].contains c

def inner? : List Char → Option (List Char × List Char)
  | [] => none
  | c :: cs =>
    let more := (inner? cs).map fun (inner, rest) => (c :: inner, rest)
    match c, cs with
    | '?', '=' :: rest => if rest.head?.all isBoundary then some ([], rest) else more
    | _, _ => more

inductive Piece where
  | char (c : Char)
  | word (text : String)
deriving DecidableEq, Repr

/-- The parts of a header.  A word has to stand behind a boundary; the number counts the characters
of a word that are still to be passed over. -/
def piecesFrom : Nat → Bool → List Char → List Piece
  | _, _, [] => []
  | passed + 1, _, c :: cs => piecesFrom passed (isBoundary c) cs
  | 0, atBoundary, c :: cs =>
    let word : Option (String × Nat) :=
      match c, cs with
      | '=', '?' :: rest => do
        guard atBoundary
        let (inner, _) ← inner? rest
        return (← decode? inner, inner.length + 3)
      | _, _ => none
    match word with
    | some (text, length) => .word text :: piecesFrom length true cs
    | none => .char c :: piecesFrom 0 (isBoundary c) cs

/-- The text of the parts.  White space is held back until it is clear that it does not stand
between two words. -/
def join (afterWord : Bool) (held : List Char) : List Piece → List Char
  | [] => held
  | .word text :: rest => (if afterWord then [] else held) ++ text.toList ++ join true [] rest
  | .char c :: rest =>
    if isBlank c then join afterWord (held ++ [c]) rest else held ++ c :: join false [] rest

/-- The header as mail programs show it, without spaces in front. -/
def shown (header : String) : String :=
  String.ofList (join false [] (piecesFrom 0 true (header.toList.dropWhile (· = ' '))))

end Alerting.Email.EncodedWord
