import Alerting.Dict
import Alerting.Text.Basic
/-!
# Templates

A template is a text with slots, such as the one that `slot "kpi"` writes; white space may stand
around the name in a slot.  Filling a template replaces each slot whose name is known by the text
under that name.  Texts that are put in are not looked at again, and slots with other names stay as
they are.
-/

namespace Alerting

abbrev Tokens := Dict String

namespace Template

open Text

def slot (name : String) : String :=
  "\x7b\x7b" ++ name ++ "\x7d\x7d"

def startsName (c : Char) : Bool :=
  c.isAlpha || c = '_'

def isNameChar (c : Char) : Bool :=
  c.isAlphanum || c = '_'

inductive Piece where
  | char (c : Char)
  /-- A slot, with the text that it is written as. -/
  | slot (name : String) (text : List Char)
deriving DecidableEq, Repr

def slotAt? : List Char → Option Piece
  | '{' :: '{' :: cs =>
    let before := cs.takeWhile isBlank
    let cs := cs.dropWhile isBlank
    let name := cs.takeWhile isNameChar
    let cs := cs.dropWhile isNameChar
    let after := cs.takeWhile isBlank
    match cs.dropWhile isBlank with
    | '}' :: '}' :: _ =>
      if name.head?.any startsName then
        some (.slot (String.ofList name) ('{' :: '{' :: before ++ name ++ after ++ ['}', '}']))
      else none
    | _ => none
  | _ => none

def Piece.text : Piece → List Char
  | char c => [c]
  | slot _ text => text

/-- The parts of a template; the first argument counts the characters of a slot that are still to be
passed over. -/
def piecesFrom : Nat → List Char → List Piece
  | _, [] => []
  | passed + 1, _ :: cs => piecesFrom passed cs
  | 0, c :: cs =>
    match slotAt? (c :: cs) with
    | some piece => piece :: piecesFrom (piece.text.length - 1) cs
    | none => .char c :: piecesFrom 0 cs

def pieces (template : String) : List Piece :=
  piecesFrom 0 template.toList

def Piece.fill (tokens : Tokens) : Piece → List Char
  | char c => [c]
  | slot name text =>
    match tokens.get? name with
    | some value => value.toList
    | none => text

def fill (template : String) (tokens : Tokens) : String :=
  String.ofList ((pieces template).flatMap (Piece.fill tokens))

end Template

end Alerting
