import Alerting.Text.Base64
import Alerting.Text.Basic
/-!
# Data addresses

An address such as `data:image/png;base64,aGVsbG8=` holds its content in itself.
-/

namespace Alerting.Text

structure Media where
  mime : String
  bytes : List UInt8
deriving DecidableEq, Repr, Inhabited

def defaultMime : String := "application/octet-stream"

def dropPrefixChars : List Char → List Char → Option (List Char)
  | [], cs => some cs
  | _ :: _, [] => none
  | p :: ps, c :: cs => if p = c then dropPrefixChars ps cs else none

def dropSuffixChars (suffix cs : List Char) : Option (List Char) :=
  (dropPrefixChars suffix.reverse cs.reverse).map List.reverse

def mediaOfUri? (uri : String) : Option Media := do
  let rest ← dropPrefixChars "data:".toList (trimChars uri.toList)
  if !rest.contains ',' then none
  let mime ← dropSuffixChars ";base64".toList (rest.takeWhile (· ≠ ','))
  let bytes ← Base64.decode (trimChars ((rest.dropWhile (· ≠ ',')).drop 1))
  return ⟨if mime.isEmpty then defaultMime else String.ofList mime, bytes⟩

end Alerting.Text
