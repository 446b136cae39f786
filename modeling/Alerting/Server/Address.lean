import Alerting.Text.Basic
/-!
# Store addresses

The address of a store names a file: `sqlite://` and a path, and then what may be done with the
file.
-/

namespace Alerting.Server

structure StoreAddress where
  path : String
  /-- Whether the file is made if it is not there. -/
  isMade : Bool
deriving DecidableEq, Repr, Inhabited

namespace StoreAddress

def scheme : List Char := "sqlite:".toList

private def dropSlashes : List Char → List Char
  | '/' :: '/' :: cs => cs
  | cs => cs

def ofText? (text : String) : Option StoreAddress :=
  let cs := text.toList
  if scheme.isPrefixOf cs then
    let rest := dropSlashes (cs.drop scheme.length)
    let options := rest.dropWhile (· ≠ '?')
    some ⟨String.ofList (rest.takeWhile (· ≠ '?')), Text.mentions "mode=rwc".toList options⟩
  else none

end StoreAddress

end Alerting.Server
