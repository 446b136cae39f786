import Alerting.Text.Basic
import Alerting.Text.Utf8
/-!
# Mail addresses

An address is a user at a domain.  A mailbox is an address that may come with a name, and is read
from a text such as `Ops Team <ops@example.com>`.
-/

namespace Alerting.Email

structure Address where
  user : String
  domain : String
deriving DecidableEq, Repr, Inhabited

structure Mailbox where
  name : Option String
  address : Address
deriving DecidableEq, Repr, Inhabited

inductive AddressError where
  | missingParts
  | invalidUser
  | invalidDomain
  /-- The text is no mailbox. -/
  | invalidInput
deriving DecidableEq, Repr

def AddressError.message : AddressError → String
  | missingParts => "Missing domain or user"
  | invalidUser => "Invalid email user"
  | invalidDomain => "Invalid email domain"
  | invalidInput => "Invalid input"

namespace Address

def text (a : Address) : String :=
  a.user ++ "@" ++ a.domain

/-! ## Characters -/

/-- Whether the character may stand in an atom: letters, digits, some signs and all characters
beyond ASCII. -/
def isAtomChar (c : Char) : Bool :=
  c.isAlphanum || "!#$%&'*+-/=?^_`\x7b|\x7d~".toList.contains c || 0x80 ≤ c.toNat

def isAtom (cs : List Char) : Bool :=
  !cs.isEmpty && cs.all isAtomChar

def isDotAtom (cs : List Char) : Bool :=
  (cs.splitOn '.').all isAtom

def isQuotedContent : List Char → Bool
  | [] => true
  | '\\' :: c :: rest => 0x21 ≤ c.toNat && c.toNat ≤ 0x7E && isQuotedContent rest
  | ['\\'] => false
  | '"' :: _ => false
  | c :: rest =>
    (c = '\t' || 0x20 ≤ c.toNat && c.toNat ≠ 0x7F) && isQuotedContent rest

/-! ## Validity -/

/-- Whether the text can be the user of an address: a series of atoms or quoted content, of at most
64 bytes. -/
def isUser (s : String) : Bool :=
  let cs := s.toList
  s != "" && s.utf8ByteSize ≤ 64 &&
    if cs.head? = some '"' && cs.getLast? = some '"' then
      2 < cs.length && isQuotedContent (cs.drop 1).dropLast
    else isDotAtom cs

/-- Whether the text can be a label of a domain: an atom of at most 63 bytes between letters or
digits. -/
def isLabel (cs : List Char) : Bool :=
  let isOuter (c : Option Char) := c.any fun c => c.isAlphanum || 0x80 ≤ c.toNat
  isOuter cs.head? && isOuter cs.getLast? && Text.Utf8.byteCount cs ≤ 63 && isAtom cs

def isLiteralContent (cs : List Char) : Bool :=
  cs.all fun c => 0x21 ≤ c.toNat && c.toNat ≠ 0x7F && !"[\\]".toList.contains c

/-- Whether the text can be the domain of an address: labels with points between them, or a literal
in brackets, of at most 254 bytes. -/
def isDomain (s : String) : Bool :=
  let cs := s.toList
  s != "" && s.utf8ByteSize ≤ 254 &&
    if cs.head? = some '[' && cs.getLast? = some ']' then isLiteralContent (cs.drop 1).dropLast
    else (cs.splitOn '.').all isLabel

def ofParts (user domain : String) : Except AddressError Address :=
  if !isUser user then .error .invalidUser
  else if !isDomain domain then .error .invalidDomain
  else .ok ⟨user, domain⟩

/-- The address that a text is; the last `@` ends the user. -/
def ofText (s : String) : Except AddressError Address :=
  let reversed := s.toList.reverse
  if !reversed.contains '@' then .error .missingParts
  else
    let domain := reversed.takeWhile (· ≠ '@')
    let user := (reversed.dropWhile (· ≠ '@')).drop 1
    ofParts (String.ofList user.reverse) (String.ofList domain.reverse)

end Address

namespace Mailbox

open Address Text

/-! ## Reading -/

private def isGap (c : Char) : Bool :=
  c = ' ' || c = '\t'

/-- Takes a gap, of which the first character counts. -/
private def gap (cs : List Char) : List Char × List Char :=
  ((cs.takeWhile isGap).take 1, cs.dropWhile isGap)

private def atom? (cs : List Char) : Option (List Char × List Char) :=
  let (blank, cs) := gap cs
  let found := cs.takeWhile isAtomChar
  if found.isEmpty then none else some (blank ++ found, cs.drop found.length)

private def quotedRest : List Char → Option (List Char × List Char)
  | [] => none
  | '"' :: rest => some ([], rest)
  | '\\' :: c :: rest =>
    if c = '\n' || c = '\r' || c = '\x00' then none
    else (quotedRest rest).map fun (found, rest) => (c :: found, rest)
  | c :: rest =>
    if c = '\n' || c = '\r' || c = '\x00' then none
    else (quotedRest rest).map fun (found, rest) => (c :: found, rest)

/-- Gaps inside quoted text count as their first character, and not at all at its end. -/
private def narrowGaps : Bool → List Char → List Char
  | _, [] => []
  | inGap, c :: cs =>
    if isGap c then
      if inGap || cs.all isGap then narrowGaps true cs else c :: narrowGaps true cs
    else c :: narrowGaps false cs

private def quoted? : List Char → Option (List Char × List Char)
  | '"' :: cs => (quotedRest cs).map fun (found, rest) => (narrowGaps false found, rest)
  | _ => none

private def word? (cs : List Char) : Option (List Char × List Char) :=
  quoted? cs <|> atom? cs

/-- Words and points after the first word of a name; the first argument bounds their number. -/
private def moreWords : Nat → List Char → List Char × List Char
  | 0, cs => ([], cs)
  | fuel + 1, cs =>
    match word? cs, cs with
    | some (found, rest), _ =>
      let (more, rest) := moreWords fuel rest
      (found ++ more, rest)
    | none, '.' :: rest =>
      let (more, rest) := moreWords fuel rest
      ('.' :: more, rest)
    | none, cs => ([], cs)

private def name? (cs : List Char) : Option (List Char × List Char) := do
  let (found, rest) ← word? cs
  let (more, rest) := moreWords rest.length rest
  return (found ++ more, rest)

private def moreAtoms : List Char → List Char × List Char
  | '.' :: c :: rest =>
    if isAtomChar c then
      let (found, rest) := moreAtoms (c :: rest)
      ('.' :: found, rest)
    else ([], '.' :: c :: rest)
  | c :: rest =>
    if isAtomChar c then
      let (found, rest) := moreAtoms rest
      (c :: found, rest)
    else ([], c :: rest)
  | [] => ([], [])
termination_by cs => cs.length

private def dotAtom? (cs : List Char) : Option (List Char × List Char) :=
  let (blank, cs) := gap cs
  if cs.head?.any isAtomChar then
    let (found, rest) := moreAtoms cs
    some (blank ++ found, rest)
  else none

private def spec? (cs : List Char) : Option ((List Char × List Char) × List Char) := do
  let (user, rest) ← dotAtom? cs <|> quoted? cs
  match rest with
  | '@' :: rest =>
    let (domain, rest) ← dotAtom? rest
    return ((user, domain), rest)
  | _ => none

private def angle? (cs : List Char) : Option ((List Char × List Char) × List Char) :=
  match dropBlank cs with
  | '<' :: cs => do
    let (found, rest) ← spec? cs
    match rest with
    | '>' :: rest => return (found, dropBlank rest)
    | _ => none
  | _ => none

private def parts? (cs : List Char) :
    Option ((Option (List Char) × (List Char × List Char)) × List Char) :=
  let named := do
    let (name, rest) ← name? cs
    let (found, rest) ← angle? rest
    return ((some name, found), rest)
  let unnamed := do
    let (found, rest) ← angle? cs
    return ((none, found), rest)
  let bare := do
    let (found, rest) ← spec? cs
    return ((none, found), rest)
  named <|> unnamed <|> bare

def ofText (s : String) : Except AddressError Mailbox := do
  match parts? (dropBlank s.toList) with
  | some ((name, user, domain), rest) =>
    if (dropBlank rest).isEmpty then
      return ⟨name.map String.ofList, ← Address.ofParts (String.ofList user) (String.ofList domain)⟩
    else .error .invalidInput
  | none => .error .invalidInput

/-! ## Writing -/

/-- Whether a name is shown between quotation marks: it is not one word of letters and digits, and
needs no encoding. -/
def needsQuotes (name : String) : Bool :=
  !name.toList.all Char.isAlphanum &&
    name.toList.all fun c => 0x20 ≤ c.toNat && c.toNat ≤ 0x7E && c ≠ ','

def shownName (name : String) : String :=
  if needsQuotes name then
    String.ofList ('"' :: name.toList.flatMap (fun c =>
      if c = '"' || c = '\\' then ['\\', c] else [c]) ++ ['"'])
  else name

def shown (m : Mailbox) : String :=
  match m.name with
  | some name => shownName name ++ " <" ++ m.address.text ++ ">"
  | none => m.address.text

end Mailbox

end Alerting.Email
