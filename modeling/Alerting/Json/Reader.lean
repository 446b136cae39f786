import Alerting.Json.Document
/-!
# Typed reading

Readers turn documents into values of the domain.  A reader walks its document in the order of the
text and stops at the first halt or the first part of the wrong shape.

A document may be read as it comes from the text, or after it has been kept aside whole, which
happens below a tagged or an untagged choice.  The two differ only in small ways, listed at
`Source`.  A wrong shape that is noticed late has no place of its own: it is found where the array
or object around it has been left.
-/

namespace Alerting.Json

inductive Source where
  /-- Straight from the text: a keyword of the wrong kind and a surplus item make the text
  malformed. -/
  | text
  /-- From a part that was kept aside as a whole and holds no halt: only its shape can be wrong, and
  a tag may be given by its number. -/
  | kept
  /-- From a value that is at hand. -/
  | value
deriving DecidableEq

abbrev Reader (α : Type) := Source → Document → Except Halt α

/-- Stops at a cause whose place is not known yet. -/
def stop {α : Type} (cause : Cause) : Except Halt α :=
  .error ⟨cause, none⟩

/-- Stops at a cause that shows at this text. -/
def stopAt {α : Type} (cause : Cause) (rest : List Char) : Except Halt α :=
  .error ⟨cause, some ⟨rest, 0⟩⟩

namespace Document

def mismatch {α : Type} (wanted : String) : Document → Except Halt α
  | .bad _ halt _ => .error halt
  | .scalar _ after s => stopAt (.unexpected (.scalar s) wanted) after
  | .array start _ _ => stopAt (.unexpected .array wanted) start
  | .object start _ _ => stopAt (.unexpected .object wanted) start
  | .tooDeep (.array start _ _) => stopAt (.unexpected .array wanted) start
  | .tooDeep inner => stopAt (.unexpected .object wanted) inner.start

def nestingHalt {α : Type} (d : Document) : Except Halt α :=
  .error (.atNext .tooDeep d.start)

end Document

namespace Reader

open Document

def json : Reader Json := fun _ d => d.value

def string : Reader String
  | _, .scalar _ _ (.string s) => .ok s
  | _, d => d.mismatch "a string"

def bool : Reader Bool
  | _, .scalar _ _ (.bool b) => .ok b
  | _, d => d.mismatch "a boolean"

/-- An integer literal from zero up to below the bound; the title says what kind of integer it
is. -/
def natural (title : String) (bound : Nat) : Reader Nat
  | _, .scalar _ after (.number (.int n)) =>
    if 0 ≤ n ∧ n < bound then .ok n.toNat
    else stopAt (.useless (.scalar (.number (.int n))) title) after
  | _, d => d.mismatch title

def optional {α : Type} (read : Reader α) : Reader (Option α)
  | _, .scalar _ _ .null => .ok none
  | source, d => (read source d).map some

/-- The result for an item of an array; a halt without a place is found where the array is left. -/
def inArray {α : Type} (d : Document) (result : Except Halt α) : Except Halt α :=
  result.mapError (·.within (leftAfter (closeArray d.after)))

/-- The result for a field of an object; a halt without a place is found where the object is left,
after this text. -/
def inObject {α : Type} (after : List Char) (result : Except Halt α) : Except Halt α :=
  result.mapError (·.within (leftAfter (closeObject after)))

def list {α : Type} (read : Reader α) : Reader (List α)
  | source, .array _ items ending => do
    ending.seal (← items.mapM fun d => inArray d (read source d))
  | _, .tooDeep (.array start items ending) => nestingHalt (.array start items ending)
  | _, d => d.mismatch "a sequence"

def named {α : Type} (read : Reader α) : Reader (List (String × α))
  | source, .object _ fields ending => do
    let entries ← fields.mapM fun (key, d) => do
      return (← key.name, ← inObject d.after (read source d))
    ending.seal entries
  | _, .tooDeep (.object start fields ending) => nestingHalt (.object start fields ending)
  | _, d => d.mismatch "a map"

def refine {α β : Type} (read : Reader α) (test : α → Except String β) : Reader β
  | source, d => do
  match test (← read source d) with
  | .ok b => return b
  | .error message => stop (.refused message)

/-- Reads a part after keeping it aside: its halts come before anything that is wrong in its
shape. -/
def keep {α : Type} (read : Reader α) : Reader α := fun source d => do
  if source = .text then discard d.value
  (read .kept d).mapError Halt.unplaced

def firstOf {α : Type} (title : String) (readers : List (Reader α)) : Reader α :=
  keep fun source d =>
    match readers.findSome? fun read => (read source d).toOption with
    | some a => .ok a
    | none => stop (.noChoice title)

/-! ## Keywords -/

def nameTitle : String := "variant identifier"

/-- What follows a keyword that is the only key of an object: null, or once it was kept aside also
an object without fields. -/
def unit : Reader Unit
  | _, .scalar _ _ .null => .ok ()
  | .kept, .object _ [] _ => .ok ()
  | _, d => d.mismatch "unit"

def word {α : Type} (table : List (String × α)) (s : String) : Except Halt α :=
  match table.lookup s with
  | some a => .ok a
  | none => stop (.unknownKeyword s (table.map (·.1)))

private def closeLone {α : Type} (a : α) (cs : List Char) : Except Halt α :=
  match cs.dropWhile isSpace with
  | [] => .error (.atFlaw .endInObject [])
  | '}' :: _ => .ok a
  | rest => .error (.atFlaw .noValue rest)

private def lone {α : Type} (table : List (String × α)) (source : Source) (key : Key) (d : Document)
    (isAlone : Bool) : Except Halt α := do
  if source ≠ .text && !isAlone then stop (.useless .object "map with a single key")
  let a ← (word table (← key.name)).mapError (·.within key.after)
  unit source d
  if source = .text then closeLone a d.after else return a

/-- One of several keywords, as a string or as the only key of an object that holds null. -/
def keyword {α : Type} (table : List (String × α)) : Reader α
  | _, .scalar _ after (.string s) => (word table s).mapError (·.within after)
  | source, .object _ ((key, d) :: surplus) _ => lone table source key d surplus.isEmpty
  | .text, .object start [] _ => (scan start.tail).found.mismatch nameTitle
  | .text, .tooDeep (.object start items ending) => nestingHalt (.object start items ending)
  | .text, .bad start halt _ =>
    if start.isEmpty || start.head? = some '"' then .error halt else .error (.atNext .noValue start)
  | .text, d => .error (.atNext .noValue d.start)
  | _, .object _ [] _ => stop (.useless .object "map with a single key")
  | _, d => d.mismatch "string or map"

/-! ## Records -/

/-- A field of a record: its name, and how a document in its place changes the record. -/
structure Field (σ : Type) where
  name : String
  /-- A record without this field has the wrong shape. -/
  required : Bool
  fill : Source → Document → σ → Except Halt σ

def Field.optional {α σ : Type} (name : String) (read : Reader α) (set : α → σ → σ) : Field σ :=
  ⟨name, false, fun source d r => return set (← read source d) r⟩

def Field.mandatory {α σ : Type} (name : String) (read : Reader α) (set : α → σ → σ) : Field σ :=
  ⟨name, true, fun source d r => return set (← read source d) r⟩

/-- Fills a record from the fields of an object.  A field may occur once; unknown ones are passed
over if the record is open. -/
def fillNamed {σ : Type} (fields : List (Field σ)) (isOpen : Bool) (source : Source) :
    List (Key × Document) → List String → σ → Except Halt (List String × σ)
  | [], seen, r => .ok (seen, r)
  | (key, d) :: rest, seen, r => do
    let name ← key.name
    match fields.find? (·.name = name) with
    | none =>
      if isOpen then d.skip
      else inObject key.after (stop (.unknownField name (fields.map (·.name))))
      fillNamed fields isOpen source rest seen r
    | some field =>
      if seen.contains name then inObject key.after (stop (.duplicateField name))
      else
        let r ← inObject d.after (field.fill source d r)
        fillNamed fields isOpen source rest (name :: seen) r

/-- Fills a record from the items of an array, in the order of its fields.  Gives the fields and the
items that are left over, and the text after the last item. -/
def fillListed {σ : Type} (source : Source) :
    List (Field σ) → List Document → List Char → σ →
      Except Halt (List (Field σ) × List Document × List Char × σ)
  | field :: fields, d :: ds, _, r => do
    let r ← inArray d (field.fill source d r)
    fillListed source fields ds d.after r
  | fields, ds, after, r => .ok (fields, ds, after, r)

def elements (n : Nat) : String :=
  if n = 1 then "1 element" else toString n ++ " elements"

def refuseSurplus (source : Source) (wanted : Nat) (surplus : List Document) (after : List Char) :
    Except Halt Unit :=
  match source with
  | .text => discard (closeArray after)
  | .kept =>
    if surplus.isEmpty then .ok ()
    else stop (.wrongLength (wanted + surplus.length) (elements wanted ++ " in sequence"))
  | .value =>
    if surplus.isEmpty then .ok ()
    else stop (.wrongLength (wanted + surplus.length) "fewer elements in array")

/-- A record, written as an object or as the array of its fields.  It starts out as `blank`; fields
that it does not have are passed over if it is open. -/
def record {σ : Type} (title : String) (fields : List (Field σ)) (blank : σ) (isOpen : Bool) :
    Reader σ
  | source, .object _ entries ending => do
    let (seen, r) ← fillNamed fields isOpen source entries [] blank
    let after ← ending.after
    match fields.find? fun field => field.required && !seen.contains field.name with
    | some field => stopAt (.missingField field.name) after
    | none => return r
  | source, .array start items ending => do
    let (missing, surplus, after, r) ← fillListed source fields items start.tail blank
    if missing.isEmpty then
      refuseSurplus source fields.length surplus after
      return r
    else
      let after ← ending.after
      match missing.findIdx? (·.required) with
      | some i =>
        stopAt (.wrongLength (items.length + i) (title ++ " with " ++ elements fields.length)) after
      | none => return r
  | _, .tooDeep inner => nestingHalt inner
  | _, d => d.mismatch title

/-! ## Tagged choices -/

abbrev Case (α : Type) := String × Reader α

/-- The case that a tag names, or counts from zero where the document was kept aside. -/
def chosen {α : Type} (cases : List (Case α)) : Source → Document → Except Halt (Reader α)
  | _, .scalar _ after (.string s) => (word cases s).mapError (·.within after)
  | .kept, .scalar start after (.number (.int n)) =>
    if n < 0 then (Document.scalar start after (.number (.int n))).mismatch nameTitle
    else match cases[n.toNat]? with
      | some (_, read) => .ok read
      | none =>
        let wanted := "variant index 0 <= i < " ++ toString cases.length
        stop (.useless (.scalar (.number (.int n))) wanted)
  | _, d => d.mismatch nameTitle

def splitTag {α : Type} (tag : String) (cases : List (Case α)) (source : Source) :
    List (Key × Document) → Option (Reader α) →
      Except Halt (Option (Reader α) × List (Key × Document))
  | [], found => .ok (found, [])
  | (key, d) :: rest, found => do
    if (← key.name) = tag then
      if found.isSome then inObject key.after (stop (.duplicateField tag))
      else
        let read ← chosen cases source d
        splitTag tag cases source rest (some read)
    else
      discard d.value
      let (found, others) ← splitTag tag cases source rest found
      return (found, (key, d) :: others)

/-- A choice by the tag in an object, or by the first item of an array. -/
def tagged {α : Type} (title tag : String) (cases : List (Case α)) : Reader α
  | source, .object start fields ending => do
    let (found, others) ← splitTag tag cases source fields none
    let after ← ending.after
    match found with
    | some read => (read .kept (.object start others (.closed after))).mapError Halt.unplaced
    | none => stopAt (.missingField tag) after
  | source, .array start items ending => do
    match items with
    | [] => stopAt (.missingField tag) (← ending.after)
    | first :: others =>
      let read ← chosen cases source first
      discard (Document.itemValues others)
      (read .kept (.array start others (.closed (← ending.after)))).mapError Halt.unplaced
  | _, .tooDeep inner => nestingHalt inner
  | _, d => d.mismatch title

/-- A case without content: an object whose other fields nobody reads, or an array with nothing
else. -/
def bare {α : Type} (title : String) (a : α) : Reader α
  | _, .object .. => .ok a
  | source, .array _ items _ => do
    refuseSurplus source 0 items []
    return a
  | _, d => d.mismatch title

/-! ## Texts -/

def expectEnd (rest : List Char) : Except Halt Unit :=
  match rest.dropWhile isSpace with
  | [] => .ok ()
  | rest => .error (.atNext .trailingText rest)

def ofText {α : Type} (read : Reader α) (text : String) : Except Fault α :=
  let scan := Document.scan text.toList
  let whole : Except Halt α := do
    let a ← read .text scan.found
    expectEnd (scan.rest.getD [])
    return a
  whole.mapError (Fault.inText text.toList)

def ofJson {α : Type} (read : Reader α) (j : Json) : Except Fault α :=
  (read .value (.ofJson j)).mapError fun h => ⟨h.cause, none⟩

end Reader

end Alerting.Json
