import Alerting.Json.Numeral
/-!
# JSON documents

What a text says, as far as it can be followed.  Reading a text never fails: where the text goes
wrong, the tree holds the halt at that place, so whoever walks the tree in the order of the text
meets either a value it cannot use or the halt, whichever comes first.  `Document.value` demands a
sound document; `Document.skip` passes over a part nobody asked for and is more lenient.
-/

namespace Alerting.Json

inductive Ending where
  /-- The closing bracket is there, and this follows it. -/
  | closed (after : List Char)
  /-- Reading stops at one halt, and passing over it at another. -/
  | broken (halt skipped : Halt)
deriving DecidableEq, Repr

def Ending.seal {α : Type} (result : α) : Ending → Except Halt α
  | .closed _ => .ok result
  | .broken halt _ => .error halt

def Ending.after : Ending → Except Halt (List Char)
  | .closed after => .ok after
  | .broken halt _ => .error halt

structure Key where
  /-- The name, unless half a surrogate pair keeps it from being a text. -/
  name : Except Halt String
  after : List Char

/-- A text as a tree, with the halts at their places.  Every part knows the text that starts with
it. -/
inductive Document where
  | scalar (start after : List Char) (s : Scalar)
  | array (start : List Char) (items : List Document) (ending : Ending)
  /-- An object with its fields in the order of the text. -/
  | object (start : List Char) (fields : List (Key × Document)) (ending : Ending)
  /-- An array or object that is nested too deep to be read. -/
  | tooDeep (inner : Document)
  /-- Something that has no value; passing over it stops too, unless it is only a text or a number
  without a value. -/
  | bad (start : List Char) (halt : Halt) (skipped : Option Halt)
deriving Inhabited

namespace Document

def maxDepth : Nat := 127

def isSpace (c : Char) : Bool :=
  c = ' ' || c = '\n' || c = '\t' || c = '\r'

def start : Document → List Char
  | scalar start _ _ => start
  | array start _ _ => start
  | object start _ _ => start
  | tooDeep inner => inner.start
  | bad start _ _ => start

def after : Document → List Char
  | scalar _ after _ => after
  | array _ _ (.closed after) => after
  | object _ _ (.closed after) => after
  | tooDeep inner => inner.after
  | _ => []

/-! ## Strings -/

/-- A piece of a quoted string: a character, or the 16-bit unit of a numeric escape with what
follows it. -/
inductive Piece where
  | char (c : Char)
  | unit (n : Nat) (after : List Char)

def hexDigit? (c : Char) : Option Nat :=
  if c.isDigit then some (c.toNat - 48)
  else if 'a' ≤ c && c ≤ 'f' then some (c.toNat - 87)
  else if 'A' ≤ c && c ≤ 'F' then some (c.toNat - 55)
  else none

def hexUnit? (a b c d : Char) : Option Nat := do
  return 4096 * (← hexDigit? a) + 256 * (← hexDigit? b) + 16 * (← hexDigit? c) + (← hexDigit? d)

/-- The halt at a numeric escape that is none; it takes four bytes, which longer characters fill
too. -/
def badUnit (cs : List Char) : Halt :=
  if Text.Utf8.byteCount cs < 4 then .atFlaw .endInString [] else .atFlaw .badEscape cs 4

def unescape? : Char → Option Char
  | '"' => some '"'
  | '\\' => some '\\'
  | '/' => some '/'
  | 'b' => some '\x08'
  | 'f' => some '\x0c'
  | 'n' => some '\n'
  | 'r' => some '\r'
  | 't' => some '\t'
  | _ => none

def pieces : List Char → List Piece × Except Halt (List Char)
  | [] => ([], .error (.atFlaw .endInString []))
  | '"' :: rest => ([], .ok rest)
  | '\\' :: 'u' :: a :: b :: c :: d :: rest =>
    match hexUnit? a b c d with
    | none => ([], .error (badUnit (a :: b :: c :: d :: rest)))
    | some n => let (ps, more) := pieces rest; (.unit n rest :: ps, more)
  | '\\' :: 'u' :: rest => ([], .error (badUnit rest))
  | '\\' :: l :: rest =>
    match unescape? l with
    | none => ([], .error (.atNext .badEscape (l :: rest)))
    | some c => let (ps, more) := pieces rest; (.char c :: ps, more)
  | ['\\'] => ([], .error (.atFlaw .endInString []))
  | c :: rest =>
    if c.toNat < 0x20 then ([], .error (.atNext .control (c :: rest)))
    else let (ps, more) := pieces rest; (.char c :: ps, more)

def halfPairAt : List Char → Halt
  | [] => .atFlaw .endInString []
  | ['\\'] => .atFlaw .endInString []
  | '\\' :: rest => .atNext .halfPair rest
  | rest => .atNext .halfPair rest

/-- Joins surrogate pairs; a half without its partner has no text. -/
def joinPieces : List Piece → Except Halt Unit → Except Halt (List Char)
  | [], ending => do
    ending
    return []
  | .char c :: rest, ending => (c :: ·) <$> joinPieces rest ending
  | .unit n after :: rest, ending =>
    if n < 0xD800 || 0xE000 ≤ n then (Char.ofNat n :: ·) <$> joinPieces rest ending
    else if 0xDC00 ≤ n then .error (.atFlaw .loneSurrogate after)
    else match rest with
      | .unit m after :: rest =>
        if 0xDC00 ≤ m && m < 0xE000 then
          let c := Char.ofNat (0x10000 + (n - 0xD800) * 0x400 + (m - 0xDC00))
          (c :: ·) <$> joinPieces rest ending
        else .error (.atFlaw .loneSurrogate after)
      | _ => do
        -- an escape that cannot be read stops the text by itself
        if rest.isEmpty && ['\\', 'u'].isPrefixOf after then ending
        .error (halfPairAt after)

structure Quotation where
  text : Except Halt String
  /-- What follows the string, or where passing over it stops. -/
  rest : Except Halt (List Char)

/-- Passing over a control character does not take it. -/
def skippedHalt (h : Halt) : Halt :=
  if h.cause = .flaw .control then { h with place := h.place.map fun p => ⟨p.rest, 0⟩ } else h

def scanString (cs : List Char) : Quotation :=
  let (ps, rest) := pieces cs
  ⟨(joinPieces ps (discard rest)).map String.ofList, rest.mapError skippedHalt⟩

/-! ## Values -/

/-- What stands at the start of a text, and what follows it unless the text goes wrong. -/
structure Scan (α : Type) where
  found : α
  rest : Option (List Char)

def Scan.stop {α : Type} (found : α) : Scan α := ⟨found, none⟩

def Scan.halt (start : List Char) (h : Halt) : Scan Document :=
  .stop (.bad start h (some h))

def scanWord (start word : List Char) (s : Scalar) (cs : List Char) : Scan Document :=
  match word, cs with
  | [], cs => ⟨.scalar start cs s, some cs⟩
  | _ :: _, [] => .halt start (.atFlaw .endInValue [])
  | w :: word, c :: cs =>
    if w = c then scanWord start word s cs else .halt start (.atNext .badKeyword (c :: cs))

/-- A number that is passed over is a bad number where it ends too early. -/
def skippedNumber (h : Halt) : Halt :=
  if h.cause = .flaw .endInValue then { h with cause := .flaw .badNumber } else h

def scanNumber (start : List Char) : Scan Document :=
  match Numeral.scan start with
  | .error h => .stop (.bad start h (some (skippedNumber h)))
  | .ok (lit, rest) =>
    match lit.value? with
    | some n => ⟨.scalar start rest (.number n), some rest⟩
    | none => ⟨.bad start (.atFlaw .numberRange rest) none, some rest⟩

/-- Marks an array or object with too many others around it. -/
def nest (depth : Nat) (d : Document) : Document :=
  if depth < maxDepth then d else .tooDeep d

def haltAt (h : Halt) : Ending :=
  .broken h h

mutual

/-- Reads the value at the start of the text.  The first argument bounds the number of steps, the
second counts the arrays and objects around the value. -/
def scanValue : Nat → Nat → List Char → Scan Document
  | 0, _, cs => .halt cs (.atNext .noValue cs)
  | fuel + 1, depth, cs =>
    let start := cs.dropWhile isSpace
    match start with
    | [] => .halt [] (.atFlaw .endInValue [])
    | 'n' :: rest => scanWord start ['u', 'l', 'l'] .null rest
    | 't' :: rest => scanWord start ['r', 'u', 'e'] (.bool true) rest
    | 'f' :: rest => scanWord start ['a', 'l', 's', 'e'] (.bool false) rest
    | '"' :: rest =>
      let quotation := scanString rest
      match quotation.text, quotation.rest with
      | .ok s, .ok rest => ⟨.scalar start rest (.string s), some rest⟩
      | .error h, .ok rest => ⟨.bad start h none, some rest⟩
      | .error h, .error skipped => .stop (.bad start h (some skipped))
      | .ok _, .error h => .halt start h
    | '[' :: rest =>
      let items : Scan (List Document × Ending) := match rest.dropWhile isSpace with
        | ']' :: rest => ⟨([], .closed rest), some rest⟩
        | [] => .stop ([], haltAt (.atFlaw .endInArray []))
        | rest => scanItems fuel (depth + 1) rest
      ⟨nest depth (.array start items.found.1 items.found.2), items.rest⟩
    | '{' :: rest =>
      let fields : Scan (List (Key × Document) × Ending) := match rest.dropWhile isSpace with
        | '}' :: rest => ⟨([], .closed rest), some rest⟩
        | rest => scanFields fuel (depth + 1) (.atFlaw .endInObject []) rest
      ⟨nest depth (.object start fields.found.1 fields.found.2), fields.rest⟩
    | c :: rest =>
      if c = '-' || c.isDigit then scanNumber (c :: rest) else .halt start (.atNext .noValue start)

def scanItems : Nat → Nat → List Char → Scan (List Document × Ending)
  | 0, _, cs => .stop ([], haltAt (.atNext .noValue cs))
  | fuel + 1, depth, cs =>
    let item := scanValue fuel depth cs
    match item.rest.map (·.dropWhile isSpace) with
    | none => .stop ([item.found], .closed [])
    | some [] => .stop ([item.found], haltAt (.atFlaw .endInArray []))
    | some (']' :: rest) => ⟨([item.found], .closed rest), some rest⟩
    | some (',' :: rest) =>
      match rest.dropWhile isSpace with
      | ']' :: rest =>
        let closing := ']' :: rest
        .stop ([item.found], .broken (.atNext .trailingComma closing) (.atNext .noValue closing))
      | [] => .stop ([item.found], haltAt (.atFlaw .endInValue []))
      | rest =>
        let more := scanItems fuel depth rest
        ⟨(item.found :: more.found.1, more.found.2), more.rest⟩
    | some rest => .stop ([item.found], haltAt (.atNext .noArraySeparator rest))

/-- Reads the fields of an object up to its end; the third argument is the halt where no field
follows. -/
def scanFields : Nat → Nat → Halt → List Char → Scan (List (Key × Document) × Ending)
  | 0, _, _, cs => .stop ([], haltAt (.atNext .noValue cs))
  | fuel + 1, depth, atEnd, cs =>
    match cs.dropWhile isSpace with
    | [] => .stop ([], .broken atEnd (.atFlaw .endInObject []))
    | '"' :: rest =>
      let quotation := scanString rest
      match quotation.rest with
      | .error skipped =>
        let halt := match quotation.text with
          | .error h => h
          | .ok _ => skipped
        .stop ([], .broken halt skipped)
      | .ok rest =>
        let key : Key := ⟨quotation.text, rest⟩
        match rest.dropWhile isSpace with
        | [] =>
          let halt : Halt := .atFlaw .endInObject []
          .stop ([(key, .bad [] halt (some halt))], .closed [])
        | ':' :: rest =>
          let value := scanValue fuel depth rest
          match value.rest.map (·.dropWhile isSpace) with
          | none => .stop ([(key, value.found)], .closed [])
          | some [] => .stop ([(key, value.found)], haltAt (.atFlaw .endInObject []))
          | some ('}' :: rest) => ⟨([(key, value.found)], .closed rest), some rest⟩
          | some (',' :: rest) =>
            let more := scanFields fuel depth (.atFlaw .endInValue []) rest
            ⟨((key, value.found) :: more.found.1, more.found.2), more.rest⟩
          | some rest => .stop ([(key, value.found)], haltAt (.atNext .noObjectSeparator rest))
        | rest =>
          let halt : Halt := .atNext .noColon rest
          .stop ([(key, .bad rest halt (some halt))], .closed [])
    | '}' :: rest =>
      -- the first field is only looked for where the object does not end at once
      .stop ([], .broken (.atNext .trailingComma ('}' :: rest)) (.atNext .badKey ('}' :: rest)))
    | rest => .stop ([], haltAt (.atNext .badKey rest))

end

def scan (cs : List Char) : Scan Document :=
  -- every second step takes a character
  scanValue (2 * cs.length + 2) 0 cs

/-! ## Ends of arrays and objects -/

def closeArray (cs : List Char) : Except Halt (List Char) :=
  match cs.dropWhile isSpace with
  | [] => .error (.atFlaw .endInArray [])
  | ']' :: rest => .ok rest
  | ',' :: rest =>
    match rest.dropWhile isSpace with
    | ']' :: rest => .error (.atNext .trailingComma (']' :: rest))
    | rest => .error (.atNext .trailingText rest)
  | rest => .error (.atNext .trailingText rest)

def closeObject (cs : List Char) : Except Halt (List Char) :=
  match cs.dropWhile isSpace with
  | [] => .error (.atFlaw .endInObject [])
  | '}' :: rest => .ok rest
  | ',' :: rest => .error (.atNext .trailingComma (',' :: rest))
  | rest => .error (.atNext .trailingText rest)

/-- The text that is left once the end has been taken or missed. -/
def leftAfter : Except Halt (List Char) → List Char
  | .ok rest => rest
  | .error h => (h.place.map (·.rest)).getD []

/-! ## Values of documents -/

mutual

/-- The value that the whole document stands for, or its first halt. -/
def value : Document → Except Halt Json
  | .scalar _ _ s => .ok s.value
  | .array _ items ending => do
    let values ← itemValues items
    ending.seal (.array values)
  | .object _ fields ending => do
    let values ← fieldValues fields
    ending.seal (.ofFields values)
  | .tooDeep inner => .error (.atNext .tooDeep inner.start)
  | .bad _ halt _ => .error halt

def itemValues : List Document → Except Halt (List Json)
  | [] => .ok []
  | item :: rest => do
    let v ← value item
    let vs ← itemValues rest
    return v :: vs

def fieldValues : List (Key × Document) → Except Halt (List (String × Json))
  | [] => .ok []
  | (key, field) :: rest => do
    let name ← key.name
    let v ← value field
    let vs ← fieldValues rest
    return (name, v) :: vs

end

mutual

/-- Passes over a document that nobody reads: only what keeps the text from being followed counts.
-/
def skip : Document → Except Halt Unit
  | .array _ items ending => do
    skipItems items
    skipEnding ending
  | .object _ fields ending => do
    skipFields fields
    skipEnding ending
  | .tooDeep inner => skip inner
  | .bad _ _ (some halt) => .error halt
  | _ => .ok ()

def skipItems : List Document → Except Halt Unit
  | [] => .ok ()
  | item :: rest => do
    skip item
    skipItems rest

def skipFields : List (Key × Document) → Except Halt Unit
  | [] => .ok ()
  | (_, field) :: rest => do
    skip field
    skipFields rest

def skipEnding : Ending → Except Halt Unit
  | .closed _ => .ok ()
  | .broken _ skipped => .error skipped

end

mutual

def ofJson : Json → Document
  | .null => .scalar [] [] .null
  | .bool b => .scalar [] [] (.bool b)
  | .number n => .scalar [] [] (.number n)
  | .string s => .scalar [] [] (.string s)
  | .array items => .array [] (ofItems items) (.closed [])
  | .object fields => .object [] (ofFields fields) (.closed [])

def ofItems : List Json → List Document
  | [] => []
  | item :: rest => ofJson item :: ofItems rest

def ofFields : List (String × Json) → List (Key × Document)
  | [] => []
  | (key, field) :: rest => (⟨.ok key, []⟩, ofJson field) :: ofFields rest

end

end Document

end Alerting.Json
