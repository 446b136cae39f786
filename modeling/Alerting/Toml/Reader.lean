import Alerting.Toml.Scalar
import Alerting.Toml.Table
/-!
# TOML documents

Reads a document line by line and gives its value as JSON, or nothing where the text is no such
document.
-/

namespace Alerting.Toml

def skipSpace (cs : List Char) : List Char :=
  cs.dropWhile isSpace

def skipComment? : List Char → List Char
  | '#' :: cs => cs.dropWhile isPlain
  | cs => cs

def skipFiller : Nat → List Char → List Char
  | 0, cs => cs
  | fuel + 1, cs =>
    let rest := skipComment? (skipSpace cs)
    match newline? rest with
    | some rest => skipFiller fuel rest
    | none => rest

/-! ## Keys -/

def isBareChar (c : Char) : Bool :=
  c.isAlphanum || c = '_' || c = '-'

def simpleKey? (cs : List Char) : Option (String × List Char) :=
  match cs with
  | '"' :: _ => singleLine? cs
  | '\'' :: _ => singleLine? cs
  | cs =>
    let bare := cs.takeWhile isBareChar
    if bare.isEmpty then none else some (String.ofList bare, cs.dropWhile isBareChar)

def path? : Nat → List Char → Option (List String × List Char)
  | 0, _ => none
  | fuel + 1, cs => do
    let (key, rest) ← simpleKey? (skipSpace cs)
    match skipSpace rest with
    | '.' :: rest => do
      let (path, rest) ← path? fuel rest
      return (key :: path, rest)
    | rest => return ([key], rest)

/-! ## Values -/

def maxDepth : Nat := 79

mutual

/-- The value at the start of a text.  The first argument bounds the number of steps, the second
counts the arrays and tables around the value. -/
def value? : Nat → Nat → List Char → Option (Json × List Char)
  | 0, _, _ => none
  | fuel + 1, depth, cs =>
    match cs with
    | '[' :: rest =>
      if maxDepth ≤ depth then none
      else (items? fuel (depth + 1) rest).map fun (items, rest) => (.array items, rest)
    | '{' :: rest =>
      if maxDepth ≤ depth then none
      else
        match skipSpace rest with
        | '}' :: rest => some (.object [], rest)
        | rest => do
          let (entries, rest) ← entries? fuel (depth + 1) rest
          return (← tableOf entries, rest)
    | c :: _ =>
      if c = '"' || c = '\'' then (string? cs).map fun (s, rest) => (.string s, rest) else scalar cs
    | [] => none

/-- The items of an array up to its end; a comma may stand behind the last one. -/
def items? : Nat → Nat → List Char → Option (List Json × List Char)
  | 0, _, _ => none
  | fuel + 1, depth, cs =>
    match skipFiller cs.length cs with
    | ']' :: rest => some ([], rest)
    | cs => do
      let (item, rest) ← value? fuel depth cs
      match skipFiller rest.length rest with
      | ',' :: rest => do
        let (items, rest) ← items? fuel depth rest
        return (item :: items, rest)
      | ']' :: rest => return ([item], rest)
      | _ => none

def entries? : Nat → Nat → List Char → Option (List (List String × Json) × List Char)
  | 0, _, _ => none
  | fuel + 1, depth, cs => do
    let (path, rest) ← path? cs.length cs
    let (v, rest) ← value? fuel depth (skipSpace (← after? '=' rest))
    match skipSpace rest with
    | ',' :: rest => do
      let (entries, rest) ← entries? fuel depth rest
      return ((path, v) :: entries, rest)
    | '}' :: rest => return ([(path, v)], rest)
    | _ => none

end

/-! ## Lines -/

def statement? (cs : List Char) : Option (Statement × List Char) :=
  match cs with
  | '[' :: '[' :: rest => do
    let (path, rest) ← path? cs.length rest
    return (.arrayHeader path, ← after? ']' (← after? ']' rest))
  | '[' :: rest => do
    let (path, rest) ← path? cs.length rest
    return (.header path, ← after? ']' rest)
  | cs => do
    let (path, rest) ← path? cs.length cs
    let (v, rest) ← value? (2 * rest.length + 2) 0 (skipSpace (← after? '=' rest))
    return (.entry path v, rest)

def statements? : Nat → List Char → Option (List Statement)
  | 0, _ => none
  | fuel + 1, cs =>
    match skipFiller cs.length cs with
    | [] => some []
    | cs => do
      let (line, rest) ← statement? cs
      let rest := skipComment? (skipSpace rest)
      match rest with
      | [] => return [line]
      | _ => do
        let lines ← statements? fuel (← newline? rest)
        return line :: lines

def ofText? (s : String) : Option Json := do
  let cs := match s.toList with
    | '\uFEFF' :: cs => cs
    | cs => cs
  documentOf (← statements? (cs.length + 1) cs)

end Alerting.Toml
