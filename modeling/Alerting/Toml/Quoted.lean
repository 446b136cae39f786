/-!
# TOML strings

Strings come in four forms: with escapes or without, on one line or on several.
-/

namespace Alerting.Toml

def isPlain (c : Char) : Bool :=
  c = '\t' || ' ' ≤ c && c ≠ '\x7f'

def hexDigit? (c : Char) : Option Nat :=
  if c.isDigit then some (c.toNat - 48)
  else if 'a' ≤ c && c ≤ 'f' then some (c.toNat - 87)
  else if 'A' ≤ c && c ≤ 'F' then some (c.toNat - 55)
  else none

def scalar? (digits : List Char) : Option Char := do
  let ds ← digits.mapM hexDigit?
  let n := ds.foldl (fun n d => 16 * n + d) 0
  if n < 0xD800 || 0xE000 ≤ n && n < 0x110000 then some (Char.ofNat n) else none

def escape? : Char → Option Char
  | 'b' => some '\x08'
  | 't' => some '\t'
  | 'n' => some '\n'
  | 'f' => some '\x0c'
  | 'r' => some '\r'
  | '"' => some '"'
  | '\\' => some '\\'
  | _ => none

/-- Reads behind a backslash; four digits follow a `u`, and eight a `U`. -/
def unescape (cs : List Char) : Option (Char × List Char) :=
  match cs with
  | 'u' :: rest => if rest.length < 4 then none else (scalar? (rest.take 4)).map (·, rest.drop 4)
  | 'U' :: rest => if rest.length < 8 then none else (scalar? (rest.take 8)).map (·, rest.drop 8)
  | c :: rest => (escape? c).map (·, rest)
  | [] => none

def isSpace (c : Char) : Bool :=
  c = ' ' || c = '\t'

def newline? : List Char → Option (List Char)
  | '\n' :: cs => some cs
  | '\r' :: '\n' :: cs => some cs
  | _ => none

def skipBlankLines : Nat → List Char → List Char
  | 0, cs => cs
  | fuel + 1, cs =>
    match cs.dropWhile isSpace with
    | '\n' :: rest => skipBlankLines fuel rest
    | '\r' :: '\n' :: rest => skipBlankLines fuel rest
    | rest => rest

structure Form where
  mark : Char
  hasEscapes : Bool
  isMultiline : Bool
deriving DecidableEq, Repr

/-- The marks at the end of a string on several lines; up to two more belong to the string. -/
def closing? (mark : Char) (cs : List Char) : Option (List Char × List Char) :=
  let marks := cs.takeWhile (· = mark)
  if marks.length < 3 then none
  else
    let extra := min (marks.length - 3) 2
    some (List.replicate extra mark, cs.drop (extra + 3))

def body (form : Form) : Nat → List Char → Option (List Char × List Char)
  | 0, _ => none
  | fuel + 1, cs =>
    match if form.isMultiline then closing? form.mark cs else none with
    | some (extra, rest) => some (extra, rest)
    | none =>
      match cs with
      | [] => none
      | c :: rest =>
        if c = form.mark && !form.isMultiline then some ([], rest)
        else if c = '\\' && form.hasEscapes then
          match if form.isMultiline then newline? (rest.dropWhile isSpace) else none with
          | some after => body form fuel (skipBlankLines after.length after)
          | none => do
            let (c, rest) ← unescape rest
            let (s, rest) ← body form fuel rest
            return (c :: s, rest)
        else
          match if form.isMultiline then newline? cs else none with
          | some after => do
            let (s, rest) ← body form fuel after
            return ('\n' :: s, rest)
          | none =>
            if isPlain c then do
              let (s, rest) ← body form fuel rest
              return (c :: s, rest)
            else none

def singleLine? (cs : List Char) : Option (String × List Char) := do
  let (s, rest) ← match cs with
    | '"' :: rest => body ⟨'"', true, false⟩ cs.length rest
    | '\'' :: rest => body ⟨'\'', false, false⟩ cs.length rest
    | _ => none
  return (String.ofList s, rest)

/-- The string on several lines whose opening marks have been read; a line end right behind them
does not count. -/
def multiline? (form : Form) (cs : List Char) : Option (String × List Char) :=
  let start := (newline? cs).getD cs
  (body form (start.length + 1) start).map fun (s, rest) => (String.ofList s, rest)

def string? : List Char → Option (String × List Char)
  | '"' :: '"' :: '"' :: rest => multiline? ⟨'"', true, true⟩ rest
  | '\'' :: '\'' :: '\'' :: rest => multiline? ⟨'\'', false, true⟩ rest
  | cs => singleLine? cs

end Alerting.Toml
