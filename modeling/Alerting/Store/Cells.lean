import Alerting.Json.Printer
import Alerting.Store.Document
/-!
# Cells of the store

Direct changes to what is kept, for whoever has to mend it by hand: a column of the rows of a table
that have an id is set to a value.
-/

namespace Alerting

inductive CellError where
  /-- The value is of no use in the column. -/
  | unfit
  | notUnique (field : UniqueField)
deriving DecidableEq, Repr

namespace Store

def setColumn {α : Type} (toJson : α → Json) (read : Json.Reader α) (column : String) (value : Json)
    (row : α) : Option α :=
  match toJson row with
  | .object fields =>
    let changed := fields.map fun (name, old) => (name, if name = column then value else old)
    (Json.Reader.ofJson read (.object changed)).toOption
  | _ => none

def setRows {α : Type} (isRow : α → Bool) (set : α → Option α) (rows : List α) :
    Except CellError (Nat × List α) :=
  match rows.mapM fun r => if isRow r then set r else some r with
  | some changed => .ok ((rows.filter isRow).length, changed)
  | none => .error .unfit

/-- Columns that hold a truth value; they take numbers for it. -/
def truthColumns : List String :=
  ["enabled", "use_tls"]

def numberColumns : List String :=
  ["port"]

/-- The value as it is kept in a column.  Columns of texts take a number as its text. -/
def cellValue (column : String) (value : Json) : Json :=
  if truthColumns.contains column then
    match value with
    | .number n => .bool (n.toFloat != 0)
    | j => j
  else if numberColumns.contains column then value
  else
    match value with
    | .number n => .string n.text
    | .bool b => .string (if b then "1" else "0")
    | j => j

def hasTwins (l : List String) : Bool :=
  l.eraseDups.length < l.length

def clash? (s : Store) : Option UniqueField :=
  if hasTwins (s.rules.map (·.name)) then some .ruleName
  else if hasTwins (s.rules.map (·.id)) then some .ruleId
  else if hasTwins (s.runs.map (·.id)) then some .runId
  else if hasTwins (s.email.map (·.id)) then some .emailId
  else if hasTwins (s.sms.map (·.id)) then some .smsId
  else none

/-- Changes a column in the rows with an id, whatever becomes of unique fields. -/
def changeCell (s : Store) (table column id : String) (value : Json) :
    Except CellError (Nat × Store) := do
  match table with
  | "alert_rules" =>
    let (n, rows) ← setRows (·.id = id)
      (setColumn StoredRule.toJson StoredRule.reader column value) s.rules
    return (n, { s with rules := rows })
  | "alert_runs" =>
    let (n, rows) ← setRows (·.id = id)
      (setColumn Run.toJson Run.reader column value) s.runs
    return (n, { s with runs := rows })
  | "email_config" =>
    let (n, rows) ← setRows (·.id = id)
      (setColumn StoredEmail.toJson StoredEmail.reader column value) s.email
    return (n, { s with email := rows })
  | "sms_config" =>
    let (n, rows) ← setRows (·.id = id)
      (setColumn StoredSms.toJson StoredSms.reader column value) s.sms
    return (n, { s with sms := rows })
  | _ => .error .unfit

def setCell (s : Store) (table column id : String) (value : Json) :
    Except CellError (Nat × Store) := do
  let (n, changed) ← s.changeCell table column id (cellValue column value)
  match changed.clash? with
  | some field => .error (.notUnique field)
  | none => return (n, changed)

end Store

end Alerting
