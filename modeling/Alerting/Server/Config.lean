import Alerting.Json.Reader
import Alerting.Message
import Alerting.Text.Basic
import Alerting.Toml.Reader
/-!
# Server configuration

Where the store is, when rules are run, and which services are used.  The configuration is a TOML
document; every setting has a default.
-/

namespace Alerting.Server

open Json.Reader

structure Database where
  url : Option String := none
  /-- The directory of the key, and of the store if there is no address. -/
  dataDir : String := "data"
deriving DecidableEq, Repr, Inhabited

structure Scheduling where
  enabled : Bool := true
  /-- The cron expression of rules that have none. -/
  defaultCron : String := "0 * * * * *"
  /-- The seconds between two looks at the rules. -/
  reconcileInterval : Nat := 60
deriving DecidableEq, Repr, Inhabited

structure QueryEngine where
  baseUrl : String := "http://127.0.0.1:8000/api/query"
  timeout : Nat := 30
deriving DecidableEq, Repr, Inhabited

structure Renderer where
  enabled : Bool := false
  baseUrl : String := "http://127.0.0.1:8000/api/render"
  timeout : Nat := 45
  width : Nat := 1000
  height : Nat := 600
  theme : String := "light"
deriving DecidableEq, Repr, Inhabited

structure Config where
  database : Database := {}
  scheduling : Scheduling := {}
  queryEngine : QueryEngine := {}
  renderer : Renderer := {}
deriving DecidableEq, Repr, Inhabited

/-! ## Reading -/

def seconds : Json.Reader Nat :=
  natural "u64" (Nat.pow 2 64)

def pixels : Json.Reader Nat :=
  natural "u32" (Nat.pow 2 32)

def Database.reader : Json.Reader Database :=
  record "a database"
    [.optional "url" (optional string) fun v d => { d with url := v },
     .optional "data_dir" string fun v d => { d with dataDir := v }]
    {} true

def Scheduling.reader : Json.Reader Scheduling :=
  record "a scheduler"
    [.optional "enabled" bool fun v s => { s with enabled := v },
     .optional "default_cron" string fun v s => { s with defaultCron := v },
     .optional "reconcile_interval_secs" seconds fun v s => { s with reconcileInterval := v }]
    {} true

def QueryEngine.reader : Json.Reader QueryEngine :=
  record "a query engine"
    [.optional "base_url" string fun v e => { e with baseUrl := v },
     .optional "timeout_secs" seconds fun v e => { e with timeout := v }]
    {} true

def Renderer.reader : Json.Reader Renderer :=
  record "a renderer"
    [.optional "enabled" bool fun v r => { r with enabled := v },
     .optional "base_url" string fun v r => { r with baseUrl := v },
     .optional "timeout_secs" seconds fun v r => { r with timeout := v },
     .optional "width" pixels fun v r => { r with width := v },
     .optional "height" pixels fun v r => { r with height := v },
     .optional "theme" string fun v r => { r with theme := v }]
    {} true

namespace Config

def reader : Json.Reader Config :=
  record "a configuration"
    [.optional "database" Database.reader fun v c => { c with database := v },
     .optional "scheduler" Scheduling.reader fun v c => { c with scheduling := v },
     .optional "query_engine" QueryEngine.reader fun v c => { c with queryEngine := v },
     .optional "renderer" Renderer.reader fun v c => { c with renderer := v }]
    {} true

def ofToml? (text : String) : Option Config := do
  (ofJson reader (← Toml.ofText? text)).toOption

def toJson (c : Config) : Json :=
  .object
    [("database", .object
        [("url", .ofString? c.database.url), ("data_dir", .string c.database.dataDir)]),
     ("scheduler", .object
        [("enabled", .bool c.scheduling.enabled),
         ("default_cron", .string c.scheduling.defaultCron),
         ("reconcile_interval_secs", .int c.scheduling.reconcileInterval)]),
     ("query_engine", .object
        [("base_url", .string c.queryEngine.baseUrl),
         ("timeout_secs", .int c.queryEngine.timeout)]),
     ("renderer", .object
        [("enabled", .bool c.renderer.enabled), ("base_url", .string c.renderer.baseUrl),
         ("timeout_secs", .int c.renderer.timeout), ("width", .int c.renderer.width),
         ("height", .int c.renderer.height), ("theme", .string c.renderer.theme)])]

end Config

/-! ## What follows from the settings -/

def pathIn (directory file : String) : String :=
  if directory = "" || directory.endsWith "/" then directory ++ file else directory ++ "/" ++ file

def Database.address (d : Database) : String :=
  match d.url.filter (!Text.isBlankText ·) with
  | some url => url
  | none => "sqlite://" ++ pathIn d.dataDir "vigil.db" ++ "?mode=rwc"

def Renderer.shot (r : Renderer) : Shot :=
  ⟨r.width, r.height, r.theme⟩

def Config.camera (c : Config) : Option Shot :=
  if c.renderer.enabled then some c.renderer.shot else none

end Alerting.Server
