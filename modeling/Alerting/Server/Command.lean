import Alerting.Runner
import Alerting.Schedule
import Alerting.Server.Config
import Alerting.Server.Seed
import Alerting.Service
/-!
# Commands

What can be done from the command line: fill a store with a seed, run a rule, preview a
configuration and start the server.  A command is a dialogue with the world around it: files,
stores, services, clocks.
-/

namespace Alerting.Server

open Delivery

/-! ## Needs -/

inductive OpenError where
  /-- The directory of the key cannot be made. -/
  | directory (path reason : String)
  | address (url reason : String)
  | key (error : SecretError)
deriving DecidableEq, Repr

def OpenError.failure : OpenError → Failure
  | directory path reason => ⟨"creating data dir " ++ path, [reason]⟩
  | address url reason => ⟨"connecting to " ++ url, [reason]⟩
  | key error => error.failure

inductive Need where
  | fileText (path : String)
  /-- The store at an address, with the key in a directory; both are made where there are none. -/
  | openStore (address dataDir : String)
  | saveStore (address : String) (store : Store)
  /-- Shows something to whoever gave the command. -/
  | display (result : Json)
  | fetch (request : Http.Request)
  | transmit (server : MailServer) (letter : Email.Letter)
  | localTime
  | instant
  | freshId
  | nonce

abbrev Need.Reply : Need → Type
  | fileText _ => Except String String
  | openStore .. => Except OpenError Store
  | saveStore .. => Unit
  | display _ => Unit
  | fetch _ => Http.Reply
  | transmit .. => Except String Unit
  | localTime => DateTime
  | instant => Instant
  | freshId => String
  | nonce => Secret.Nonce

abbrev Serving := Dialogue Need Need.Reply

def need (n : Need) : Serving n.Reply :=
  .put n

def fetching {α : Type} (d : Http.Fetching α) : Serving α :=
  d.embed .fetch fun _ reply => reply

/-! ## Running rules in the world -/

/-- Answers what is needed to send something.  The settings are those in the store. -/
def answerDelivery (s : Store) : (n : Delivery.Need) → Unit → Serving (n.Reply × Unit)
  | .emailSettings, _ => return (s.provider.email, ())
  | .smsSettings, _ => return (s.provider.sms, ())
  | .year, _ => do return ((← need .instant).year, ())
  | .fetch request, _ => do return (← need (.fetch request), ())
  | .transmit server letter, _ => do return (← need (.transmit server letter), ())

def delivering {α : Type} (s : Store) (d : Delivering α) : Serving α := do
  return (← d.relay (answerDelivery s) ()).1

def answerMaterial (config : Config) : (m : Material) → Serving m.Reply
  | .query request => fetching (Service.query config.queryEngine.baseUrl request)
  | .capture widget shot => fetching (Service.capture config.renderer.baseUrl widget shot)

def answerRun (config : Config) (s : Store) :
    (n : Runner.Need) → Dispatcher → Serving (n.Reply × Dispatcher)
  | .material m, d => do return (← answerMaterial config m, d)
  | .sendEmail mail, d => delivering s (d.sendEmail mail)
  | .sendSms recipients message, d => delivering s (d.sendSms recipients message)
  | .localTime, d => do return (← need .localTime, d)
  | .instant, d => do return (← need .instant, d)
  | .freshId, d => do return (← need .freshId, d)

def runRule (config : Config) (runner : Runner) (d : Dispatcher) (id : String) (force : Bool)
    (origin : Run.Origin) : Serving ((Except RunError RunOutcome × Runner) × Dispatcher) :=
  (runner.runById id force origin config.camera).relay (answerRun config runner.store) d

/-! ## Errors -/

inductive InputFile where
  | config
  | seed
  | rule
deriving DecidableEq, Repr

def InputFile.title : InputFile → String
  | config => "config"
  | seed => "seed file"
  | rule => "rule file"

inductive CommandError where
  | unreadable (file : InputFile) (path reason : String)
  /-- The file is no JSON of the right shape. -/
  | malformed (file : InputFile) (path : String) (fault : Json.Fault)
  /-- The configuration is no TOML of the right shape. -/
  | badConfig
  /-- The server cannot be started, because its configuration cannot be loaded. -/
  | loading (path : String) (cause : CommandError)
  | store (error : OpenError)
  | run (error : RunError)
  | runFailed (id message : String)
deriving DecidableEq, Repr

def CommandError.message : CommandError → String
  | unreadable file path reason =>
    "Failed to read " ++ file.title ++ " '" ++ path ++ "': " ++ reason
  | malformed file path fault =>
    "Failed to parse " ++ file.title ++ " '" ++ path ++ "': " ++ fault.message
  | badConfig => "TOML parse error"
  | loading path _ => "loading " ++ path
  | store error => error.failure.message
  | run error => error.message
  | runFailed id message => "rule " ++ id ++ " run failed: " ++ message

abbrev Commanding := ExceptT CommandError Serving

/-! ## Commands -/

def inputText (file : InputFile) (path : String) : Commanding String := do
  match ← need (.fileText path) with
  | .ok text => return text
  | .error reason => throw (.unreadable file path reason)

def loadConfig (path : String) : Commanding Config := do
  match Config.ofToml? (← inputText .config path) with
  | some config => return config
  | none => throw .badConfig

def readJson {α : Type} (file : InputFile) (read : Json.Reader α) (path : String) :
    Commanding α := do
  match Json.Reader.ofText read (← inputText file path) with
  | .ok a => return a
  | .error fault => throw (.malformed file path fault)

def openStore (config : Config) : Commanding Store := do
  match ← need (.openStore config.database.address config.database.dataDir) with
  | .ok s => return s
  | .error e => throw (.store e)

def saveStore (config : Config) (s : Store) : Commanding Unit :=
  need (.saveStore config.database.address s)

/-- Adds rules to a store, each under an id of its own; one that the store refuses is left out. -/
def addRules : List SeedRule → Store → Serving Store
  | [], s => return s
  | r :: rest, s => do
    let id ← need .freshId
    let now ← need .instant
    match s.insertRule (r.newRule id) now with
    | .ok (_, changed) => addRules rest changed
    | .error _ => addRules rest s

/-- Adds the rules of a seed to a store, and saves its settings. -/
def plant (seed : Seed) (s : Store) : Serving Store := do
  let s ← addRules (seed.wanted s) s
  return seed.saveSettings (← need .nonce) (← need .nonce) s

def seed (configPath seedPath : String) : Commanding Unit := do
  let config ← loadConfig configPath
  let s ← openStore config
  let seed ← readJson .seed Seed.reader seedPath
  saveStore config (← plant seed s)

def run (configPath id : String) : Commanding Unit := do
  let config ← loadConfig configPath
  let s ← openStore config
  let ((result, runner), _) ← runRule config ⟨s, {}⟩ {} id true .manual
  saveStore config runner.store
  match result with
  | .error e => throw (.run e)
  | .ok outcome =>
    need (.display outcome.toJson)
    if !outcome.isOk then throw (.runFailed id outcome.message)

def preview (configPath rulePath : String) : Commanding Unit := do
  let config ← loadConfig configPath
  let rule ← readJson .rule Rule.Config.reader rulePath
  discard (openStore config)
  let now ← need .localTime
  let (p, _) ← (Preview.make rule now config.camera).relay
    (fun m (_ : Unit) => return (← answerMaterial config m, ())) ()
  need (.display p.toJson)

structure State where
  config : Config
  runner : Runner
  dispatcher : Dispatcher := {}
  schedule : Schedule := {}

namespace State

def reconcile (server : State) : Schedule.Report × State :=
  let (report, schedule) :=
    server.schedule.reconcile server.runner.store.enabledRules server.config.scheduling.defaultCron
  (report, { server with schedule := schedule })

def runAll : List String → State → Serving State
  | [], server => return server
  | id :: rest, server => do
    let (runner, dispatcher) ← (server.runner.runScheduled id server.config.camera).relay
      (answerRun server.config server.runner.store) server.dispatcher
    runAll rest { server with runner := runner, dispatcher := dispatcher }

def runDue (server : State) (now : DateTime) : Serving State :=
  runAll (server.schedule.due now) server

/-- Takes over what others have changed in the store, and brings the jobs in line with it. -/
def refresh (server : State) : Commanding State := do
  let s ← openStore server.config
  let server := { server with runner := { server.runner with store := s } }
  return server.reconcile.2

end State

/-- Starts the server.  Without scheduling there is nothing for it to do. -/
def serve (configPath : String) : Commanding (Option State) := do
  let config ← tryCatch (loadConfig configPath) fun e => throw (.loading configPath e)
  let s ← openStore config
  if !config.scheduling.enabled then return none
  let server : State := { config := config, runner := ⟨s, {}⟩ }
  return some server.reconcile.2

end Alerting.Server
