import Alerting.Server.Address
import Alerting.Server.Command
import Alerting.Server.Invocation
import Alerting.Store.Document
import Std.Time.Zoned
/-!
# The program

Commands are carried out with files, clocks and chance.  A store is a file that holds it as JSON,
beside the file of its key.  The program has no network of its own: requests and mails fail as they
do where nothing can be reached.
-/

namespace Alerting.Main

open Server Delivery

/-! ## Clocks and chance -/

def instantOfNanos (nanos : Int) : Instant :=
  ⟨nanos.fdiv 1000000000, (nanos.fmod 1000000000).toNat⟩

def instant : IO Instant := do
  return instantOfNanos (← Std.Time.Timestamp.now).toNanosecondsSinceUnixEpoch.val

def localTime : IO DateTime := do
  let shown := instantOfNanos (← Std.Time.PlainDateTime.now).toWallTime.toNanoseconds.val
  match shown.toDateTime? with
  | some t => return t
  | none => throw (IO.userError "the clock shows no date")

def randomBytes (n : Nat) : IO (List UInt8) := do
  return (← IO.getRandomBytes n.toUSize).toList

def freshId : IO String := do
  let now ← instant
  let chance := (← randomBytes 2).foldl (fun n b => 256 * n + b.toNat) 0
  return toString (now.seconds.toNat * 1000 + now.nanos / 1000000) ++ Numeric.padded 5 chance

def nonce : IO Secret.Nonce := do
  match Secret.Nonce.ofBytes? (← randomBytes Secret.Gcm.nonceLength) with
  | some nonce => return nonce
  | none => throw (IO.userError "no random bytes")

/-! ## Files -/

def attempt {α : Type} (action : IO α) : IO (Except String α) := do
  try
    return .ok (← action)
  catch e => return .error (toString e)

def ifPresent {α : Type} (action : IO α) : IO (Option α) := do
  try
    return some (← action)
  catch
    | .noFileOrDirectory .. => return none
    | e => throw e

/-- The key in a directory, which is made where there is none. -/
def loadKey (dataDir : String) : IO (Except SecretError Secret.Key) := do
  let path := pathIn dataDir "token.key"
  match ← ifPresent (IO.FS.readBinFile path) with
  | some bytes => return Secret.Key.ofBytes bytes.toList
  | none =>
    let bytes ← randomBytes Secret.keyLength
    IO.FS.writeBinFile path ⟨bytes.toArray⟩
    return Secret.Key.ofBytes bytes

def loadStore (url : String) (key : Secret.Key) : IO (Except OpenError Store) := do
  match StoreAddress.ofText? url with
  | none => return .error (.address url "unknown kind of address")
  | some file =>
    match ← ifPresent (IO.FS.readFile file.path) with
    | some text =>
      return (Json.Reader.ofText (Store.reader key) text).mapError fun fault =>
        .address url fault.message
    | none =>
      if file.isMade then return .ok { key := key }
      else return .error (.address url "unable to open database file")

def openStore (url dataDir : String) : IO (Except OpenError Store) := do
  match ← attempt (IO.FS.createDirAll dataDir) with
  | .error reason => return .error (.directory dataDir reason)
  | .ok () =>
    match ← loadKey dataDir with
    | .error e => return .error (.key e)
    | .ok key => loadStore url key

def saveStore (url : String) (s : Store) : IO Unit := do
  match StoreAddress.ofText? url with
  | some file => IO.FS.writeFile file.path s.toJson.text
  | none => return ()

/-! ## Commands -/

def answer : (n : Server.Need) → IO n.Reply
  | .fileText path => attempt (IO.FS.readFile path)
  | .openStore url dataDir => openStore url dataDir
  | .saveStore url s => saveStore url s
  | .display j => IO.println (j.indented 0)
  | .fetch request => return .error ("error sending request for url (" ++ request.url ++ ")")
  | .transmit .. => return .error "Connection error: Network is unreachable"
  | .localTime => localTime
  | .instant => instant
  | .freshId => freshId
  | .nonce => nonce

def carryOut {α : Type} (command : Commanding α) : IO (Except CommandError α) :=
  command.run.perform answer

/-- Waits until the clock on the wall shows another second than this one. -/
partial def nextSecond (last : DateTime) : IO DateTime := do
  let now ← localTime
  if now = last then
    IO.sleep 50
    nextSecond last
  else return now

/-- Runs rules when their jobs are due, and looks at the store again whenever so many seconds are
over. -/
partial def keepServing (server : State) (last : DateTime) (left : Nat) : IO Unit := do
  let now ← nextSecond last
  let served ← (server.runDue now).perform answer
  if served.runner.store.runs.length ≠ server.runner.store.runs.length then
    saveStore server.config.database.address served.runner.store
  if left = 0 then
    let refreshed := match ← carryOut served.refresh with
      | .ok server => server
      | .error _ => served
    keepServing refreshed now (server.config.scheduling.reconcileInterval - 1)
  else keepServing served now (left - 1)

def serve (config : String) : IO (Except CommandError Unit) := do
  match ← carryOut (Server.serve config) with
  | .error e => return .error e
  | .ok none => return .ok ()
  | .ok (some server) =>
    keepServing server (← localTime) (server.config.scheduling.reconcileInterval - 1)
    return .ok ()

def complain (message : String) : IO UInt32 := do
  IO.eprintln ("Error: " ++ message)
  return 1

def statusOf : Except CommandError Unit → IO UInt32
  | .ok () => return 0
  | .error e => complain e.message

def invoke : Invocation → IO UInt32
  | .run config rule => do statusOf (← carryOut (Server.run config rule))
  | .preview config rule => do statusOf (← carryOut (Server.preview config rule))
  | .seed config seed => do statusOf (← carryOut (Server.seed config seed))
  | .serve config => do statusOf (← serve config)
  | .help => do
    IO.eprintln Invocation.usage
    return 0

end Alerting.Main

def main (arguments : List String) : IO UInt32 :=
  match Alerting.Server.Invocation.ofArguments arguments with
  | .ok invocation => Alerting.Main.invoke invocation
  | .error what => do
    IO.eprintln Alerting.Server.Invocation.usage
    Alerting.Main.complain (Alerting.Server.Invocation.missingMessage what)
