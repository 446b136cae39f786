import Alerting.Delivery.Bulk
import Alerting.Delivery.Settings
import Alerting.Dialogue
import Alerting.Email.Frame
import Alerting.Email.Letter
import Alerting.Http
import Alerting.Json.Value
import Alerting.Text.DataUri
import Alerting.Text.Truncate
/-!
# Delivery

Sending mail and short messages.  The settings are asked for anew for every send, so changes to them
take effect at once.  A send never fails: what went wrong is in its outcome, and every send is
counted.  Counters are exported as families, with one series for each combination of their labels.
-/

namespace Alerting

/-! ## Counters -/

/-- The counters that count the same thing apart by labels. -/
structure CounterFamily where
  name : String
  help : String
  /-- Labels with their values, and the count. -/
  series : List (List (String × String) × Nat)
deriving DecidableEq, Repr, Inhabited

def CounterFamily.labelTexts (labels : List (String × String)) : List String :=
  labels.map fun (label, value) => label ++ "=" ++ value

def CounterFamily.toJson (f : CounterFamily) : Json :=
  .object
    [("name", .string f.name), ("help", .string f.help),
     ("series", .array (f.series.map fun (labels, count) =>
        .array [.ofStrings (labelTexts labels), .int count]))]

end Alerting

namespace Alerting.Delivery

open Email

/-! ## Needs -/

inductive Security where
  | none
  /-- The connection is secured once it stands. -/
  | upgraded
  | implicit
deriving DecidableEq, Repr, Inhabited

structure MailServer where
  host : String
  port : Nat
  security : Security
  credentials : Option (String × String)
deriving DecidableEq, Repr, Inhabited

inductive Need where
  | emailSettings
  | smsSettings
  | year
  | fetch (request : Http.Request)
  | transmit (server : MailServer) (letter : Letter)
deriving Inhabited

abbrev Need.Reply : Need → Type
  | emailSettings => Except Failure (Option EmailSettings)
  | smsSettings => Except Failure (Option SmsSettings)
  | year => Int
  | fetch _ => Http.Reply
  | transmit .. => Except String Unit

abbrev Delivering := Dialogue Need Need.Reply

def need (n : Need) : Delivering n.Reply :=
  .put n

/-- Tries once more, up to so many times, as long as a try fails. -/
def retry {ε α : Type} : Nat → Delivering (Except ε α) → Delivering (Except ε α)
  | 0, action => action
  | more + 1, action => do
    match ← action with
    | .ok a => return .ok a
    | .error _ => retry more action

def maxRetries : Nat := 2

/-! ## Outcomes -/

structure SendOutcome where
  isOk : Bool
  error : Option String
deriving DecidableEq, Repr, Inhabited

namespace SendOutcome

def ofResult : Except DeliveryError Unit → SendOutcome
  | .ok () => ⟨true, none⟩
  | .error e => ⟨false, some e.message⟩

theorem isOk_ofResult (result : Except DeliveryError Unit) :
    (ofResult result).isOk = result.isOk := by
  cases result with
  | ok => rfl
  | error e => rfl

def toJson (o : SendOutcome) : Json :=
  .object [("ok", .bool o.isOk), ("error", .ofString? o.error)]

def forRecipient (o : SendOutcome) (recipient : String) : RecipientResult :=
  match o.error, o.isOk with
  | none, true => .success recipient
  | error, _ => .failed recipient (error.getD "")

end SendOutcome

structure Tally where
  success : Nat := 0
  failure : Nat := 0
deriving DecidableEq, Repr, Inhabited

def Tally.count (t : Tally) (o : SendOutcome) : Tally :=
  if o.isOk then { t with success := t.success + 1 } else { t with failure := t.failure + 1 }

structure Attempts where
  email : Tally := {}
  sms : Tally := {}
deriving DecidableEq, Repr, Inhabited

namespace Attempts

def tally (a : Attempts) : Channel → Tally
  | .email => a.email
  | .sms => a.sms

def count (a : Attempts) (channel : Channel) (o : SendOutcome) : Attempts :=
  match channel with
  | .email => { a with email := a.email.count o }
  | .sms => { a with sms := a.sms.count o }

def family (a : Attempts) : CounterFamily where
  name := "vigil_dispatch_attempts_total"
  help := "notification send attempts by channel and outcome"
  series :=
    [Channel.email, Channel.sms].flatMap fun channel =>
      [([("channel", channel.name), ("outcome", "failure")], (a.tally channel).failure),
       ([("channel", channel.name), ("outcome", "success")], (a.tally channel).success)]

def toJson (a : Attempts) : Json :=
  .object
    [("email.success", .int a.email.success), ("email.failure", .int a.email.failure),
     ("sms.success", .int a.sms.success), ("sms.failure", .int a.sms.failure),
     ("families", .array [a.family.toJson])]

end Attempts

/-! ## The logo -/

/-- The last logo that was loaded, with its address. -/
abbrev LogoCache := Option (String × InlineImage)

def logoContentId : String := "brand-logo"

/-- The content of a logo: what its address holds, or what is found there. -/
def fetchLogo (source : String) : Delivering (Except DeliveryError Text.Media) :=
  match Text.mediaOfUri? source with
  | some media => return .ok media
  | none => do
    match ← need (.fetch { method := .get, url := source }) with
    | .error reason => return .error (.http reason)
    | .ok r =>
      if r.isSuccess then return .ok ⟨r.contentType.getD "image/png", r.body⟩
      else return .error (.refused "logo" r.status "")

/-- The logo at an address; it is only loaded when it is another one than last time. -/
def loadLogo (cache : LogoCache) (source : String) :
    Delivering (Except DeliveryError InlineImage × LogoCache) :=
  match cache.filter (·.1 = source) with
  | some (_, image) => return (.ok image, cache)
  | none => do
    match ← fetchLogo source with
    | .error e => return (.error e, cache)
    | .ok media =>
      let image : InlineImage := ⟨logoContentId, media.mime, media.bytes⟩
      return (.ok image, some (source, image))

/-! ## Mail -/

structure Mail where
  subject : String
  recipients : List String
  html : String
  images : List InlineImage
deriving DecidableEq, Repr, Inhabited

def Mail.toJson (m : Mail) : Json :=
  .object
    [("subject", .string m.subject), ("to", .ofStrings m.recipients), ("html", .string m.html),
     ("images", .array (m.images.map (·.toJson)))]

def implicitSecurityPort : Nat := 465

namespace EmailSettings

def server (s : EmailSettings) : MailServer where
  host := s.host
  port := s.port
  security :=
    if !s.useTls then .none else if s.port = implicitSecurityPort then .implicit else .upgraded
  credentials :=
    match s.username, s.password with
    | some user, some password => if user = "" then none else some (user, password)
    | _, _ => none

def sender (s : EmailSettings) : Except DeliveryError Mailbox := do
  let address ← (Address.ofText s.fromAddress).mapError (.address s.fromAddress)
  return ⟨s.fromName.filter (!Text.isBlankText ·), address⟩

def logoSource? (s : EmailSettings) : Option String :=
  s.logo.filter (!Text.isBlankText ·)

def branding (s : EmailSettings) (hasLogo : Bool) : Branding where
  brandName := s.brandName
  logoSource := if hasLogo then some ("cid:" ++ logoContentId) else none
  footerText := s.footerText
  baseTemplate := s.baseTemplate

end EmailSettings

def usable {α : Type} (channel : Channel) (isUsable : α → Bool)
    (loaded : Except Failure (Option α)) : Except DeliveryError α :=
  match loaded with
  | .error failure => .error (.settings failure)
  | .ok none => .error (.notConfigured channel)
  | .ok (some s) => if isUsable s then .ok s else .error (.notConfigured channel)

/-- The logo of the settings; a logo that cannot be loaded is left out. -/
def logoFor (cache : LogoCache) (s : EmailSettings) : Delivering (Option InlineImage × LogoCache) :=
  match s.logoSource? with
  | none => return (none, cache)
  | some source => do
    let (image, cache) ← loadLogo cache source
    return (image.toOption, cache)

def transmit (server : MailServer) (letter : Letter) : Delivering (Except DeliveryError Unit) := do
  return (← retry maxRetries (need (.transmit server letter))).mapError .mail

def sendFramed (s : EmailSettings) (mail : Mail) (logo : Option InlineImage) :
    Delivering (Except DeliveryError Unit) := do
  let html := (s.branding logo.isSome).wrap (← need .year) mail.html
  match s.sender with
  | .error e => return .error e
  | .ok sender =>
    match Letter.build sender mail.recipients mail.subject html (mail.images ++ logo.toList) with
    | .error e => return .error e
    | .ok letter => transmit s.server letter

def tryEmail (cache : LogoCache) (mail : Mail) :
    Delivering (Except DeliveryError Unit × LogoCache) := do
  match usable .email EmailSettings.isUsable (← need .emailSettings) with
  | .error e => return (.error e, cache)
  | .ok s =>
    if mail.recipients.isEmpty then return (.error .noRecipients, cache)
    else
      let (logo, cache) ← logoFor cache s
      return (← sendFramed s mail logo, cache)

/-! ## Short messages -/

/-- How much is shown of what a gateway says to a request that it refuses. -/
def maxShownBody : Nat := 200

def smsRequest (s : SmsSettings) (message recipient : String) : Http.Request where
  method := .post
  url := s.gatewayUrl
  bearer := some s.apiKey
  body := some <| .ofFields <|
    [("to", .string recipient), ("message", .string message)]
      ++ ((s.sender.filter (· ≠ "")).map fun sender => ("from", .string sender)).toList

def readSmsReply : Http.Reply → Except DeliveryError Unit
  | .error reason => .error (.http reason)
  | .ok r =>
    if r.isSuccess then .ok ()
    else .error (.refused "sms" r.status (Text.truncate r.text maxShownBody))

def sendSmsTo (s : SmsSettings) (message recipient : String) :
    Delivering (Except DeliveryError Unit) :=
  retry maxRetries do
    return readSmsReply (← need (.fetch (smsRequest s message recipient)))

def sendSmsToAll (s : SmsSettings) (message : String) :
    List String → Delivering (List RecipientResult)
  | [] => return []
  | recipient :: rest => do
    let result ← sendSmsTo s message recipient
    let results ← sendSmsToAll s message rest
    return (SendOutcome.ofResult result).forRecipient recipient :: results

def combineResults (results : List RecipientResult) : Except DeliveryError Unit :=
  let failures := results.filter (!·.isSuccess)
  match failures with
  | [] => .ok ()
  | first :: _ => .error (.partialFailure failures.length results.length (first.error?.getD ""))

def trySms (recipients : List String) (message : String) :
    Delivering (Except DeliveryError Unit) := do
  match usable .sms SmsSettings.isUsable (← need .smsSettings) with
  | .error e => return .error e
  | .ok s =>
    if recipients.isEmpty then return .error .noRecipients
    else return combineResults (← sendSmsToAll s message recipients)

/-! ## Bulk sends -/

/-- A step of sending to many recipients, each apart. -/
inductive BulkStep where
  | start (total : Nat)
  | send (recipient : String)
  | record (result : RecipientResult)
  | finish
deriving Inhabited

abbrev BulkStep.Reply : BulkStep → Type
  | start _ => Unit
  | send _ => SendOutcome
  | record _ => Unit
  | finish => Option BulkReport

abbrev BulkSending := Dialogue BulkStep BulkStep.Reply

def doStep (step : BulkStep) : BulkSending step.Reply :=
  .put step

/-- Sends to the recipients that are still to come, and finishes the job. -/
def bulkRest (total : Nat) : List String → BulkSending BulkReport
  | [] => do return (← doStep .finish).getD { total := total, isDone := true }
  | recipient :: rest => do
    let outcome ← doStep (.send recipient)
    doStep (.record (outcome.forRecipient recipient))
    bulkRest total rest

/-- Sends to each recipient apart, and records what comes of it. -/
def bulkSend (recipients : List String) : BulkSending BulkReport := do
  doStep (.start recipients.length)
  bulkRest recipients.length recipients

/-! ## The dispatcher -/

structure Dispatcher where
  attempts : Attempts := {}
  logo : LogoCache := none
  jobs : BulkJobs := ∅
deriving Inhabited

namespace Dispatcher

def count (d : Dispatcher) (channel : Channel) (o : SendOutcome) : Dispatcher :=
  { d with attempts := d.attempts.count channel o }

/-- What a send that was tried comes to: its outcome is counted, and a logo is kept. -/
def conclude (d : Dispatcher) (channel : Channel) (result : Except DeliveryError Unit)
    (logo : LogoCache) : SendOutcome × Dispatcher :=
  let outcome := SendOutcome.ofResult result
  (outcome, { d with logo := logo }.count channel outcome)

def sendEmail (d : Dispatcher) (mail : Mail) : Delivering (SendOutcome × Dispatcher) := do
  let (result, logo) ← tryEmail d.logo mail
  return d.conclude .email result logo

def sendSms (d : Dispatcher) (recipients : List String) (message : String) :
    Delivering (SendOutcome × Dispatcher) := do
  return d.conclude .sms (← trySms recipients message) d.logo

/-- Does a step of a bulk job, with this way to send to one recipient. -/
def handle {m : Type → Type} [Monad m]
    (send : Dispatcher → String → m (SendOutcome × Dispatcher)) (job : String) :
    (step : BulkStep) → Dispatcher → m (step.Reply × Dispatcher)
  | .start total, d => return ((), { d with jobs := d.jobs.start job total })
  | .send recipient, d => send d recipient
  | .record result, d => return ((), { d with jobs := d.jobs.record job result })
  | .finish, d =>
    let jobs := d.jobs.finish job
    return (jobs.get? job, { d with jobs := jobs })

def runBulk (send : Dispatcher → String → Delivering (SendOutcome × Dispatcher)) (job : String)
    (d : Dispatcher) (recipients : List String) : Delivering (BulkReport × Dispatcher) :=
  (bulkSend recipients).relay (handle send job) d

def sendEmailBulk (d : Dispatcher) (job : String) (mail : Mail) :
    Delivering (BulkReport × Dispatcher) :=
  runBulk (fun d recipient => d.sendEmail { mail with recipients := [recipient] }) job d
    mail.recipients

def sendSmsBulk (d : Dispatcher) (job : String) (recipients : List String) (message : String) :
    Delivering (BulkReport × Dispatcher) :=
  runBulk (fun d recipient => d.sendSms [recipient] message) job d recipients

end Dispatcher

end Alerting.Delivery
