import Alerting.Dialogue
import Alerting.Email.Address
import Alerting.Email.MediaType
/-!
# Delivery errors

Why something could not be sent.
-/

namespace Alerting.Delivery

inductive Channel where
  | email
  | sms
deriving DecidableEq, Repr, Inhabited

namespace Channel

/-- The name under which deliveries are counted. -/
def name : Channel → String
  | email => "email"
  | sms => "sms"

def title : Channel → String
  | email => "Email"
  | sms => "SMS"

end Channel

inductive DeliveryError where
  | notConfigured (channel : Channel)
  | settings (failure : Failure)
  | noRecipients
  | address (text : String) (error : Email.AddressError)
  | contentType (text : String) (flaw : Email.MediaType.Flaw)
  /-- What the mail server or the way to it reports. -/
  | mail (reason : String)
  /-- No answer came to a request over HTTP. -/
  | http (reason : String)
  /-- A service answered with a status that means failure. -/
  | refused (service : String) (status : Nat) (body : String)
  /-- Some recipients of a short message could not be reached. -/
  | partialFailure (failed total : Nat) (first : String)
deriving DecidableEq, Repr

def DeliveryError.message : DeliveryError → String
  | notConfigured channel => channel.title ++ " is not configured"
  | settings failure => "Notify: failed to load settings: " ++ failure.full
  | noRecipients => "Notify: no recipients"
  | address text error => "Notify: invalid address '" ++ text ++ "': " ++ error.message
  | contentType text flaw => "Notify: failed to build message: " ++ text ++ ": " ++ flaw.message
  | mail reason => "Notify: SMTP error: " ++ reason
  | http reason => "Notify: HTTP request failed: " ++ reason
  | refused service status body =>
    "Notify: API error from " ++ service ++ ": status=" ++ toString status ++ ", body=" ++ body
  | partialFailure failed total first =>
    "Notify: SMS failed for " ++ toString failed ++ " of " ++ toString total ++ " recipients: "
      ++ first

end Alerting.Delivery
