import Alerting.Dialogue
import Alerting.Json.Reader
import Alerting.Text.Basic
/-!
# Delivery settings

What has to be known to send mail and short messages.  Settings are shown with their secrets masked.
-/

namespace Alerting.Delivery

open Json.Reader

structure EmailSettings where
  host : String := ""
  port : Nat := 0
  username : Option String := none
  password : Option String := none
  useTls : Bool := false
  fromAddress : String := ""
  fromName : Option String := none
  brandName : String := ""
  /-- The address of the logo, which may hold the picture itself. -/
  logo : Option String := none
  baseTemplate : Option String := none
  footerText : Option String := none
deriving DecidableEq, Inhabited

structure SmsSettings where
  gatewayUrl : String := ""
  apiKey : String := ""
  sender : Option String := none
deriving DecidableEq, Inhabited

/-- The settings as they are at hand, or why they are not. -/
structure Provider where
  email : Except Failure (Option EmailSettings)
  sms : Except Failure (Option SmsSettings)

def portBound : Nat := Nat.pow 2 16

namespace EmailSettings

def isUsable (s : EmailSettings) : Bool :=
  !Text.isBlankText s.host && !Text.isBlankText s.fromAddress

/-- Reads settings; what is missing is empty. -/
def reader : Json.Reader EmailSettings :=
  record "settings for mail"
    [.optional "host" string fun v s => { s with host := v },
     .optional "port" (natural "u16" portBound) fun v s => { s with port := v },
     .optional "username" (optional string) fun v s => { s with username := v },
     .optional "password" (optional string) fun v s => { s with password := v },
     .optional "use_tls" bool fun v s => { s with useTls := v },
     .optional "from_address" string fun v s => { s with fromAddress := v },
     .optional "from_name" (optional string) fun v s => { s with fromName := v },
     .optional "brand_name" string fun v s => { s with brandName := v },
     .optional "logo" (optional string) fun v s => { s with logo := v },
     .optional "base_template" (optional string) fun v s => { s with baseTemplate := v },
     .optional "footer_text" (optional string) fun v s => { s with footerText := v }]
    {} true

def toJson (s : EmailSettings) : Json :=
  .ofFields
    [("host", .string s.host), ("port", .int s.port), ("username", .ofString? s.username),
     ("password", .ofString? s.password), ("use_tls", .bool s.useTls),
     ("from_address", .string s.fromAddress), ("from_name", .ofString? s.fromName),
     ("brand_name", .string s.brandName), ("logo", .ofString? s.logo),
     ("base_template", .ofString? s.baseTemplate), ("footer_text", .ofString? s.footerText)]

end EmailSettings

namespace SmsSettings

def isUsable (s : SmsSettings) : Bool :=
  !Text.isBlankText s.gatewayUrl && !Text.isBlankText s.apiKey

def reader : Json.Reader SmsSettings :=
  record "settings for short messages"
    [.optional "gateway_url" string fun v s => { s with gatewayUrl := v },
     .optional "api_key" string fun v s => { s with apiKey := v },
     .optional "sender" (optional string) fun v s => { s with sender := v }]
    {} true

def toJson (s : SmsSettings) : Json :=
  .ofFields
    [("gateway_url", .string s.gatewayUrl), ("api_key", .string s.apiKey),
     ("sender", .ofString? s.sender)]

end SmsSettings

/-! ## Shown -/

def secretMask : String := "***"

/-- A text that may be missing, as it is shown. -/
def shownText? (s : Option String) : String :=
  match s with
  | some s => "Some(" ++ Text.quoted s ++ ")"
  | none => "None"

/-- A named list of shown fields; it says so when some are left out. -/
def shownRecord (title : String) (fields : List (String × String)) (isWhole : Bool) : String :=
  let shown := fields.map fun (name, value) => name ++ ": " ++ value
  title ++ " \x7b " ++ ", ".intercalate (shown ++ if isWhole then [] else [".."]) ++ " \x7d"

namespace EmailSettings

private def shownAccount (s : EmailSettings) : List (String × String) :=
  [("host", Text.quoted s.host), ("port", toString s.port), ("username", shownText? s.username),
   ("password", shownText? (s.password.map fun _ => secretMask))]

def shown (s : EmailSettings) : String :=
  shownRecord "EmailSettings"
    (s.shownAccount
      ++ [("use_tls", if s.useTls then "true" else "false"),
          ("from_address", Text.quoted s.fromAddress), ("brand_name", Text.quoted s.brandName)])
    false

/-- The settings as they are shown where they are stored. -/
def shownStored (s : EmailSettings) : String :=
  shownRecord "EmailConfigRow" (s.shownAccount ++ [("from_address", Text.quoted s.fromAddress)])
    false

end EmailSettings

namespace SmsSettings

private def shownAs (title : String) (s : SmsSettings) : String :=
  shownRecord title
    [("gateway_url", Text.quoted s.gatewayUrl), ("api_key", Text.quoted secretMask),
     ("sender", shownText? s.sender)]
    true

def shown (s : SmsSettings) : String :=
  s.shownAs "SmsSettings"

def shownStored (s : SmsSettings) : String :=
  s.shownAs "SmsConfigRow"

end SmsSettings

end Alerting.Delivery
