import Alerting.Store
/-!
# Settings in the store

There is one set of settings for mail and one for short messages, each in a table of its own under
an id that is always the same.  Saving replaces what was there, and locks the secret with a number
that is used once.
-/

namespace Alerting

open Delivery

def Store.settingsId : String := "default"

/-- Puts a row into a table: over the one with its id, or behind the others. -/
def Store.upsert {α : Type} (id : α → String) (row : α) (table : List α) : List α :=
  if table.any (id · = id row) then table.map fun r => if id r = id row then row else r
  else table ++ [row]

def StoredEmail.ofSettings (key : Secret.Key) (nonce : Secret.Nonce) (s : EmailSettings) :
    StoredEmail where
  id := Store.settingsId
  settings := { s with port := 0, password := none }
  port := s.port
  password := Secret.encrypt? key nonce s.password

def StoredEmail.unlock (stored : StoredEmail) (key : Secret.Key) :
    Except StoreError EmailSettings := do
  let password ← stored.password.mapM fun secret =>
    (Secret.decrypt key secret).mapError StoreError.emailPassword
  if stored.port < 0 || portBound ≤ stored.port then throw (.emailPort stored.port)
  return { stored.settings with port := stored.port.toNat, password := password }

def StoredSms.ofSettings (key : Secret.Key) (nonce : Secret.Nonce) (s : SmsSettings) :
    StoredSms where
  id := Store.settingsId
  settings := { s with apiKey := "" }
  apiKey := (Secret.encrypt? key nonce (some s.apiKey)).getD ""

def StoredSms.unlock (stored : StoredSms) (key : Secret.Key) : Except StoreError SmsSettings := do
  let apiKey ← if stored.apiKey = "" then pure "" else
    (Secret.decrypt key stored.apiKey).mapError StoreError.smsKey
  return { stored.settings with apiKey := apiKey }

namespace Store

def saveEmail (s : Store) (nonce : Secret.Nonce) (settings : EmailSettings) : Store :=
  { s with email := upsert StoredEmail.id (.ofSettings s.key nonce settings) s.email }

def emailSettings (s : Store) : Except StoreError (Option EmailSettings) :=
  (s.email.find? (·.id = settingsId)).mapM (·.unlock s.key)

def saveSms (s : Store) (nonce : Secret.Nonce) (settings : SmsSettings) : Store :=
  { s with sms := upsert StoredSms.id (.ofSettings s.key nonce settings) s.sms }

def smsSettings (s : Store) : Except StoreError (Option SmsSettings) :=
  (s.sms.find? (·.id = settingsId)).mapM (·.unlock s.key)

def provider (s : Store) : Provider :=
  ⟨s.emailSettings.mapError StoreError.failure, s.smsSettings.mapError StoreError.failure⟩

end Store

end Alerting
