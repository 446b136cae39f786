import Alerting.Dialogue
import Alerting.Secret.Gcm
import Alerting.Text.Base64
import Alerting.Text.Utf8
/-!
# Secrets

Texts that are stored encrypted.  A stored secret is the base 64 text of a nonce and of what was
locked with it, so it can be read back with the key alone.
-/

namespace Alerting

open Text

namespace Secret

def keyLength : Nat := 32

structure Key where
  bytes : List UInt8
  length_eq : bytes.length = keyLength
deriving DecidableEq

structure Nonce where
  bytes : List UInt8
  length_eq : bytes.length = Gcm.nonceLength
deriving DecidableEq

end Secret

inductive SecretError where
  | keyLength (actual : Nat)
  | notBase64 (flaw : Base64.Flaw)
  | tooShort
  | notAuthentic
  | notText (flaw : Utf8.Flaw)
deriving DecidableEq, Repr

namespace SecretError

def failure : SecretError → Failure
  | keyLength actual => .ofMessage <|
    "Invalid secret encryption key length: expected " ++ toString Secret.keyLength ++ " bytes, got "
      ++ toString actual
  | notBase64 flaw => ⟨"secret is not valid base64", [flaw.message]⟩
  | tooShort => .ofMessage "Encrypted data too short"
  | notAuthentic => .ofMessage "Decryption failed"
  | notText flaw => .ofMessage flaw.message

end SecretError

namespace Secret

def Key.ofBytes (bytes : List UInt8) : Except SecretError Key :=
  if h : bytes.length = keyLength then .ok ⟨bytes, h⟩ else .error (.keyLength bytes.length)

def Nonce.ofBytes? (bytes : List UInt8) : Option Nonce :=
  if h : bytes.length = Gcm.nonceLength then some ⟨bytes, h⟩ else none

def encrypt (key : Key) (nonce : Nonce) (text : String) : String :=
  Base64.encodeText (nonce.bytes ++ Gcm.lock key.bytes nonce.bytes (Utf8.encode text))

/-- Encrypts a text unless it is empty. -/
def encrypt? (key : Key) (nonce : Nonce) (text : Option String) : Option String :=
  (text.filter (· ≠ "")).map (encrypt key nonce)

def decrypt (key : Key) (secret : String) : Except SecretError String :=
  match Base64.decode secret.toList with
  | none => .error (.notBase64 (Base64.flaw (Utf8.encode secret)))
  | some data =>
    if data.length < Gcm.nonceLength + Gcm.tagLength then .error .tooShort
    else
      match Gcm.unlock? key.bytes (data.take Gcm.nonceLength) (data.drop Gcm.nonceLength) with
      | none => .error .notAuthentic
      | some bytes => (Utf8.decode bytes).mapError .notText

end Secret

end Alerting
