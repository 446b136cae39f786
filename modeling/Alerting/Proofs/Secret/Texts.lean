import Alerting.Proofs.Secret.Gcm
import Alerting.Proofs.Text.Encoding
import Alerting.Secret
/-!
# Secrets, there and back

A secret that was encrypted can be read with the same key.  Any other text is refused for what is
wrong with it first: it is no base 64, or too short to be split into a nonce and something with a
tag.
-/

namespace Alerting.Secret

open Text

variable (key : Key)

theorem decrypt_of_not_base64 {secret : String}
    (h : ∀ bytes, secret ≠ Base64.encodeText bytes) :
    ∃ flaw, decrypt key secret = .error (.notBase64 flaw) := by
  have hdecode : Base64.decode secret.toList = none := by
    rw [Option.eq_none_iff_forall_ne_some]
    intro bytes hbytes
    apply h bytes
    rw [Base64.encodeText, ← Base64.decode_eq_some_iff.mp hbytes, String.ofList_toList]
  unfold decrypt
  rw [hdecode]
  exact ⟨_, rfl⟩

theorem decode_encodeText (bytes : List UInt8) :
    Base64.decode (Base64.encodeText bytes).toList = some bytes := by
  rw [Base64.encodeText, String.toList_ofList, Base64.decode_encode]

theorem decrypt_of_short {bytes : List UInt8}
    (h : bytes.length < Gcm.nonceLength + Gcm.tagLength) :
    decrypt key (Base64.encodeText bytes) = .error .tooShort := by
  unfold decrypt
  rw [decode_encodeText]
  exact if_pos h

theorem exists_split {bytes : List UInt8} (h : Gcm.nonceLength + Gcm.tagLength ≤ bytes.length) :
    ∃ (nonce : Nonce) (locked : List UInt8),
      bytes = nonce.bytes ++ locked ∧ Gcm.tagLength ≤ locked.length := by
  have hnonce : (bytes.take Gcm.nonceLength).length = Gcm.nonceLength := by
    rw [List.length_take]
    omega
  refine ⟨⟨bytes.take Gcm.nonceLength, hnonce⟩, bytes.drop Gcm.nonceLength,
    (List.take_append_drop _ _).symm, ?_⟩
  rw [List.length_drop]
  omega

theorem decrypt_of_split (nonce : Nonce) {locked : List UInt8}
    (h : Gcm.tagLength ≤ locked.length) :
    decrypt key (Base64.encodeText (nonce.bytes ++ locked)) =
      match Gcm.unlock? key.bytes nonce.bytes locked with
      | none => .error .notAuthentic
      | some bytes => (Utf8.decode bytes).mapError .notText := by
  have hlength : ¬ (nonce.bytes ++ locked).length < Gcm.nonceLength + Gcm.tagLength := by
    rw [List.length_append, nonce.length_eq]
    omega
  unfold decrypt
  rw [decode_encodeText]
  dsimp only
  rw [List.take_left' nonce.length_eq, List.drop_left' nonce.length_eq]
  exact if_neg hlength

theorem decrypt_encrypt (nonce : Nonce) (text : String) :
    decrypt key (encrypt key nonce text) = .ok text := by
  have htag : Gcm.tagLength ≤ (Gcm.lock key.bytes nonce.bytes (Utf8.encode text)).length := by
    rw [Gcm.length_lock key.length_eq nonce.length_eq]
    exact Nat.le_add_left _ _
  rw [encrypt, decrypt_of_split key nonce htag, Gcm.unlock?_lock key.length_eq nonce.length_eq]
  dsimp only
  rw [Utf8.decode_encode]
  rfl

theorem encrypt_ne_empty (nonce : Nonce) (text : String) : encrypt key nonce text ≠ "" := by
  intro hempty
  have hdecrypted := decrypt_encrypt key nonce text
  -- the empty text is the encoding of no bytes at all
  rw [hempty, show "" = Base64.encodeText [] from rfl, decrypt_of_short key (by decide)]
    at hdecrypted
  cases hdecrypted

/-- A secret that may be missing is read back; an empty one counts as missing. -/
theorem mapM_decrypt_encrypt? {ε : Type} (nonce : Nonce) (text : Option String)
    (f : SecretError → ε) :
    ((encrypt? key nonce text).mapM fun secret => (decrypt key secret).mapError f) =
      .ok (text.filter (· ≠ "")) := by
  unfold encrypt?
  cases text.filter (· ≠ "") with
  | none => rfl
  | some text =>
      rw [Option.map_some, Option.mapM_some, decrypt_encrypt]
      rfl

end Alerting.Secret
