import Alerting.Proofs.Secret.Texts
import Alerting.Store.Settings
import Mathlib.Data.List.Induction
/-!
# Settings, saved and read back

Whatever is saved for one kind of message is what is read for it until the next saving, and has no
effect on the other kind.  A table of settings never has more than the one row that is saved over.
-/

namespace Alerting

open Delivery

/-! ## Rows -/

namespace Store

section Upsert

variable {α : Type} (id : α → String) (row : α) (table : List α)

theorem find?_upsert : (upsert id row table).find? (id · = id row) = some row := by
  unfold upsert
  split
  · next htaken =>
    rw [List.find?_map]
    obtain ⟨r, hr⟩ := Option.isSome_iff_exists.mp
      (List.find?_isSome.mpr (List.any_eq_true.mp htaken))
    have hfound : table.find? ((id · = id row) ∘ fun r => if id r = id row then row else r) =
        some r := by
      rw [← hr]
      congr 1
      funext r
      by_cases hid : id r = id row <;> simp [hid]
    have hid : id r = id row := by simpa using List.find?_some hr
    rw [hfound, Option.map_some, if_pos hid]
  · next hfree =>
    have hnone : table.find? (id · = id row) = none := by simpa using hfree
    rw [List.find?_append, hnone, Option.none_or, List.find?_singleton, decide_eq_true rfl]
    rfl

variable {id row table}

theorem upsert_eq_singleton (hid : ∀ r ∈ table, id r = id row) (hlength : table.length ≤ 1) :
    upsert id row table = [row] := by
  match table, hid, hlength with
  | [], _, _ => rfl
  | [r], hid, _ =>
    have hr : id r = id row := hid r List.mem_cons_self
    simp [upsert, hr]

end Upsert

end Store

/-! ## Reading back -/

/-- The settings as they are read back: an empty password is none. -/
def Delivery.EmailSettings.readBack (e : EmailSettings) : EmailSettings :=
  { e with password := e.password.filter (· ≠ "") }

theorem StoredEmail.unlock_ofSettings (key : Secret.Key) (nonce : Secret.Nonce)
    {e : EmailSettings} (hport : e.port < portBound) :
    (StoredEmail.ofSettings key nonce e).unlock key = .ok e.readBack := by
  have hlow : ¬ (e.port : Int) < 0 := by omega
  have hhigh : ¬ (portBound : Int) ≤ e.port := by omega
  unfold StoredEmail.unlock StoredEmail.ofSettings
  dsimp only
  rw [Secret.mapM_decrypt_encrypt?]
  dsimp only [bind, Except.bind]
  rw [decide_eq_false hlow, decide_eq_false hhigh]
  rfl

theorem StoredSms.unlock_ofSettings (key : Secret.Key) (nonce : Secret.Nonce) (e : SmsSettings) :
    (StoredSms.ofSettings key nonce e).unlock key = .ok e := by
  unfold StoredSms.unlock StoredSms.ofSettings Secret.encrypt?
  by_cases hempty : e.apiKey = ""
  · rw [hempty]
    cases e
    cases hempty
    rfl
  · have hfilter : (some e.apiKey).filter (· ≠ "") = some e.apiKey := by simp [hempty]
    dsimp only
    rw [hfilter, Option.map_some, Option.getD_some, if_neg (Secret.encrypt_ne_empty key nonce _),
      Secret.decrypt_encrypt]
    rfl

namespace Store

section Saving

variable (s : Store) (nonce : Secret.Nonce)

theorem emailSettings_saveEmail {e : EmailSettings} (hport : e.port < portBound) :
    (s.saveEmail nonce e).emailSettings = .ok (some e.readBack) := by
  have hrow : (upsert StoredEmail.id (.ofSettings s.key nonce e) s.email).find?
      (·.id = settingsId) = some (.ofSettings s.key nonce e) :=
    find?_upsert StoredEmail.id (.ofSettings s.key nonce e) s.email
  unfold emailSettings saveEmail
  dsimp only
  rw [hrow, Option.mapM_some, StoredEmail.unlock_ofSettings s.key nonce hport]
  rfl

theorem smsSettings_saveSms (e : SmsSettings) :
    (s.saveSms nonce e).smsSettings = .ok (some e) := by
  have hrow : (upsert StoredSms.id (.ofSettings s.key nonce e) s.sms).find?
      (·.id = settingsId) = some (.ofSettings s.key nonce e) :=
    find?_upsert StoredSms.id (.ofSettings s.key nonce e) s.sms
  unfold smsSettings saveSms
  dsimp only
  rw [hrow, Option.mapM_some, StoredSms.unlock_ofSettings]
  rfl

end Saving

/-! ## Savings -/

/-- Settings that are saved, with the number that locks their secret. -/
inductive Saving where
  | email (nonce : Secret.Nonce) (settings : EmailSettings) (hport : settings.port < portBound)
  | sms (nonce : Secret.Nonce) (settings : SmsSettings)

namespace Saving

def email? : Saving → Option EmailSettings
  | email _ settings _ => some settings
  | sms _ _ => none

def sms? : Saving → Option SmsSettings
  | email _ _ _ => none
  | sms _ settings => some settings

end Saving

def save (s : Store) : Saving → Store
  | .email nonce settings _ => s.saveEmail nonce settings
  | .sms nonce settings => s.saveSms nonce settings

def saveAll (s : Store) (savings : List Saving) : Store :=
  savings.foldl save s

theorem saveAll_concat (s : Store) (earlier : List Saving) (last : Saving) :
    s.saveAll (earlier ++ [last]) = (s.saveAll earlier).save last :=
  List.foldl_append

theorem emailSettings_saveAll (s : Store) (savings : List Saving) :
    (s.saveAll savings).emailSettings =
      match (savings.filterMap Saving.email?).getLast? with
      | some e => .ok (some e.readBack)
      | none => s.emailSettings := by
  induction savings using List.reverseRecOn with
  | nil => rfl
  | append_singleton earlier last ih =>
      rw [saveAll_concat, List.filterMap_append]
      cases last with
      | email nonce settings hport =>
          have hlast :
              [Saving.email nonce settings hport].filterMap Saving.email? = [settings] := rfl
          rw [save, emailSettings_saveEmail _ nonce hport, hlast, List.getLast?_concat]
      | sms nonce settings =>
          rw [List.filterMap_cons_none rfl, List.filterMap_nil, List.append_nil, ← ih]
          rfl

theorem smsSettings_saveAll (s : Store) (savings : List Saving) :
    (s.saveAll savings).smsSettings =
      match (savings.filterMap Saving.sms?).getLast? with
      | some e => .ok (some e)
      | none => s.smsSettings := by
  induction savings using List.reverseRecOn with
  | nil => rfl
  | append_singleton earlier last ih =>
      rw [saveAll_concat, List.filterMap_append]
      cases last with
      | email nonce settings hport =>
          rw [List.filterMap_cons_none rfl, List.filterMap_nil, List.append_nil, ← ih]
          rfl
      | sms nonce settings =>
          have hlast : [Saving.sms nonce settings].filterMap Saving.sms? = [settings] := rfl
          rw [save, smsSettings_saveSms, hlast, List.getLast?_concat]

/-- A table holds at most the row that is saved over. -/
structure IsSingle (s : Store) : Prop where
  email_length : s.email.length ≤ 1
  email_id : ∀ row ∈ s.email, row.id = settingsId
  sms_length : s.sms.length ≤ 1
  sms_id : ∀ row ∈ s.sms, row.id = settingsId

theorem IsSingle.save {s : Store} (h : s.IsSingle) (saving : Saving) :
    (s.save saving).IsSingle := by
  cases saving with
  | email nonce settings hport =>
      have hrows : (s.saveEmail nonce settings).email = [.ofSettings s.key nonce settings] :=
        upsert_eq_singleton h.email_id h.email_length
      refine ⟨?_, ?_, h.sms_length, h.sms_id⟩
      · exact Nat.le_of_eq (congrArg List.length hrows)
      · intro row hrow
        rw [Store.save, hrows, List.mem_singleton] at hrow
        rw [hrow]
        rfl
  | sms nonce settings =>
      have hrows : (s.saveSms nonce settings).sms = [.ofSettings s.key nonce settings] :=
        upsert_eq_singleton h.sms_id h.sms_length
      refine ⟨h.email_length, h.email_id, ?_, ?_⟩
      · exact Nat.le_of_eq (congrArg List.length hrows)
      · intro row hrow
        rw [Store.save, hrows, List.mem_singleton] at hrow
        rw [hrow]
        rfl

theorem IsSingle.saveAll {s : Store} (h : s.IsSingle) (savings : List Saving) :
    (s.saveAll savings).IsSingle := by
  induction savings generalizing s with
  | nil => exact h
  | cons saving rest ih => exact ih (h.save saving)

open Secret Text in
/-- Under every key, after any savings into a store without settings, each kind of settings is read
back as it was saved last, except that an empty password is none, and each table has at most one
row.  An encrypted text is decrypted to itself.  Any other text is refused if it is no base 64 or
has too few bytes; else its bytes are split into a whole nonce and something that is long enough for
a tag. -/
theorem settings_of_savings (s : Store) (savings : List Saving) :
    let later := { s with email := [], sms := [] }.saveAll savings
    later.emailSettings =
        .ok ((savings.filterMap Saving.email?).getLast?.map fun e =>
          { e with password := if e.password = some "" then none else e.password }) ∧
      later.smsSettings = .ok (savings.filterMap Saving.sms?).getLast? ∧
      (later.email.length ≤ 1 ∧ later.sms.length ≤ 1) ∧
      (∀ nonce text, decrypt s.key (encrypt s.key nonce text) = .ok text) ∧
      (∀ text, (∀ bytes, text ≠ Base64.encodeText bytes) →
        ∃ flaw, decrypt s.key text = .error (.notBase64 flaw)) ∧
      (∀ bytes, bytes.length < Gcm.nonceLength + Gcm.tagLength →
        decrypt s.key (Base64.encodeText bytes) = .error .tooShort) ∧
      ∀ bytes, Gcm.nonceLength + Gcm.tagLength ≤ bytes.length →
        ∃ (nonce : Nonce) (locked : List UInt8),
          bytes = nonce.bytes ++ locked ∧ Gcm.tagLength ≤ locked.length ∧
          decrypt s.key (Base64.encodeText bytes) =
            match Gcm.unlock? s.key.bytes nonce.bytes locked with
            | none => .error .notAuthentic
            | some opened => (Utf8.decode opened).mapError .notText := by
  intro later
  have hsingle : later.IsSingle :=
    IsSingle.saveAll (s := { s with email := [], sms := [] })
      ⟨Nat.zero_le _, nofun, Nat.zero_le _, nofun⟩ savings
  refine ⟨?_, ?_, ⟨hsingle.email_length, hsingle.sms_length⟩, decrypt_encrypt s.key,
    fun _ => decrypt_of_not_base64 s.key, fun _ => decrypt_of_short s.key, ?_⟩
  · refine (emailSettings_saveAll _ savings).trans ?_
    cases (savings.filterMap Saving.email?).getLast? with
    | none => rfl
    | some e =>
        have hpassword : e.password.filter (· ≠ "") =
            if e.password = some "" then none else e.password := by
          cases e.password with
          | none => rfl
          | some password => by_cases h : password = "" <;> simp [h]
        change Except.ok (some e.readBack) = _
        rw [EmailSettings.readBack, hpassword]
        rfl
  · refine (smsSettings_saveAll _ savings).trans ?_
    cases (savings.filterMap Saving.sms?).getLast? <;> rfl
  · intro bytes hlength
    obtain ⟨nonce, locked, rfl, hlocked⟩ := exists_split hlength
    exact ⟨nonce, locked, rfl, hlocked, decrypt_of_split s.key nonce hlocked⟩

end Store

end Alerting
