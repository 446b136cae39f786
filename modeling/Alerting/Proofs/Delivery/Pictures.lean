import Alerting.Proofs.Delivery.Mail
import Alerting.Proofs.Email.Letter
/-!
# The pictures of a letter

A letter shows the pictures of its mail and then the logo, if one was loaded.  Every logo has the
same content id, also one that was kept from an earlier mail.
-/

namespace Alerting.Delivery

open Email

/-! ## Logos -/

def LogoCache.IsSound (cache : LogoCache) : Prop :=
  ∀ entry ∈ cache, entry.2.contentId = logoContentId

section Logo

variable {rely : (n : Need) → n.Reply → Prop} {cache : LogoCache} (hcache : cache.IsSound)

include hcache

theorem ensures_loadLogo (source : String) :
    (loadLogo cache source).Ensures rely fun found =>
      (∀ image ∈ found.1.toOption, image.contentId = logoContentId) ∧
        LogoCache.IsSound found.2 := by
  unfold loadLogo
  split
  · next image hfilter =>
    have hentry := (Option.filter_eq_some_iff.mp hfilter).1
    refine (Dialogue.ensures_pure _).mpr ⟨?_, hcache⟩
    rintro _ ⟨⟩
    exact hcache _ hentry
  · rw [Dialogue.ensures_bind]
    refine Dialogue.ensures_of_forall _ fun media? => ?_
    cases media? with
    | error e => exact (Dialogue.ensures_pure _).mpr ⟨by rintro _ ⟨⟩, hcache⟩
    | ok media =>
        refine (Dialogue.ensures_pure _).mpr ⟨?_, ?_⟩
        · rintro _ ⟨⟩
          rfl
        · rintro _ ⟨⟩
          rfl

theorem ensures_logoFor (s : EmailSettings) :
    (logoFor cache s).Ensures rely fun found =>
      (∀ image ∈ found.1, image.contentId = logoContentId) ∧ LogoCache.IsSound found.2 := by
  unfold logoFor
  split
  · exact (Dialogue.ensures_pure _).mpr ⟨by rintro _ ⟨⟩, hcache⟩
  · rw [Dialogue.ensures_bind]
    exact (ensures_loadLogo hcache _).mono fun found hfound => hfound

theorem ensures_tryEmail (mail : Mail) :
    (tryEmail cache mail).Ensures rely fun tried => LogoCache.IsSound tried.2 := by
  rw [tryEmail_eq, Dialogue.ensures_bind]
  refine Dialogue.ensures_of_forall _ fun loaded => ?_
  cases mail.settings loaded with
  | error e => exact (Dialogue.ensures_pure _).mpr hcache
  | ok settings =>
      dsimp only
      rw [Dialogue.ensures_bind]
      refine (ensures_logoFor hcache settings).mono fun found hfound => ?_
      rw [Dialogue.ensures_bind]
      exact Dialogue.ensures_of_forall _ fun result => hfound.2

end Logo

/-! ## Dispatchers -/

inductive Order where
  | email (mail : Mail)
  | sms (recipients : List String) (message : String)
  | emailBulk (job : String) (mail : Mail)
  | smsBulk (job : String) (recipients : List String) (message : String)

namespace Dispatcher

def after (d : Dispatcher) : Order → Delivering Dispatcher
  | .email mail => (·.2) <$> d.sendEmail mail
  | .sms recipients message => (·.2) <$> d.sendSms recipients message
  | .emailBulk job mail => (·.2) <$> d.sendEmailBulk job mail
  | .smsBulk job recipients message => (·.2) <$> d.sendSmsBulk job recipients message

def afterAll (d : Dispatcher) : List Order → Delivering Dispatcher
  | [] => return d
  | order :: rest => do (← d.after order).afterAll rest

def IsSound (d : Dispatcher) : Prop :=
  d.logo.IsSound

section Sound

variable {rely : (n : Need) → n.Reply → Prop} {d : Dispatcher} (hd : d.IsSound)

include hd

theorem ensures_sendEmail (mail : Mail) :
    (d.sendEmail mail).Ensures rely fun sent => sent.2.IsSound := by
  unfold sendEmail
  rw [Dialogue.ensures_bind]
  exact ensures_tryEmail hd mail

theorem ensures_sendSms (recipients : List String) (message : String) :
    (d.sendSms recipients message).Ensures rely fun sent => sent.2.IsSound := by
  unfold sendSms
  rw [Dialogue.ensures_bind]
  exact Dialogue.ensures_of_forall _ fun result => hd

theorem ensures_runBulk {send : Dispatcher → String → Delivering (SendOutcome × Dispatcher)}
    (hsend : ∀ d recipient, d.IsSound →
      (send d recipient).Ensures rely fun sent => sent.2.IsSound)
    (job : String) (recipients : List String) :
    (runBulk send job d recipients).Ensures rely fun done => done.2.IsSound := by
  have hbulk : (bulkSend recipients).Ensures (fun _ _ => True) fun _ => True :=
    Dialogue.ensures_of_forall _ fun _ => trivial
  have hrelay : ((bulkSend recipients).relay (handle send job) d).Ensures rely fun done =>
      True ∧ done.2.IsSound := by
    refine hbulk.relay (fun step d hd => ?_) hd
    cases step with
    | send recipient => exact (hsend d recipient hd).mono fun sent hsent => ⟨trivial, hsent⟩
    | _ => exact (Dialogue.ensures_pure _).mpr ⟨trivial, hd⟩
  exact hrelay.mono fun done hdone => hdone.2

theorem ensures_after (order : Order) :
    (d.after order).Ensures rely fun d' => d'.IsSound := by
  cases order with
  | email mail => exact (Dialogue.ensures_map _ _).mpr (ensures_sendEmail hd mail)
  | sms recipients message =>
      exact (Dialogue.ensures_map _ _).mpr (ensures_sendSms hd recipients message)
  | emailBulk job mail =>
      refine (Dialogue.ensures_map _ _).mpr (ensures_runBulk hd (fun d recipient hd => ?_) _ _)
      exact ensures_sendEmail hd _
  | smsBulk job recipients message =>
      refine (Dialogue.ensures_map _ _).mpr (ensures_runBulk hd (fun d recipient hd => ?_) _ _)
      exact ensures_sendSms hd [recipient] message

theorem ensures_afterAll (orders : List Order) :
    (d.afterAll orders).Ensures rely fun d' => d'.IsSound := by
  induction orders generalizing d with
  | nil => exact (Dialogue.ensures_pure _).mpr hd
  | cons order rest ih =>
      rw [afterAll, Dialogue.ensures_bind]
      exact (ensures_after hd order).mono fun d' hd' => ih hd'

end Sound

end Dispatcher

/-! ## Letters -/

end Alerting.Delivery

namespace Alerting.Email.Letter

open Delivery Json

theorem build_eq_ok {sender : Mailbox} {recipients : List String} {subject html : String}
    {images : List InlineImage} {letter : Letter}
    (h : build sender recipients subject html images = .ok letter) :
    letter.html = html ∧
      letter.pictures.map (fun p => (p.contentId, p.bytes)) =
        images.map fun image => (image.contentId, image.bytes) := by
  obtain ⟨hhtml, hpictures⟩ := pictures_of_build h
  exact ⟨hhtml, map_eq_of_mapM hpictures fun image p => picture_eq_ok⟩

end Alerting.Email.Letter

namespace Alerting.Delivery

open Email

theorem Mail.of_settings_eq_ok (mail : Mail) {loaded : Except Failure (Option EmailSettings)}
    {settings : EmailSettings} (h : mail.settings loaded = .ok settings) :
    loaded = .ok (some settings) := by
  match loaded with
  | .error failure => cases h
  | .ok none => cases h
  | .ok (some s) =>
      rw [mail.settings_some] at h
      split at h
      · split at h
        · cases h
        · cases h
          rfl
      · cases h

section Transmissions

variable {σ : Type} (people : (n : Need) → σ → n.Reply × σ)

theorem mem_transmissions_transmit {server server' : MailServer} {letter letter' : Letter} {m : σ}
    (h : (server', letter') ∈ transmissions ((transmit server letter).exchanges people m)) :
    letter' = letter := by
  obtain ⟨e, he, hletter⟩ := List.mem_filterMap.mp h
  have hasks : (transmit server letter).Asks (· = .transmit server letter) :=
    (asks_retry (Dialogue.asks_put rfl) _).bind fun _ => Dialogue.asks_pure _
  obtain ⟨n, reply⟩ := e
  obtain rfl : n = .transmit server letter := hasks.of_mem_exchanges he
  cases hletter
  rfl

/-- The letters that go out are the one that the mail becomes. -/
theorem letter_of_mem_transmissions {s : EmailSettings} {mail : Mail} {logo : Option InlineImage}
    {server : MailServer} {letter : Letter} {m : σ}
    (h : (server, letter) ∈ transmissions ((sendFramed s mail logo).exchanges people m)) :
    s.letter mail logo (people .year m).1 = .ok letter := by
  rw [sendFramed_eq, Dialogue.exchanges_seq, run_need, exchanges_need, transmissions_append] at h
  change _ ∈ transmissions (Dialogue.exchanges people _ _) at h
  cases hletter : s.letter mail logo (people .year m).1 with
  | error e =>
      rw [hletter] at h
      exact absurd h List.not_mem_nil
  | ok built =>
      rw [hletter] at h
      rw [mem_transmissions_transmit people h]

theorem mem_transmissions_sendFramed {s : EmailSettings} {mail : Mail} {logo : Option InlineImage}
    {server : MailServer} {letter : Letter} {m : σ}
    (h : (server, letter) ∈ transmissions ((sendFramed s mail logo).exchanges people m)) :
    letter.html = (s.branding logo.isSome).wrap (people .year m).1 mail.html ∧
      letter.pictures.map (fun p => (p.contentId, p.bytes)) =
        (mail.images ++ logo.toList).map fun image => (image.contentId, image.bytes) := by
  have hletter := letter_of_mem_transmissions people h
  unfold EmailSettings.letter at hletter
  obtain ⟨sender, -, hbuild⟩ := Json.exists_of_bind_eq_ok hletter
  exact Letter.build_eq_ok hbuild

/-- A letter goes out with the settings at hand, and with the logo that is found with them. -/
theorem mem_transmissions_sendEmail {d : Dispatcher} {mail : Mail} {server : MailServer}
    {letter : Letter} {m : σ}
    (h : (server, letter) ∈ transmissions ((d.sendEmail mail).exchanges people m)) :
    ∃ settings, (people .emailSettings m).1 = .ok (some settings) ∧
      let found := (logoFor d.logo settings).run people (people .emailSettings m).2
      (server, letter) ∈
        transmissions ((sendFramed settings mail found.1.1).exchanges people found.2) := by
  rw [(sendEmail_eq people mail d).2] at h
  cases hsettings : mail.settings (people .emailSettings m).1 with
  | error e =>
      rw [(tryEmail_of_error people d.logo mail hsettings).2] at h
      exact absurd h List.not_mem_nil
  | ok settings =>
      refine ⟨settings, mail.of_settings_eq_ok hsettings, ?_⟩
      rw [(tryEmail_of_ok people d.logo mail hsettings).2] at h
      obtain ⟨e, he, hletter⟩ := List.mem_filterMap.mp h
      rcases List.mem_cons.mp he with rfl | he
      · cases hletter
      rcases List.mem_append.mp he with he | he
      · have hnil := transmissions_logoFor people d.logo settings (people .emailSettings m).2
        exact absurd (List.filterMap_eq_nil_iff.mp hnil e he) (by rw [hletter]; nofun)
      · exact List.mem_filterMap.mpr ⟨e, he, hletter⟩

end Transmissions

end Alerting.Delivery
