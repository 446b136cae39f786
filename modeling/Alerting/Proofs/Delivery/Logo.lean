import Alerting.Proofs.Delivery.Mail
import Alerting.Proofs.Email.Letter
/-!
# Mails with and without a logo

What the logo changes about sending a mail.  A logo that cannot be loaded is left out; one that is
loaded goes into the letter, which can only be built if its content has a media type.
-/

namespace Alerting

namespace Delivery

open Email

/-! ## The logo host and the mail server -/

/-- A logo host and a mail server, each with a memory of its own.  The mail server looks at the
envelope of a letter and not into it. -/
structure Office (σ τ : Type) where
  year : Int
  host : Http.Request → τ → Http.Reply × τ
  mailServer : MailServer → Mailbox → List Mailbox → σ → Except String Unit × σ

namespace Office

variable {σ τ : Type} (o : Office σ τ)

def people (settings : EmailSettings) : (n : Need) → σ × τ → n.Reply × (σ × τ)
  | .emailSettings, m => (.ok (some settings), m)
  | .smsSettings, m => (.ok none, m)
  | .year, m => (o.year, m)
  | .fetch request, m => ((o.host request m.2).1, m.1, (o.host request m.2).2)
  | .transmit server letter, m =>
    let (reply, after) := o.mailServer server letter.sender letter.recipients m.1
    (reply, after, m.2)

variable (s s' : EmailSettings) (mail : Mail)

theorem fst_run_logoFor (cache : LogoCache) (m : σ × τ) :
    ((logoFor cache s).run (o.people s') m).2.1 = m.1 := by
  refine (asks_logoFor cache s).view_run Prod.fst ?_ m
  intro n m hn
  cases n with
  | fetch request => rfl
  | _ => exact hn.elim

theorem run_sendFramed_congr (logo : Option InlineImage) {m m' : σ × τ} (hm : m.1 = m'.1) :
    ((sendFramed s mail logo).run (o.people s) m).1 =
        ((sendFramed s mail logo).run (o.people s') m').1 ∧
      (sendFramed s mail logo).exchanges (o.people s) m =
        (sendFramed s mail logo).exchanges (o.people s') m' := by
  have hsame := (asks_sendFramed s mail logo).simulate (fun m m' => m.1 = m'.1)
    (o.people s) (o.people s') ?_ hm
  · exact ⟨hsame.1, hsame.2.1⟩
  · rintro n ⟨m, h⟩ ⟨m', h'⟩ hn rfl
    cases n with
    | year => exact ⟨rfl, rfl⟩
    | transmit server letter => exact ⟨rfl, rfl⟩
    | _ => exact hn.elim

section Envelope

variable (letter letter' : Letter) (hsender : letter.sender = letter'.sender)
  (hrecipients : letter.recipients = letter'.recipients) (server : MailServer)

include hsender hrecipients

theorem people_transmit {m m' : σ × τ} (hm : m.1 = m'.1) :
    (o.people s (.transmit server letter) m).1 = (o.people s' (.transmit server letter') m').1 ∧
      (o.people s (.transmit server letter) m).2.1 =
        (o.people s' (.transmit server letter') m').2.1 := by
  simp only [people, hsender, hrecipients, hm, and_self]

theorem run_retry_transmit (more : Nat) {m m' : σ × τ} (hm : m.1 = m'.1) :
    ((retry more (need (.transmit server letter))).run (o.people s) m).1 =
      ((retry more (need (.transmit server letter'))).run (o.people s') m').1 := by
  induction more generalizing m m' with
  | zero => exact (o.people_transmit s s' letter letter' hsender hrecipients server hm).1
  | succ more ih =>
      obtain ⟨hreply, hafter⟩ := o.people_transmit s s' letter letter' hsender hrecipients server hm
      rw [retry, retry, Dialogue.run_seq, Dialogue.run_seq, run_need, run_need, hreply]
      cases (o.people s' (.transmit server letter') m').1 with
      | ok a => rfl
      | error e => exact ih hafter

theorem run_transmit {m m' : σ × τ} (hm : m.1 = m'.1) :
    ((transmit server letter).run (o.people s) m).1 =
      ((transmit server letter').run (o.people s') m').1 := by
  rw [transmit, transmit, Dialogue.run_seq, Dialogue.run_seq,
    o.run_retry_transmit s s' letter letter' hsender hrecipients server maxRetries hm]
  rfl

end Envelope

/-- A letter that shows a logo is sent as well as one without, if the logo has a media type. -/
theorem isOk_run_sendFramed (image : InlineImage) {m m' : σ × τ} (hm : m.1 = m'.1) :
    ((sendFramed s mail (some image)).run (o.people s) m).1.isOk =
      (((sendFramed s mail none).run (o.people s') m').1.isOk &&
        (MediaType.ofText image.contentType).isOk) := by
  have hyear : ∀ settings (m : σ × τ), (need .year).run (o.people settings) m = (o.year, m) :=
    fun _ _ => rfl
  rw [sendFramed, sendFramed, Dialogue.run_seq, Dialogue.run_seq, hyear, hyear]
  cases s.sender with
  | error e => rfl
  | ok sender =>
      simp only [Option.toList_some, Option.toList_none, List.append_nil]
      rw [Letter.build_concat _ _ _ _ ((s.branding none.isSome).wrap o.year mail.html),
        ← Letter.isOk_picture]
      cases Letter.build sender mail.recipients mail.subject
        ((s.branding none.isSome).wrap o.year mail.html) mail.images with
      | error e => rfl
      | ok letter =>
          cases Letter.picture image with
          | error e => exact (Bool.and_false _).symm
          | ok added =>
              let shown : Letter :=
                { letter with
                  html := (s.branding (some image).isSome).wrap o.year mail.html
                  pictures := letter.pictures ++ [added] }
              have hsame : ((transmit s.server shown).run (o.people s) m).1 =
                  ((transmit s.server letter).run (o.people s') m').1 :=
                o.run_transmit s s' shown letter rfl rfl s.server hm
              exact (congrArg Except.isOk hsame).trans (Bool.and_true _).symm

end Office

/-! ## With and without -/

namespace EmailSettings

def plain (s : EmailSettings) : EmailSettings :=
  { s with logo := none }

theorem isUsable_plain (s : EmailSettings) : s.plain.isUsable = s.isUsable := rfl

end EmailSettings

theorem Mail.settings_plain (mail : Mail) (s : EmailSettings) :
    (∃ e, mail.settings (.ok (some s)) = .error e ∧ mail.settings (.ok (some s.plain)) = .error e) ∨
      mail.settings (.ok (some s)) = .ok s ∧ mail.settings (.ok (some s.plain)) = .ok s.plain := by
  rw [mail.settings_some, mail.settings_some, s.isUsable_plain]
  cases s.isUsable with
  | false => exact .inl ⟨_, rfl, rfl⟩
  | true =>
      cases mail.recipients.isEmpty with
      | true => exact .inl ⟨_, rfl, rfl⟩
      | false => exact .inr ⟨rfl, rfl⟩

namespace Office

variable {σ τ : Type} (o : Office σ τ) (s : EmailSettings) (mail : Mail)

theorem tryEmail_of_ok (cache : LogoCache) (m : σ × τ)
    (h : mail.settings (.ok (some s)) = .ok s) :
    let found := (logoFor cache s).run (o.people s) m
    let sending := sendFramed s mail found.1.1
    ((tryEmail cache mail).run (o.people s) m).1.1 = (sending.run (o.people s) found.2).1 ∧
      transmissions ((tryEmail cache mail).exchanges (o.people s) m) =
        transmissions (sending.exchanges (o.people s) found.2) := by
  intro found sending
  obtain ⟨hrun, hexchanges⟩ := Delivery.tryEmail_of_ok (o.people s) cache mail h
  refine ⟨by rw [hrun]; rfl, ?_⟩
  rw [hexchanges]
  refine List.filterMap_append.trans ?_
  exact congrArg (· ++ _) (transmissions_logoFor (o.people s) cache s m)

theorem tryEmail_plain (cache : LogoCache) (m : σ × τ) :
    let logo := ((logoFor cache s).run (o.people s) m).1.1
    let trying := tryEmail cache mail
    (trying.run (o.people s) m).1.1.isOk =
        ((trying.run (o.people s.plain) m).1.1.isOk &&
          logo.all fun image => (MediaType.ofText image.contentType).isOk) ∧
      (logo = none →
        (trying.run (o.people s) m).1.1 = (trying.run (o.people s.plain) m).1.1 ∧
        transmissions (trying.exchanges (o.people s) m) =
          transmissions (trying.exchanges (o.people s.plain) m)) := by
  intro logo trying
  -- without settings or recipients neither of the two gets as far as the logo
  rcases mail.settings_plain s with ⟨e, hs, hplain⟩ | ⟨hs, hplain⟩
  · obtain ⟨hrun, hexchanges⟩ := tryEmail_of_error (o.people s) cache mail hs
    obtain ⟨hrun', hexchanges'⟩ := tryEmail_of_error (o.people s.plain) cache mail hplain
    rw [hrun, hrun', hexchanges, hexchanges']
    exact ⟨rfl, fun _ => ⟨rfl, rfl⟩⟩
  · obtain ⟨hresult, hsent⟩ := o.tryEmail_of_ok s mail cache m hs
    have hplain : (trying.run (o.people s.plain) m).1.1 =
          ((sendFramed s mail none).run (o.people s.plain) m).1 ∧
        transmissions (trying.exchanges (o.people s.plain) m) =
          transmissions ((sendFramed s mail none).exchanges (o.people s.plain) m) :=
      o.tryEmail_of_ok s.plain mail cache m hplain
    have hm : ((logoFor cache s).run (o.people s) m).2.1 = m.1 := o.fst_run_logoFor s s cache m
    rw [hresult, hsent, hplain.1, hplain.2]
    change ((sendFramed s mail logo).run (o.people s) _).1.isOk = _ ∧ (logo = none →
      ((sendFramed s mail logo).run (o.people s) _).1 = _ ∧
        transmissions ((sendFramed s mail logo).exchanges (o.people s) _) = _)
    cases logo with
    | some image =>
        refine ⟨?_, fun h => by cases h⟩
        rw [Option.all_some]
        exact o.isOk_run_sendFramed s s.plain mail image hm
    | none =>
        obtain ⟨hresult, hsame⟩ := o.run_sendFramed_congr s s.plain mail none hm
        rw [Option.all_none, Bool.and_true, hresult, hsame]
        exact ⟨rfl, fun _ => ⟨rfl, rfl⟩⟩

/-- A logo costs a mail exactly if it is loaded and its content has no media type; one that cannot
be loaded is left out. -/
theorem isOk_sendEmail_iff (d : Dispatcher) (m : σ × τ) :
    let logo := ((logoFor d.logo s).run (o.people s) m).1.1
    let sending := d.sendEmail mail
    ((sending.run (o.people s) m).1.1.isOk = true ↔
      (sending.run (o.people s.plain) m).1.1.isOk = true ∧
        ∀ image, logo = some image → (MediaType.ofText image.contentType).isOk = true) ∧
      (logo = none →
        (sending.run (o.people s) m).1.1 = (sending.run (o.people s.plain) m).1.1 ∧
        transmissions (sending.exchanges (o.people s) m) =
          transmissions (sending.exchanges (o.people s.plain) m)) := by
  intro logo sending
  obtain ⟨hok, hsame⟩ := o.tryEmail_plain s mail d.logo m
  obtain ⟨houtcome, hexchanges⟩ := sendEmail_eq (o.people s) mail d (s := m)
  obtain ⟨hplain, hexchanges'⟩ := sendEmail_eq (o.people s.plain) mail d (s := m)
  rw [houtcome, hplain, hexchanges, hexchanges', SendOutcome.isOk_ofResult,
    SendOutcome.isOk_ofResult]
  refine ⟨?_, fun hnone => ?_⟩
  · rw [hok, Bool.and_eq_true, Option.all_eq_true]
  · obtain ⟨hresult, hsent⟩ := hsame hnone
    exact ⟨congrArg SendOutcome.ofResult hresult, hsent⟩

end Office

/-! ## A logo that costs a mail -/

def calmOffice : Office Unit Unit where
  year := 1970
  host _ m := (.error "closed", m)
  mailServer _ _ _ m := (.ok (), m)

def typelessLogo : EmailSettings :=
  { host := "mail.example"
    fromAddress := "ops@mail.example"
    logo := some "data:png;base64,aGVsbG8=" }

def note : Mail :=
  { subject := "hi", recipients := ["ann@mail.example"], html := "", images := [] }

theorem not_forall_isOk_sendEmail_iff :
    ¬∀ (s : EmailSettings) (mail : Mail) (d : Dispatcher) (m : Unit × Unit), s.isUsable = true →
      (((d.sendEmail mail).run (calmOffice.people s) m).1.1.isOk = true ↔
        ((d.sendEmail mail).run (calmOffice.people s.plain) m).1.1.isOk = true) := by
  intro h
  have hsame := h typelessLogo note {} ((), ()) (by decide +kernel)
  have hlost : ((({} : Dispatcher).sendEmail note).run (calmOffice.people typelessLogo)
      ((), ())).1.1.isOk = false := by decide +kernel
  have hsent : ((({} : Dispatcher).sendEmail note).run (calmOffice.people typelessLogo.plain)
      ((), ())).1.1.isOk = true := by decide +kernel
  rw [hlost, hsent] at hsame
  cases hsame.mpr rfl

end Delivery

end Alerting
