import Alerting.Proofs.Delivery.Mail
import Alerting.Server.Command
/-!
# Sends that come to nothing

A send looks at its settings and its recipients before it turns to anyone else.  If one of them will
not do, no service and no mail server hears of it, and the logo that is kept stays as it is.  Every
send is counted, once and for what it came to.
-/

namespace Alerting.Delivery

open Dialogue

/-! ## Calls -/

inductive SendCall where
  | email (mail : Mail)
  | sms (recipients : List String) (message : String)

namespace SendCall

def channel : SendCall → Channel
  | email _ => .email
  | sms _ _ => .sms

def recipients : SendCall → List String
  | email mail => mail.recipients
  | sms recipients _ => recipients

end SendCall

def Channel.settingsNeed : Channel → Need
  | .email => .emailSettings
  | .sms => .smsSettings

namespace Dispatcher

def call (d : Dispatcher) : SendCall → Delivering (SendOutcome × Dispatcher)
  | .email mail => d.sendEmail mail
  | .sms recipients message => d.sendSms recipients message

def attempt (d : Dispatcher) : SendCall → Delivering (Except DeliveryError Unit × LogoCache)
  | .email mail => tryEmail d.logo mail
  | .sms recipients message => do return (← trySms recipients message, d.logo)

theorem call_eq (d : Dispatcher) (c : SendCall) :
    d.call c = do
      let tried ← d.attempt c
      return d.conclude c.channel tried.1 tried.2 := by
  cases c with
  | email mail => rfl
  | sms recipients message =>
      rw [attempt, LawfulMonad.bind_assoc]
      rfl

end Dispatcher

/-! ## Settings that will not do -/

/-- Why nothing can be sent over a channel with what is known of its settings. -/
inductive Provider.Lacks (p : Provider) : Channel → Prop
  | emailMissing (h : p.email = .ok none) : p.Lacks .email
  | emailUnreadable {failure : Failure} (h : p.email = .error failure) : p.Lacks .email
  | emailUnusable {s : EmailSettings} (h : p.email = .ok (some s))
      (hblank : Text.isBlankText s.host = true ∨ Text.isBlankText s.fromAddress = true) :
      p.Lacks .email
  | smsMissing (h : p.sms = .ok none) : p.Lacks .sms
  | smsUnreadable {failure : Failure} (h : p.sms = .error failure) : p.Lacks .sms
  | smsUnusable {s : SmsSettings} (h : p.sms = .ok (some s))
      (hblank : Text.isBlankText s.gatewayUrl = true ∨ Text.isBlankText s.apiKey = true) :
      p.Lacks .sms

def Provider.Refuses (p : Provider) (c : SendCall) : Prop :=
  p.Lacks c.channel ∨ c.recipients = []

namespace Provider

variable {p : Provider}

theorem Lacks.usable_email (h : p.Lacks .email) :
    ∃ e, usable .email EmailSettings.isUsable p.email = .error e := by
  cases h with
  | emailMissing h => exact ⟨_, by rw [h]; rfl⟩
  | emailUnreadable h => exact ⟨_, by rw [h]; rfl⟩
  | @emailUnusable s h hblank =>
      have hunusable : s.isUsable = false := by
        rcases hblank with hblank | hblank <;> simp [EmailSettings.isUsable, hblank]
      exact ⟨.notConfigured .email, by simp [h, usable, hunusable]⟩

theorem Lacks.usable_sms (h : p.Lacks .sms) :
    ∃ e, usable .sms SmsSettings.isUsable p.sms = .error e := by
  cases h with
  | smsMissing h => exact ⟨_, by rw [h]; rfl⟩
  | smsUnreadable h => exact ⟨_, by rw [h]; rfl⟩
  | @smsUnusable s h hblank =>
      have hunusable : s.isUsable = false := by
        rcases hblank with hblank | hblank <;> simp [SmsSettings.isUsable, hblank]
      exact ⟨.notConfigured .sms, by simp [h, usable, hunusable]⟩

end Provider

/-! ## What a call asks for -/

def Provider.reply (p : Provider) : (channel : Channel) → channel.settingsNeed.Reply
  | .email => p.email
  | .sms => p.sms

namespace Dispatcher

variable (d : Dispatcher) (c : SendCall)

/-- A call asks for its settings first, and is given up if they or its recipients will not do. -/
theorem exists_attempt_eq :
    ∃ next : c.channel.settingsNeed.Reply →
        Delivering (Except DeliveryError Unit × LogoCache),
      d.attempt c = need c.channel.settingsNeed >>= next ∧
      ∀ p : Provider, p.Refuses c → ∃ e, next (p.reply c.channel) = return (.error e, d.logo) := by
  cases c with
  | email mail =>
      refine ⟨_, tryEmail_eq d.logo mail, fun p hrefuses => ?_⟩
      have herror : ∃ e, mail.settings p.email = .error e := by
        unfold Mail.settings
        rcases hrefuses with hlacks | hnone
        · obtain ⟨e, he⟩ := hlacks.usable_email
          exact ⟨e, by rw [he]; rfl⟩
        · change mail.recipients = [] at hnone
          rw [hnone]
          cases usable .email EmailSettings.isUsable p.email with
          | error e => exact ⟨e, rfl⟩
          | ok s => exact ⟨.noRecipients, rfl⟩
      obtain ⟨e, he⟩ := herror
      have hreply : p.reply (SendCall.email mail).channel = p.email := rfl
      exact ⟨e, by rw [hreply, he]⟩
  | sms recipients message =>
      refine ⟨_, LawfulMonad.bind_assoc .., fun p hrefuses => ?_⟩
      have hreply : p.reply (SendCall.sms recipients message).channel = p.sms := rfl
      rw [hreply]
      rcases hrefuses with hlacks | hnone
      · obtain ⟨e, he⟩ := hlacks.usable_sms
        exact ⟨e, by rw [he]; rfl⟩
      · change recipients = [] at hnone
        rw [hnone]
        cases usable .sms SmsSettings.isUsable p.sms with
        | error e => exact ⟨e, rfl⟩
        | ok s => exact ⟨.noRecipients, rfl⟩

/-- With the settings in a store, a call that is given up turns to no one else. -/
theorem exists_delivering_call_eq (s : Store) (h : s.provider.Refuses c) :
    ∃ e, Server.delivering s (d.call c) = return d.conclude c.channel (.error e) d.logo := by
  obtain ⟨next, hattempt, hnext⟩ := d.exists_attempt_eq c
  obtain ⟨e, he⟩ := hnext s.provider h
  have hsettings : (need c.channel.settingsNeed).relay (Server.answerDelivery s) () =
      return (s.provider.reply c.channel, ()) := by
    cases c <;> rfl
  refine ⟨e, ?_⟩
  rw [Server.delivering, call_eq, hattempt, relay_seq, relay_seq, hsettings, pure_bind, he]
  rfl

end Dispatcher

/-! ## Counters -/

theorem Attempts.tally_count (a : Attempts) (channel other : Channel) (o : SendOutcome) :
    (a.count channel o).tally other =
      if other = channel then (a.tally channel).count o else a.tally other := by
  cases channel <;> cases other <;> rfl

theorem Tally.count_eq (t : Tally) (o : SendOutcome) :
    (t.count o).success = t.success + (if o.isOk then 1 else 0) ∧
      (t.count o).failure = t.failure + (if o.isOk then 0 else 1) := by
  unfold Tally.count
  cases o.isOk <;> exact ⟨rfl, rfl⟩

theorem SendOutcome.isOk_iff_error_eq_none (result : Except DeliveryError Unit) :
    (ofResult result).isOk = true ↔ (ofResult result).error = none := by
  cases result with
  | ok => exact ⟨fun _ => rfl, fun _ => rfl⟩
  | error e => exact ⟨nofun, nofun⟩

/-- Whatever is known of the settings and whoever answers: a call without settings that will do or
without recipients fails, asks for its settings and for nothing else, and leaves the logo that is
kept; if the settings are those in a store, it asks the world for nothing at all.  Every call,
failed or not, is counted once for its channel, as the success or the failure that it is, and a call
succeeds exactly if no error is reported. -/
theorem effects_of_call {σ : Type} (people : (n : Need) → σ → n.Reply × σ) (d : Dispatcher)
    (c : SendCall) (m : σ) :
    let provider : Provider := ⟨(people .emailSettings m).1, (people .smsSettings m).1⟩
    let sending := d.call c
    let outcome := (sending.run people m).1.1
    let after := (sending.run people m).1.2
    let before := d.attempts.tally c.channel
    let now := after.attempts.tally c.channel
    (provider.Refuses c → outcome.isOk = false ∧
      sending.asked people m = [c.channel.settingsNeed] ∧ after.logo = d.logo) ∧
      (∀ s : Store, s.provider.Refuses c →
        ∃ e, Server.delivering s sending = return d.conclude c.channel (.error e) d.logo) ∧
      (outcome.isOk = true ↔ outcome.error = none) ∧
      now.success = before.success + (if outcome.isOk then 1 else 0) ∧
      now.failure = before.failure + (if outcome.isOk then 0 else 1) ∧
      ∀ other, other ≠ c.channel → after.attempts.tally other = d.attempts.tally other := by
  intro provider sending outcome after before now
  have hsending : sending = _ := d.call_eq c
  have hrun : (sending.run people m).1 = d.conclude c.channel
      ((d.attempt c).run people m).1.1 ((d.attempt c).run people m).1.2 := by
    rw [hsending, run_seq]
    rfl
  have houtcome : outcome = _ := congrArg Prod.fst hrun
  have hafter : after = _ := congrArg Prod.snd hrun
  refine ⟨fun hrefuses => ?_, d.exists_delivering_call_eq c, ?_, ?_⟩
  · obtain ⟨next, hattempt, hnext⟩ := d.exists_attempt_eq c
    obtain ⟨e, he⟩ := hnext provider hrefuses
    have hreply : (people c.channel.settingsNeed m).1 = provider.reply c.channel := by
      cases c <;> rfl
    have hattempted : (d.attempt c).run people m =
        ((.error e, d.logo), (people c.channel.settingsNeed m).2) := by
      rw [hattempt, run_seq, run_need, hreply, he, run_pure]
    refine ⟨?_, ?_, ?_⟩
    · rw [houtcome, hattempted]
      rfl
    · rw [hsending, asked_seq, asked_pure, List.append_nil, hattempt, asked_seq, run_need, hreply,
        he, asked_pure]
      rfl
    · rw [hafter, hattempted]
      rfl
  · rw [houtcome]
    exact SendOutcome.isOk_iff_error_eq_none _
  · have htally : ∀ other, after.attempts.tally other =
        if other = c.channel then before.count outcome else d.attempts.tally other := by
      intro other
      rw [houtcome, hafter]
      exact d.attempts.tally_count c.channel other _
    have hnow : now = before.count outcome := (htally c.channel).trans (if_pos rfl)
    refine ⟨?_, ?_, fun other hother => (htally other).trans (if_neg hother)⟩
    · rw [hnow]
      exact (before.count_eq outcome).1
    · rw [hnow]
      exact (before.count_eq outcome).2

end Alerting.Delivery
