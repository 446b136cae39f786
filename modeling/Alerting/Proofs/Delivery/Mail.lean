import Alerting.Proofs.Delivery.Retry
/-!
# The parts of sending a mail

A mail is sent in three parts: the settings are asked for, the logo is looked for, and the letter
goes out.  Each part has needs of its own kind.
-/

namespace Alerting.Delivery

open Email

/-! ## Kinds of needs -/

def Need.IsFetch : Need → Prop
  | .fetch _ => True
  | _ => False

def Need.IsMailing : Need → Prop
  | .year => True
  | .transmit .. => True
  | _ => False

theorem asks_fetchLogo (source : String) : (fetchLogo source).Asks Need.IsFetch := by
  unfold fetchLogo
  split
  · exact Dialogue.asks_pure _
  · refine Dialogue.Asks.bind (Dialogue.asks_put trivial) fun reply => ?_
    split
    · exact Dialogue.asks_pure _
    · split
      · exact Dialogue.asks_pure _
      · exact Dialogue.asks_pure _

theorem asks_loadLogo (cache : LogoCache) (source : String) :
    (loadLogo cache source).Asks Need.IsFetch := by
  unfold loadLogo
  split
  · exact Dialogue.asks_pure _
  · refine (asks_fetchLogo source).bind fun found => ?_
    split
    · exact Dialogue.asks_pure _
    · exact Dialogue.asks_pure _

theorem asks_logoFor (cache : LogoCache) (s : EmailSettings) :
    (logoFor cache s).Asks Need.IsFetch := by
  unfold logoFor
  split
  · exact Dialogue.asks_pure _
  · exact (asks_loadLogo ..).bind fun _ => Dialogue.asks_pure _

theorem asks_transmit (server : MailServer) (letter : Letter) :
    (transmit server letter).Asks Need.IsMailing :=
  (asks_retry (Dialogue.asks_put trivial) _).bind fun _ => Dialogue.asks_pure _

theorem asks_sendFramed (s : EmailSettings) (mail : Mail) (logo : Option InlineImage) :
    (sendFramed s mail logo).Asks Need.IsMailing := by
  refine Dialogue.Asks.bind (Dialogue.asks_put trivial) fun year => ?_
  split
  · exact Dialogue.asks_pure _
  · dsimp only
    split
    · exact Dialogue.asks_pure _
    · exact asks_transmit ..

/-! ## The letter -/

/-- The letter that a mail becomes with these settings and a logo, in a year. -/
def EmailSettings.letter (s : EmailSettings) (mail : Mail) (logo : Option InlineImage)
    (year : Int) : Except DeliveryError Letter := do
  let sender ← s.sender
  Letter.build sender mail.recipients mail.subject ((s.branding logo.isSome).wrap year mail.html)
    (mail.images ++ logo.toList)

theorem sendFramed_eq (s : EmailSettings) (mail : Mail) (logo : Option InlineImage) :
    sendFramed s mail logo = (do
      match s.letter mail logo (← need .year) with
      | .error e => return .error e
      | .ok letter => transmit s.server letter) := by
  unfold sendFramed EmailSettings.letter
  refine bind_congr fun year => ?_
  cases s.sender with
  | error e => rfl
  | ok sender => rfl

/-! ## The course of a send -/

def Mail.settings (mail : Mail) (loaded : Except Failure (Option EmailSettings)) :
    Except DeliveryError EmailSettings := do
  let settings ← usable .email EmailSettings.isUsable loaded
  if mail.recipients.isEmpty then .error .noRecipients else .ok settings

theorem Mail.settings_some (mail : Mail) (s : EmailSettings) :
    mail.settings (.ok (some s)) =
      if s.isUsable then if mail.recipients.isEmpty then .error .noRecipients else .ok s
      else .error (.notConfigured .email) := by
  unfold Mail.settings usable
  dsimp only
  split <;> rfl

section TryEmail

variable {σ : Type} (people : (n : Need) → σ → n.Reply × σ) {s : σ} (cache : LogoCache)
  (mail : Mail)

theorem tryEmail_eq :
    tryEmail cache mail = do
      match mail.settings (← need .emailSettings) with
      | .error e => return (.error e, cache)
      | .ok settings =>
        let (logo, cache) ← logoFor cache settings
        return (← sendFramed settings mail logo, cache) := by
  unfold tryEmail Mail.settings
  refine bind_congr fun loaded => ?_
  cases usable .email EmailSettings.isUsable loaded with
  | error e => rfl
  | ok settings =>
      cases hrecipients : mail.recipients.isEmpty with
      | true => rfl
      | false => rfl

theorem tryEmail_of_error {e : DeliveryError}
    (h : mail.settings (people .emailSettings s).1 = .error e) :
    (tryEmail cache mail).run people s = ((.error e, cache), (people .emailSettings s).2) ∧
      (tryEmail cache mail).exchanges people s =
        [⟨.emailSettings, (people .emailSettings s).1⟩] := by
  rw [tryEmail_eq, Dialogue.run_seq, Dialogue.exchanges_seq, run_need, h]
  exact ⟨rfl, rfl⟩

/-- A mail is sent in two parts: the logo is looked for, and the letter goes out. -/
theorem tryEmail_of_ok {settings : EmailSettings}
    (h : mail.settings (people .emailSettings s).1 = .ok settings) :
    let loading := logoFor cache settings
    let found := loading.run people (people .emailSettings s).2
    let sending := sendFramed settings mail found.1.1
    (tryEmail cache mail).run people s =
        (((sending.run people found.2).1, found.1.2), (sending.run people found.2).2) ∧
      (tryEmail cache mail).exchanges people s =
        ⟨.emailSettings, (people .emailSettings s).1⟩ ::
          (loading.exchanges people (people .emailSettings s).2
            ++ sending.exchanges people found.2) := by
  intro loading found sending
  rw [tryEmail_eq, Dialogue.run_seq, Dialogue.exchanges_seq, run_need, exchanges_need, h]
  simp only [Dialogue.run_seq, Dialogue.exchanges_seq, Dialogue.run_pure,
    Dialogue.exchanges_pure, List.append_nil, List.singleton_append]
  exact ⟨rfl, rfl⟩

theorem sendEmail_eq (d : Dispatcher) :
    ((d.sendEmail mail).run people s).1.1 =
        .ofResult ((tryEmail d.logo mail).run people s).1.1 ∧
      (d.sendEmail mail).exchanges people s = (tryEmail d.logo mail).exchanges people s := by
  rw [Dispatcher.sendEmail, Dialogue.run_seq, Dialogue.exchanges_seq]
  exact ⟨rfl, List.append_nil _⟩

end TryEmail

/-! ## Letters handed over -/

def transmissions (exchanges : List ((n : Need) × n.Reply)) : List (MailServer × Letter) :=
  exchanges.filterMap fun
    | ⟨.transmit server letter, _⟩ => some (server, letter)
    | _ => none

theorem transmissions_append (before after : List ((n : Need) × n.Reply)) :
    transmissions (before ++ after) = transmissions before ++ transmissions after :=
  List.filterMap_append

theorem transmissions_logoFor {σ : Type} (people : (n : Need) → σ → n.Reply × σ)
    (cache : LogoCache) (s : EmailSettings) (m : σ) :
    transmissions ((logoFor cache s).exchanges people m) = [] := by
  refine List.filterMap_eq_nil_iff.mpr fun e he => ?_
  have hfetch := (asks_logoFor cache s).of_mem_exchanges he
  obtain ⟨n, reply⟩ := e
  cases n with
  | fetch request => rfl
  | _ => exact hfetch.elim

end Alerting.Delivery
