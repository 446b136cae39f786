import Alerting.Proofs.Delivery.Retry
/-!
# Short messages

Who is sent a short message, how often, and what the send comes to.  The gateway may answer each
request as it likes, also depending on what it was asked before.
-/

namespace Alerting.Delivery

theorem isSuccess_forRecipient (result : Except DeliveryError Unit) (recipient : String) :
    ((SendOutcome.ofResult result).forRecipient recipient).isSuccess = result.isOk := by
  cases result with
  | ok => rfl
  | error e => rfl

/-- A recipient of a short message, with the replies to the requests made for them. -/
structure Contact where
  recipient : String
  tries : Tries readSmsReply maxRetries

namespace Contact

def exchanges (s : SmsSettings) (message : String) (c : Contact) : List ((n : Need) × n.Reply) :=
  c.tries.replies.map (⟨.fetch (smsRequest s message c.recipient), ·⟩)

def result (c : Contact) : RecipientResult :=
  (SendOutcome.ofResult c.tries.result).forRecipient c.recipient

theorem isSuccess_result (c : Contact) : c.result.isSuccess = c.tries.isMet :=
  (isSuccess_forRecipient ..).trans c.tries.isOk_result

theorem error?_result {c : Contact} {e : DeliveryError} (h : c.tries.result = .error e) :
    c.result.error? = some e.message := by
  unfold result
  rw [h]
  rfl

end Contact

/-! ## What the results amount to -/

section Combine

variable {contacts : List Contact}

theorem filter_map_result (contacts : List Contact) :
    (contacts.map Contact.result).filter (!·.isSuccess) =
      (contacts.filter (!·.tries.isMet)).map Contact.result := by
  rw [List.filter_map]
  simp only [Function.comp_def, Contact.isSuccess_result]

theorem isOk_combineResults (results : List RecipientResult) :
    (combineResults results).isOk = results.all (·.isSuccess) := by
  have hall : results.all (·.isSuccess) = (results.filter (!·.isSuccess)).isEmpty := by
    rw [Bool.eq_iff_iff, List.isEmpty_iff, List.filter_eq_nil_iff, List.all_eq_true]
    simp only [Bool.not_eq_true, Bool.not_eq_false']
  rw [hall]
  unfold combineResults
  cases results.filter (!·.isSuccess) with
  | nil => rfl
  | cons first others => rfl

/-- The first recipient who is not reached gives the error. -/
theorem combineResults_of_first {before after : List Contact} {first : Contact} {e : DeliveryError}
    (hbefore : ∀ c ∈ before, c.tries.isMet = true) (hfirst : first.tries.result = .error e) :
    combineResults ((before ++ first :: after).map Contact.result) =
      .error (.partialFailure ((before ++ first :: after).countP (!·.tries.isMet))
        (before ++ first :: after).length e.message) := by
  have hmissed : first.tries.isMet = false := by
    rw [← first.tries.isOk_result, hfirst]
    rfl
  have hfailures : (before ++ first :: after).filter (!·.tries.isMet) =
      first :: after.filter (!·.tries.isMet) := by
    rw [List.filter_append, List.filter_eq_nil_iff.mpr, List.nil_append, List.filter_cons, hmissed]
    · rfl
    · intro c hc
      rw [hbefore c hc]
      exact Bool.false_ne_true
  unfold combineResults
  rw [filter_map_result, hfailures, List.countP_eq_length_filter, hfailures, List.map_cons]
  simp only [Contact.error?_result hfirst, List.length_cons, List.length_map, Option.getD_some]

end Combine

/-! ## Sends -/

section Sends

variable {σ : Type} (people : (n : Need) → σ → n.Reply × σ) (settings : SmsSettings)
  (message : String)

/-- A recipient is tried until they are reached, a few times at most. -/
theorem exists_contact_of_sendSmsTo (recipient : String) (s : σ) :
    ∃ c : Contact, c.recipient = recipient ∧
      (sendSmsTo settings message recipient).exchanges people s = c.exchanges settings message ∧
      ((sendSmsTo settings message recipient).run people s).1 = c.tries.result := by
  obtain ⟨t, hexchanges, hresult⟩ := exists_tries_of_retry people
    (.fetch (smsRequest settings message recipient)) readSmsReply maxRetries s
  exact ⟨⟨recipient, t⟩, rfl, hexchanges, hresult⟩

/-- Each recipient has their turn, whatever became of those before. -/
theorem exists_contacts_of_sendSmsToAll (recipients : List String) (s : σ) :
    ∃ contacts : List Contact, contacts.map (·.recipient) = recipients ∧
      (sendSmsToAll settings message recipients).exchanges people s =
        contacts.flatMap (·.exchanges settings message) ∧
      ((sendSmsToAll settings message recipients).run people s).1 =
        contacts.map Contact.result := by
  induction recipients generalizing s with
  | nil => exact ⟨[], rfl, rfl, rfl⟩
  | cons recipient rest ih =>
      obtain ⟨c, hrecipient, hexchanges, hresult⟩ :=
        exists_contact_of_sendSmsTo people settings message recipient s
      obtain ⟨cs, hrecipients, hothers, hresults⟩ :=
        ih ((sendSmsTo settings message recipient).run people s).2
      refine ⟨c :: cs, ?_, ?_, ?_⟩
      · rw [List.map_cons, hrecipient, hrecipients]
      · rw [sendSmsToAll, Dialogue.exchanges_seq, Dialogue.exchanges_seq, hexchanges, hothers,
          List.flatMap_cons]
        exact congrArg _ (List.append_nil _)
      · rw [sendSmsToAll, Dialogue.run_seq, Dialogue.run_seq, hresults, hresult, ← hrecipient]
        rfl

theorem sendSms_eq (d : Dispatcher) (recipients : List String) (s : σ) :
    ((d.sendSms recipients message).run people s).1.1 =
        .ofResult ((trySms recipients message).run people s).1 ∧
      (d.sendSms recipients message).exchanges people s =
        (trySms recipients message).exchanges people s := by
  rw [Dispatcher.sendSms, Dialogue.run_seq, Dialogue.exchanges_seq]
  exact ⟨rfl, List.append_nil _⟩

section Usable

variable {settings} {s : σ} (hsettings : (people .smsSettings s).1 = .ok (some settings))
  (husable : settings.isUsable = true)

include hsettings husable

theorem usable_smsSettings :
    usable .sms SmsSettings.isUsable (people .smsSettings s).1 = .ok settings := by
  rw [hsettings]
  exact if_pos husable

theorem trySms_nil :
    (trySms [] message).exchanges people s = [⟨.smsSettings, .ok (some settings)⟩] ∧
      ((trySms [] message).run people s).1 = .error .noRecipients := by
  rw [trySms, Dialogue.exchanges_seq, Dialogue.run_seq, run_need, exchanges_need,
    usable_smsSettings people hsettings husable, hsettings]
  exact ⟨rfl, rfl⟩

theorem exists_contacts_of_trySms {recipients : List String} (hne : recipients ≠ []) :
    ∃ contacts : List Contact, contacts.map (·.recipient) = recipients ∧
      (trySms recipients message).exchanges people s =
        ⟨.smsSettings, .ok (some settings)⟩ :: contacts.flatMap (·.exchanges settings message) ∧
      ((sendSmsToAll settings message recipients).run people (people .smsSettings s).2).1 =
        contacts.map Contact.result ∧
      ((trySms recipients message).run people s).1 =
        combineResults (contacts.map Contact.result) := by
  obtain ⟨contacts, hcontacts, hrequests, hresults⟩ := exists_contacts_of_sendSmsToAll people
    settings message recipients (people .smsSettings s).2
  have hempty : recipients.isEmpty = false := List.isEmpty_eq_false_iff.mpr hne
  refine ⟨contacts, hcontacts, ?_, hresults, ?_⟩
  · rw [trySms, Dialogue.exchanges_seq, run_need, exchanges_need,
      usable_smsSettings people hsettings husable, hsettings]
    simp only [hempty, Bool.false_eq_true, if_false, Dialogue.exchanges_seq, hrequests,
      Dialogue.exchanges_pure, List.append_nil, List.singleton_append]
  · rw [trySms, Dialogue.run_seq, run_need, usable_smsSettings people hsettings husable]
    simp only [hempty, Bool.false_eq_true, if_false, Dialogue.run_seq, hresults,
      Dialogue.run_pure]

end Usable

/-- The requests of a send are those made for each recipient in order, as many as it takes to reach
them; what it comes to depends on who was reached.  Without recipients there is nothing to send,
which is an error. -/
theorem contacts_of_sendSms (d : Dispatcher) (recipients : List String) {s : σ}
    (hsettings : (people .smsSettings s).1 = .ok (some settings))
    (husable : settings.isUsable = true) :
    let send := d.sendSms recipients message
    let outcome := (send.run people s).1.1
    let results :=
      ((sendSmsToAll settings message recipients).run people (people .smsSettings s).2).1
    ∃ contacts : List Contact,
      contacts.map (·.recipient) = recipients ∧
      send.exchanges people s =
        ⟨.smsSettings, .ok (some settings)⟩ :: contacts.flatMap (·.exchanges settings message) ∧
      results = contacts.map Contact.result ∧
      (∀ c ∈ contacts, c.result.isSuccess = c.tries.isMet) ∧
      (recipients = [] → outcome = .ofResult (.error .noRecipients)) ∧
      (recipients ≠ [] → (outcome.isOk = true ↔ ∀ c ∈ contacts, c.tries.isMet = true)) ∧
      ∀ before first after e, contacts = before ++ first :: after →
        (∀ c ∈ before, c.tries.isMet = true) → first.tries.result = .error e →
        outcome = .ofResult (.error
          (.partialFailure (contacts.countP (!·.tries.isMet)) contacts.length e.message)) := by
  intro send outcome results
  obtain ⟨houtcome, hexchanges⟩ : outcome = _ ∧ send.exchanges people s = _ :=
    sendSms_eq people message d recipients s
  by_cases hne : recipients = []
  · subst hne
    obtain ⟨hasked, hresult⟩ := trySms_nil people message hsettings husable
    rw [hasked] at hexchanges
    rw [hresult] at houtcome
    refine ⟨[], rfl, hexchanges, rfl, List.forall_mem_nil _, fun _ => houtcome,
      fun hne => absurd rfl hne, ?_⟩
    intro before first after e hnil
    exact absurd hnil.symm (by simp)
  · obtain ⟨contacts, hrecipients, hasked, hresults, hresult⟩ :=
      exists_contacts_of_trySms people message hsettings husable hne
    rw [hasked] at hexchanges
    rw [hresult] at houtcome
    refine ⟨contacts, hrecipients, hexchanges, hresults, fun c _ => c.isSuccess_result,
      fun hnil => absurd hnil hne, fun _ => ?_, ?_⟩
    · rw [houtcome, SendOutcome.isOk_ofResult, isOk_combineResults, List.all_map,
        List.all_eq_true]
      simp only [Function.comp_def, Contact.isSuccess_result]
    · rintro before first after e rfl hbefore hfirst
      rw [houtcome, combineResults_of_first hbefore hfirst]

end Sends

/-! ## A gateway that answers in turn -/

namespace Gateway

def settings : SmsSettings := { gatewayUrl := "https://gateway.example", apiKey := "key" }

def people : (n : Need) → List Http.Reply → n.Reply × List Http.Reply
  | .smsSettings, replies => (.ok (some settings), replies)
  | .emailSettings, replies => (.ok none, replies)
  | .year, replies => (1970, replies)
  | .fetch _, reply :: replies => (reply, replies)
  | .fetch _, [] => (.error "closed", [])
  | .transmit .., replies => (.error "closed", replies)

def status (code : Nat) : Http.Reply :=
  .ok ⟨code, none, []⟩

end Gateway

open Gateway

/-- The first recipient is reached at the second try, the second one not at all. -/
theorem contacts_of_sendSms_pair :
    let replies := [status 500, status 200, .error "closed", status 429, status 503]
    let send := ({} : Dispatcher).sendSms ["+1", "+2"] "hi"
    (people .smsSettings replies).1 = .ok (some settings) ∧ settings.isUsable = true ∧
      (∃ contacts : List Contact, contacts.map (·.recipient) = ["+1", "+2"] ∧
        send.exchanges people replies = ⟨.smsSettings, .ok (some settings)⟩ ::
          contacts.flatMap (·.exchanges settings "hi")) ∧
      (send.run people replies).1.1 = .ofResult (.error (.partialFailure 1 2
        "Notify: API error from sms: status=503, body=")) := by
  intro replies send
  have husable : settings.isUsable = true := by decide
  obtain ⟨contacts, hrecipients, hexchanges, -⟩ :=
    contacts_of_sendSms people settings "hi" {} ["+1", "+2"] (s := replies) rfl husable
  exact ⟨rfl, husable, ⟨contacts, hrecipients, hexchanges⟩, rfl⟩

/-- No recipients is an error, though there is none who was not reached. -/
theorem not_isOk_sendSms_nil :
    let results := ((sendSmsToAll settings "hi" []).run people (people .smsSettings []).2).1
    (people .smsSettings []).1 = .ok (some settings) ∧ settings.isUsable = true ∧
      results.all (·.isSuccess) = true ∧
      ((({} : Dispatcher).sendSms [] "hi").run people []).1.1 =
        ⟨false, some "Notify: no recipients"⟩ :=
  ⟨rfl, by decide, rfl, by decide⟩

end Alerting.Delivery
