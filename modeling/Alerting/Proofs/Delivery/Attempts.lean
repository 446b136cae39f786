import Alerting.Proofs.Delivery.Mail
import Alerting.Proofs.Email.Letter
import Mathlib.Data.List.Range
import Mathlib.Data.Sigma.Basic
/-!
# Attempts to hand over a letter

A letter that is built is handed to the mail server until the server takes it, three times at most.
What comes of it is what the server says at the first time that it takes the letter, or else at the
third time.
-/

namespace Alerting

namespace Dialogue

variable {Q : Type} {A : Q → Type} {α σ : Type} (answer : (q : Q) → σ → A q × σ)

def answersTo (q : Q) : σ → Nat → A q
  | s, 0 => (answer q s).1
  | s, n + 1 => answersTo q (answer q s).2 n

/-- A dialogue with a single question in it asks it over and over. -/
theorem exchanges_eq_of_asks {q : Q} {d : Dialogue Q A α} (hd : d.Asks (· = q)) (s : σ) :
    d.exchanges answer s =
      (List.range (d.exchanges answer s).length).map (⟨q, answersTo answer q s ·⟩) := by
  induction d generalizing s with
  | done a => rfl
  | ask q' next ih =>
      obtain ⟨rfl, hnext⟩ := hd
      rw [exchanges, List.length_cons, List.range_succ_eq_map, List.map_cons, List.map_map]
      exact congrArg (_ :: ·) (ih _ (hnext _) _)

end Dialogue

namespace Delivery

open Dialogue Email

/-! ## Tries among all replies to come -/

namespace Tries

variable {β ε α : Type} {read : β → Except ε α} {more : Nat}

/-- The tries are the first of all replies to come: as many as it takes to succeed, or all that are
allowed. -/
structure IsStartOf (t : Tries read more) (replies : Nat → β) : Prop where
  replies_eq : t.replies = (List.range t.replies.length).map replies
  length_pos : 0 < t.replies.length
  length_le : t.replies.length ≤ more + 1
  isOk_before : ∀ n, n + 1 < t.replies.length → (read (replies n)).isOk = false
  isOk_last : t.replies.length ≤ more → (read (replies (t.replies.length - 1))).isOk = true

theorem isStartOf {t : Tries read more} {replies : Nat → β}
    (h : t.replies = (List.range t.replies.length).map replies) : t.IsStartOf replies := by
  have hlength := t.length_replies
  have hget : ∀ n (hn : n < t.replies.length), t.replies[n] = replies n := by
    intro n hn
    rw [List.getElem_of_eq h hn, List.getElem_map, List.getElem_range]
  refine ⟨h, ?_, ?_, fun n hn => ?_, fun hle => ?_⟩
  · exact List.length_pos_of_ne_nil t.replies_ne_nil
  · omega
  · rw [← hget n (by omega)]
    have hbefore : n < t.replies.findIdx fun reply => (read reply).isOk := by omega
    exact List.not_of_lt_findIdx hbefore
  · have hidx : t.replies.findIdx (fun reply => (read reply).isOk) = t.replies.length - 1 := by
      omega
    rw [← hget _ (by omega)]
    simp only [← hidx]
    exact List.findIdx_getElem (p := fun reply => (read reply).isOk)

namespace IsStartOf

variable {t : Tries read more} {replies : Nat → β} (h : t.IsStartOf replies)

include h

theorem result_eq : t.result = read (replies (t.replies.length - 1)) := by
  unfold result
  rw [List.getLast_eq_getElem, List.getElem_of_eq h.replies_eq, List.getElem_map,
    List.getElem_range]

theorem isOk_result_iff : t.result.isOk = true ↔ ∃ n ≤ more, (read (replies n)).isOk = true := by
  have hpos := h.length_pos
  have hle := h.length_le
  constructor
  · intro hok
    rw [h.result_eq] at hok
    exact ⟨t.replies.length - 1, by omega, hok⟩
  · rintro ⟨n, hn, hok⟩
    rw [h.result_eq]
    rcases Nat.lt_or_ge more t.replies.length with hall | hsome
    · -- all tries are made, and only the last of them can be the one that succeeds
      rcases Nat.lt_or_ge (n + 1) t.replies.length with hbefore | hlast
      · rw [h.isOk_before n hbefore] at hok
        cases hok
      · obtain rfl : n = t.replies.length - 1 := by omega
        exact hok
    · exact h.isOk_last hsome

theorem result_of_not_isOk (hresult : t.result.isOk = false) : t.result = read (replies more) := by
  have hle := h.length_le
  have hall : ¬t.replies.length ≤ more := by
    intro hsome
    rw [h.result_eq, h.isOk_last hsome] at hresult
    cases hresult
  obtain hlength : t.replies.length - 1 = more := by omega
  rw [h.result_eq, hlength]

theorem countP_le_one :
    (List.range t.replies.length).countP (fun n => (read (replies n)).isOk) ≤ 1 := by
  obtain ⟨before, hbefore⟩ := Nat.exists_eq_succ_of_ne_zero h.length_pos.ne'
  have hnone : (List.range before).countP (fun n => (read (replies n)).isOk) = 0 := by
    refine List.countP_eq_zero.mpr fun n hn => ?_
    rw [List.mem_range] at hn
    rw [h.isOk_before n (by omega)]
    exact Bool.false_ne_true
  rw [hbefore, List.range_succ, List.countP_append, hnone, Nat.zero_add]
  exact List.countP_le_length

end IsStartOf

end Tries

/-! ## Attempts -/

section Attempts

variable {σ : Type} (people : (n : Need) → σ → n.Reply × σ)

theorem isOk_letter_iff (s : EmailSettings) (mail : Mail) (logo : Option InlineImage)
    (year : Int) :
    (s.letter mail logo year).isOk = true ↔
      (Address.ofText s.fromAddress).isOk = true ∧ mail.recipients ≠ [] ∧
        (∀ text ∈ mail.recipients, (Mailbox.ofText text).isOk = true) ∧
        ∀ image ∈ mail.images ++ logo.toList,
          (MediaType.ofText image.contentType).isOk = true := by
  unfold EmailSettings.letter EmailSettings.sender
  cases Address.ofText s.fromAddress with
  | error e => exact ⟨nofun, nofun⟩
  | ok address => exact Letter.isOk_build_iff.trans (and_iff_right rfl).symm

theorem exists_tries_of_transmit (server : MailServer) (letter : Letter) (m : σ) :
    ∃ t : Tries (id : Except String Unit → Except String Unit) maxRetries,
      t.IsStartOf (answersTo people (.transmit server letter) m) ∧
      (transmit server letter).exchanges people m = (List.range t.replies.length).map
        (⟨.transmit server letter, answersTo people (.transmit server letter) m ·⟩) ∧
      ((transmit server letter).run people m).1 = t.result.mapError .mail := by
  obtain ⟨t, hexchanges, hresult⟩ :=
    exists_tries_of_retry people (.transmit server letter) id maxRetries m
  have hasks : (retry maxRetries (need (.transmit server letter))).Asks
      (· = .transmit server letter) := asks_retry (asks_put rfl) _
  have hsame := exchanges_eq_of_asks people hasks m
  have hexchanges : (retry maxRetries (need (.transmit server letter))).exchanges people m =
      t.replies.map (⟨.transmit server letter, ·⟩) := hexchanges
  rw [hexchanges, List.length_map] at hsame
  refine ⟨t, Tries.isStartOf ?_, ?_, ?_⟩
  · refine List.map_injective_iff.mpr (sigma_mk_injective (i := Need.transmit server letter)) ?_
    rw [hsame, List.map_map]
    rfl
  · rw [transmit, exchanges_seq, exchanges_pure, List.append_nil, hexchanges, hsame]
  · rw [transmit, run_seq, run_pure, ← hresult]
    rfl

/-- Whatever a mail server says, a letter that can be built is handed to it three times at most,
always the same letter, until it is taken, so it is never taken twice.  It is sent if one of the
first three replies is that it is taken; else the third one is reported.  Without a readable sender,
recipients that are all readable and media types of all pictures there is no letter to hand over. -/
theorem attempts_of_sendFramed (s : EmailSettings) (mail : Mail) (logo : Option InlineImage)
    (m : σ) :
    let year := people .year m
    let sending := sendFramed s mail logo
    let result := (sending.run people m).1
    ((s.letter mail logo year.1).isOk = true ↔
      (Address.ofText s.fromAddress).isOk = true ∧ mail.recipients ≠ [] ∧
        (∀ text ∈ mail.recipients, (Mailbox.ofText text).isOk = true) ∧
        ∀ image ∈ mail.images ++ logo.toList,
          (MediaType.ofText image.contentType).isOk = true) ∧
      match s.letter mail logo year.1 with
      | .error e => sending.exchanges people m = [⟨.year, year.1⟩] ∧ result = .error e
      | .ok letter =>
        let reply := answersTo people (.transmit s.server letter) year.2
        ∃ attempts, 0 < attempts ∧ attempts ≤ 3 ∧
          sending.exchanges people m = ⟨.year, year.1⟩ ::
            (List.range attempts).map (⟨.transmit s.server letter, reply ·⟩) ∧
          (∀ n, n + 1 < attempts → (reply n).isOk = false) ∧
          (attempts < 3 → (reply (attempts - 1)).isOk = true) ∧
          (List.range attempts).countP (fun n => (reply n).isOk) ≤ 1 ∧
          (result.isOk = true ↔ ∃ n < 3, (reply n).isOk = true) ∧
          (result.isOk = false → result = (reply 2).mapError .mail) := by
  intro year sending result
  refine ⟨isOk_letter_iff s mail logo year.1, ?_⟩
  have hrun : result = _ :=
    congrArg (fun d => (Dialogue.run people d m).1) (sendFramed_eq s mail logo)
  have hexchanges : sending.exchanges people m = _ :=
    congrArg (Dialogue.exchanges people · m) (sendFramed_eq s mail logo)
  rw [run_seq, run_need] at hrun
  rw [exchanges_seq, exchanges_need, run_need] at hexchanges
  cases hletter : s.letter mail logo year.1 with
  | error e =>
      rw [hletter] at hrun hexchanges
      exact ⟨hexchanges, hrun⟩
  | ok letter =>
      rw [hletter] at hrun hexchanges
      obtain ⟨t, hstart, hasked, hresult⟩ :=
        exists_tries_of_transmit people s.server letter year.2
      have hresult : result = t.result.mapError .mail := hrun.trans hresult
      have hisOk : result.isOk = t.result.isOk := by
        rw [hresult]
        cases t.result <;> rfl
      refine ⟨t.replies.length, hstart.length_pos, hstart.length_le, ?_, hstart.isOk_before,
        fun hlt => hstart.isOk_last (Nat.le_of_lt_succ hlt), hstart.countP_le_one, ?_, ?_⟩
      · rw [hexchanges]
        exact congrArg (_ :: ·) hasked
      · rw [hisOk, hstart.isOk_result_iff]
        exact exists_congr fun n => and_congr_left fun _ => Nat.lt_succ_iff.symm
      · intro hfailed
        rw [hresult, hstart.result_of_not_isOk (hisOk ▸ hfailed)]
        rfl

end Attempts

end Delivery

end Alerting
