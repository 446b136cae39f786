import Alerting.Delivery
import Alerting.Proofs.Dialogue
/-!
# Retries

What comes back when something is tried until it succeeds, up to so many times: there are as many
replies as it takes, and the last of them decides.
-/

namespace Alerting.Delivery

theorem run_need {σ : Type} (people : (n : Need) → σ → n.Reply × σ) (n : Need) (s : σ) :
    (need n).run people s = people n s := rfl

theorem exchanges_need {σ : Type} (people : (n : Need) → σ → n.Reply × σ) (n : Need) (s : σ) :
    (need n).exchanges people s = [⟨n, (people n s).1⟩] := rfl

/-- The replies to something that is tried until it succeeds, and at most `more` times again. -/
structure Tries {β ε α : Type} (read : β → Except ε α) (more : Nat) where
  replies : List β
  length_replies :
    replies.length = min (replies.findIdx (fun reply => (read reply).isOk) + 1) (more + 1)

namespace Tries

variable {β ε α : Type} {read : β → Except ε α} {more : Nat}

theorem replies_ne_nil (t : Tries read more) : t.replies ≠ [] := by
  have hlength := t.length_replies
  intro hnil
  rw [hnil, List.length_nil] at hlength
  omega

def result (t : Tries read more) : Except ε α :=
  read (t.replies.getLast t.replies_ne_nil)

def isMet (t : Tries read more) : Bool :=
  t.replies.any fun reply => (read reply).isOk

theorem isOk_result (t : Tries read more) : t.result.isOk = t.isMet := by
  unfold result isMet
  rw [Bool.eq_iff_iff]
  constructor
  · intro hlast
    exact List.any_eq_true.mpr ⟨_, List.getLast_mem t.replies_ne_nil, hlast⟩
  · intro hany
    have hlt : t.replies.findIdx (fun reply => (read reply).isOk) < t.replies.length :=
      List.findIdx_lt_length.mpr (List.any_eq_true.mp hany)
    have hlength := t.length_replies
    have hidx : t.replies.length - 1 = t.replies.findIdx (fun reply => (read reply).isOk) := by
      omega
    rw [List.getLast_eq_getElem]
    simp only [hidx]
    exact List.findIdx_getElem (p := fun reply => (read reply).isOk)

def met (more : Nat) (reply : β) (h : (read reply).isOk = true) : Tries read more where
  replies := [reply]
  length_replies := by
    rw [List.findIdx_cons, h]
    exact (Nat.min_eq_left (Nat.le_add_left 1 more)).symm

def once (reply : β) : Tries read 0 where
  replies := [reply]
  length_replies := (Nat.min_eq_right (Nat.le_add_left 1 _)).symm

def after (reply : β) (h : (read reply).isOk = false) (t : Tries read more) :
    Tries read (more + 1) where
  replies := reply :: t.replies
  length_replies := by
    have hlength := t.length_replies
    rw [List.length_cons, List.findIdx_cons, h, cond_false]
    omega

theorem result_after (reply : β) (h : (read reply).isOk = false) (t : Tries read more) :
    (t.after reply h).result = t.result := by
  unfold result after
  rw [List.getLast_cons]

end Tries

section Retry

variable {ε α σ : Type} (people : (n : Need) → σ → n.Reply × σ) (n : Need)
  (read : n.Reply → Except ε α)

/-- What is tried again is the same need, and the last reply decides. -/
theorem exists_tries_of_retry (more : Nat) (s : σ) :
    ∃ t : Tries read more,
      (retry more (read <$> need n)).exchanges people s = t.replies.map (⟨n, ·⟩) ∧
        ((retry more (read <$> need n)).run people s).1 = t.result := by
  induction more generalizing s with
  | zero => exact ⟨.once (people n s).1, rfl, rfl⟩
  | succ more ih =>
      rw [retry, Dialogue.exchanges_seq, Dialogue.run_seq]
      have hreply : ((read <$> need n).run people s).1 = read (people n s).1 := rfl
      have hexchanges : (read <$> need n).exchanges people s = [⟨n, (people n s).1⟩] := rfl
      rw [hreply, hexchanges]
      cases hread : read (people n s).1 with
      | ok a =>
          refine ⟨.met (more + 1) (people n s).1 (hread ▸ rfl), rfl, ?_⟩
          exact hread.symm
      | error e =>
          obtain ⟨t, hasked, hresult⟩ := ih ((read <$> need n).run people s).2
          refine ⟨t.after (people n s).1 (hread ▸ rfl), ?_, ?_⟩
          · exact congrArg (⟨n, (people n s).1⟩ :: ·) hasked
          · exact hresult.trans (t.result_after ..).symm

end Retry

theorem asks_retry {ε α : Type} {kind : Need → Prop} {action : Delivering (Except ε α)}
    (h : action.Asks kind) (more : Nat) : (retry more action).Asks kind := by
  induction more with
  | zero => exact h
  | succ more ih =>
      refine h.bind fun reply => ?_
      cases reply with
      | ok a => exact Dialogue.asks_pure _
      | error e => exact ih

end Alerting.Delivery
