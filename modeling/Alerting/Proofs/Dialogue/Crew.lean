import Alerting.Dialogue
import Mathlib.Logic.Function.Basic
/-!
# Dialogues in turns

Several dialogues are held before the same memory.  At each turn one of them has its next question
answered, so a list of turns is an interleaving of their questions.  What the dialogues have to do
with each other is what their answers see of the memory: as long as each has a part of it that the
others leave alone, each goes on as if it were the only one.
-/

namespace Alerting

/-- Several dialogues before the same memory. -/
structure Crew (ι Q : Type) (A : Q → Type) (α σ : Type) where
  /-- What is left of each dialogue. -/
  rest : ι → Dialogue Q A α
  memory : σ

namespace Crew

variable {ι τ Q α σ ν : Type} {A : Q → Type} [DecidableEq ι]

/-- The dialogue whose turn it is has its next question answered, if it has one. -/
def turn (who : τ → ι) (answer : τ → (q : Q) → σ → A q × σ) (c : Crew ι Q A α σ) (t : τ) :
    Crew ι Q A α σ :=
  match c.rest (who t) with
  | .done _ => c
  | .ask q next =>
    { rest := Function.update c.rest (who t) (next (answer t q c.memory).1)
      memory := (answer t q c.memory).2 }

def turns (who : τ → ι) (answer : τ → (q : Q) → σ → A q × σ) (c : Crew ι Q A α σ) (ts : List τ) :
    Crew ι Q A α σ :=
  ts.foldl (turn who answer) c

def firstExchange (answer : (q : Q) → σ → A q × σ) (d : Dialogue Q A α) (s : σ) :
    List ((q : Q) × A q) :=
  match d with
  | .done _ => []
  | .ask q _ => [⟨q, (answer q s).1⟩]

/-- What one of the dialogues asks during the turns, with the answers that it is given. -/
def heard (who : τ → ι) (answer : τ → (q : Q) → σ → A q × σ) (i : ι) :
    Crew ι Q A α σ → List τ → List ((q : Q) × A q)
  | _, [] => []
  | c, t :: ts =>
    (if who t = i then firstExchange (answer t) (c.rest i) c.memory else [])
      ++ (c.turn who answer t).heard who answer i ts

/-! ## One turn -/

section Turn

variable {who : τ → ι} {answer : τ → (q : Q) → σ → A q × σ} {c : Crew ι Q A α σ} {t : τ} {i : ι}

theorem turn_of_done {a : α} (h : c.rest (who t) = .done a) : c.turn who answer t = c := by
  unfold turn
  rw [h]

theorem rest_turn_self {q : Q} {next : A q → Dialogue Q A α} (h : c.rest (who t) = .ask q next) :
    (c.turn who answer t).rest (who t) = next (answer t q c.memory).1 := by
  unfold turn
  rw [h]
  exact Function.update_self ..

theorem memory_turn {q : Q} {next : A q → Dialogue Q A α} (h : c.rest (who t) = .ask q next) :
    (c.turn who answer t).memory = (answer t q c.memory).2 := by
  unfold turn
  rw [h]

theorem rest_turn_of_ne (h : i ≠ who t) : (c.turn who answer t).rest i = c.rest i := by
  unfold turn
  split
  · rfl
  · exact Function.update_of_ne h ..

/-- What no answer changes is not changed by a turn. -/
theorem view_turn (view : σ → ν) (h : ∀ q s, view (answer t q s).2 = view s) :
    view (c.turn who answer t).memory = view c.memory := by
  cases hrest : c.rest (who t) with
  | done a => rw [turn_of_done hrest]
  | ask q next => rw [memory_turn hrest, h]

end Turn

/-! ## Many turns -/

section Turns

variable {who : τ → ι} {answer : τ → (q : Q) → σ → A q × σ} {i : ι}

theorem view_turns (view : σ → ν) (h : ∀ t q s, view (answer t q s).2 = view s) (ts : List τ)
    (c : Crew ι Q A α σ) : view (c.turns who answer ts).memory = view c.memory := by
  induction ts generalizing c with
  | nil => rfl
  | cons t ts ih => exact (ih (c.turn who answer t)).trans (view_turn view (h t))

/-- What holds of a dialogue, of its part of the memory and of what it has heard goes on to hold if
its own turns keep it and those of the others leave its part alone. -/
theorem turns_induction (view : σ → ν) {p : Dialogue Q A α → ν → List ((q : Q) × A q) → Prop}
    (hown : ∀ t q next s before, who t = i → p (.ask q next) (view s) before →
      p (next (answer t q s).1) (view (answer t q s).2) (before ++ [⟨q, (answer t q s).1⟩]))
    (hother : ∀ t q s, who t ≠ i → view (answer t q s).2 = view s) (ts : List τ)
    {c : Crew ι Q A α σ} (before : List ((q : Q) × A q)) (h : p (c.rest i) (view c.memory) before) :
    p ((c.turns who answer ts).rest i) (view (c.turns who answer ts).memory)
      (before ++ c.heard who answer i ts) := by
  induction ts generalizing c before with
  | nil =>
      rw [heard, List.append_nil]
      exact h
  | cons t ts ih =>
      rw [heard, ← List.append_assoc]
      refine ih _ ?_
      by_cases hwho : who t = i
      · rw [if_pos hwho]
        subst hwho
        cases hrest : c.rest (who t) with
        | done a =>
            rw [turn_of_done hrest, firstExchange, List.append_nil]
            exact h
        | ask q next =>
            rw [hrest] at h
            rw [rest_turn_self hrest, memory_turn hrest, firstExchange]
            exact hown t q next c.memory before rfl h
      · rw [if_neg hwho, List.append_nil, rest_turn_of_ne (Ne.symm hwho),
          view_turn view fun q s => hother t q s hwho]
        exact h

theorem rest_turns_of_done {a : α} (ts : List τ) {c : Crew ι Q A α σ} (h : c.rest i = .done a) :
    (c.turns who answer ts).rest i = .done a := by
  induction ts generalizing c with
  | nil => exact h
  | cons t ts ih =>
      refine ih ?_
      by_cases hwho : i = who t
      · subst hwho
        rw [turn_of_done h, h]
      · rw [rest_turn_of_ne hwho, h]

theorem length_heard {ts : List τ} {c : Crew ι Q A α σ}
    (h : ∀ a, (c.turns who answer ts).rest i ≠ .done a) :
    (c.heard who answer i ts).length = ts.countP (who · = i) := by
  induction ts generalizing c with
  | nil => rfl
  | cons t ts ih =>
      have hrest : (heard who answer i (c.turn who answer t) ts).length =
          ts.countP (who · = i) := ih h
      rw [heard, List.length_append, hrest, List.countP_cons, Nat.add_comm]
      by_cases hwho : who t = i
      · rw [if_pos hwho, if_pos (decide_eq_true hwho)]
        cases hfirst : c.rest i with
        | done a => exact absurd (rest_turns_of_done (t :: ts) hfirst) (h a)
        | ask q next => rfl
      · rw [if_neg hwho, if_neg (by simpa using hwho)]
        rfl

/-- A dialogue whose part of the memory the others leave alone goes on as in its own turns only. -/
theorem turns_filter (view : σ → ν)
    (hown : ∀ t q s s', who t = i → view s = view s' →
      (answer t q s).1 = (answer t q s').1 ∧ view (answer t q s).2 = view (answer t q s').2)
    (hother : ∀ t q s, who t ≠ i → view (answer t q s).2 = view s) (ts : List τ)
    {c c' : Crew ι Q A α σ} (hrest : c.rest i = c'.rest i)
    (hview : view c.memory = view c'.memory) :
    (c.turns who answer ts).rest i = (c'.turns who answer (ts.filter (who · = i))).rest i ∧
      view (c.turns who answer ts).memory =
        view (c'.turns who answer (ts.filter (who · = i))).memory := by
  induction ts generalizing c c' with
  | nil => exact ⟨hrest, hview⟩
  | cons t ts ih =>
      rw [List.filter_cons]
      by_cases hwho : who t = i
      · rw [if_pos (decide_eq_true hwho)]
        subst hwho
        cases hfirst : c.rest (who t) with
        | done a =>
            have hfirst' := hrest.symm.trans hfirst
            refine ih ?_ ?_
            · rw [turn_of_done hfirst, turn_of_done hfirst', hrest]
            · rw [turn_of_done hfirst, turn_of_done hfirst', hview]
        | ask q next =>
            have hfirst' := hrest.symm.trans hfirst
            obtain ⟨hreply, hafter⟩ := hown t q c.memory c'.memory rfl hview
            refine ih ?_ ?_
            · rw [rest_turn_self hfirst, rest_turn_self hfirst', hreply]
            · rw [memory_turn hfirst, memory_turn hfirst', hafter]
      · rw [if_neg (by simpa using hwho)]
        refine ih ?_ ?_
        · rw [rest_turn_of_ne (Ne.symm hwho), hrest]
        · rw [view_turn view fun q s => hother t q s hwho, hview]

end Turns

end Crew

end Alerting
