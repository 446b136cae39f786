import Alerting.Dialogue
/-!
# What a dialogue can come to

`Ensures` is the partial logic of dialogues: it says what holds of every result of a dialogue as
long as each answer is one that may be relied on.  It is proved by walking the tree once and then
holds of every answerer, whatever that one remembers.
-/

namespace Alerting.Dialogue

variable {Q R : Type} {A : Q → Type} {B : R → Type} {α β σ : Type}

/-- Every result satisfies `post`, provided that `rely` holds of every answer. -/
def Ensures (rely : (q : Q) → A q → Prop) (post : α → Prop) : Dialogue Q A α → Prop
  | done a => post a
  | ask q next => ∀ answer, rely q answer → (next answer).Ensures rely post

section Ensures

variable {rely : (q : Q) → A q → Prop} {post post' : α → Prop}

@[simp] theorem ensures_pure (a : α) :
    (pure a : Dialogue Q A α).Ensures rely post ↔ post a := Iff.rfl

@[simp] theorem ensures_put {q : Q} {post : A q → Prop} :
    (put q : Dialogue Q A (A q)).Ensures rely post ↔ ∀ answer, rely q answer → post answer :=
  Iff.rfl

@[simp] theorem ensures_bind (d : Dialogue Q A α) (f : α → Dialogue Q A β) {post : β → Prop} :
    (d >>= f).Ensures rely post ↔ d.Ensures rely fun a => (f a).Ensures rely post := by
  induction d with
  | done a => exact Iff.rfl
  | ask q next ih => exact forall_congr' fun answer => imp_congr_right fun _ => ih answer

@[simp] theorem ensures_map (f : α → β) (d : Dialogue Q A α) {post : β → Prop} :
    (f <$> d).Ensures rely post ↔ d.Ensures rely fun a => post (f a) :=
  ensures_bind d fun a => pure (f a)

theorem Ensures.mono {d : Dialogue Q A α} (hd : d.Ensures rely post)
    (h : ∀ a, post a → post' a) : d.Ensures rely post' := by
  induction d with
  | done a => exact h a hd
  | ask q next ih => exact fun answer hanswer => ih answer (hd answer hanswer)

theorem ensures_of_forall (d : Dialogue Q A α) (h : ∀ a, post a) : d.Ensures rely post := by
  induction d with
  | done a => exact h a
  | ask q next ih => exact fun answer _ => ih answer

theorem Ensures.run {d : Dialogue Q A α} (hd : d.Ensures rely post)
    {answer : (q : Q) → σ → A q × σ} (h : ∀ q s, rely q (answer q s).1) (s : σ) :
    post (d.run answer s).1 := by
  induction d generalizing s with
  | done a => exact hd
  | ask q next ih => exact ih _ (hd _ (h q s)) _

theorem Ensures.embed {d : Dialogue Q A α} (hd : d.Ensures rely post) {question : Q → R}
    {answer : (q : Q) → B (question q) → A q} {rely' : (r : R) → B r → Prop}
    (h : ∀ q b, rely' (question q) b → rely q (answer q b)) :
    (d.embed question answer).Ensures rely' post := by
  induction d with
  | done a => exact hd
  | ask q next ih => exact fun b hb => ih _ (hd _ (h q b hb))

/-- What everyone who answers for someone else keeps up is kept up by the whole. -/
theorem Ensures.relay {d : Dialogue Q A α} (hd : d.Ensures rely post)
    {answer : (q : Q) → σ → Dialogue R B (A q × σ)} {rely' : (r : R) → B r → Prop} {inv : σ → Prop}
    (h : ∀ q s, inv s → (answer q s).Ensures rely' fun reply => rely q reply.1 ∧ inv reply.2)
    {s : σ} (hs : inv s) :
    (d.relay answer s).Ensures rely' fun result => post result.1 ∧ inv result.2 := by
  induction d generalizing s with
  | done a => exact ⟨hd, hs⟩
  | ask q next ih =>
      refine (ensures_bind (answer q s) _).mpr ((h q s hs).mono ?_)
      exact fun reply hreply => ih _ (hd _ hreply.1) hreply.2

end Ensures

/-! ## Questions in order -/

section Asked

variable (answer : (q : Q) → σ → A q × σ)

@[simp] theorem asked_pure (a : α) (s : σ) : (pure a : Dialogue Q A α).asked answer s = [] := rfl

@[simp] theorem run_pure (a : α) (s : σ) : (pure a : Dialogue Q A α).run answer s = (a, s) := rfl

/-- The second part of a dialogue starts where the first has left the answerer. -/
theorem run_seq (d : Dialogue Q A α) (f : α → Dialogue Q A β) (s : σ) :
    (d >>= f).run answer s = (f (d.run answer s).1).run answer (d.run answer s).2 :=
  run_bind answer d f s

theorem asked_seq (d : Dialogue Q A α) (f : α → Dialogue Q A β) (s : σ) :
    (d >>= f).asked answer s =
      d.asked answer s ++ (f (d.run answer s).1).asked answer (d.run answer s).2 := by
  induction d generalizing s with
  | done a => rfl
  | ask q next ih =>
      change q :: ((next _).bind f).asked answer _ = q :: (_ ++ _)
      exact congrArg (q :: ·) (ih _ _)

theorem run_map (f : α → β) (d : Dialogue Q A α) (s : σ) :
    (f <$> d).run answer s = (f (d.run answer s).1, (d.run answer s).2) :=
  run_seq answer d (fun a => pure (f a)) s

theorem asked_map (f : α → β) (d : Dialogue Q A α) (s : σ) :
    (f <$> d).asked answer s = d.asked answer s := by
  have h := asked_seq answer d (fun a => pure (f a)) s
  rw [asked_pure, List.append_nil] at h
  exact h

theorem run_mapM_cons (f : α → Dialogue Q A β) (a : α) (l : List α) (s : σ) :
    ((a :: l).mapM f).run answer s =
      let first := (f a).run answer s
      let others := (l.mapM f).run answer first.2
      (first.1 :: others.1, others.2) := by
  rw [List.mapM_cons, run_seq, run_seq]
  rfl

theorem asked_mapM_cons (f : α → Dialogue Q A β) (a : α) (l : List α) (s : σ) :
    ((a :: l).mapM f).asked answer s =
      (f a).asked answer s ++ (l.mapM f).asked answer ((f a).run answer s).2 := by
  rw [List.mapM_cons, asked_seq, asked_seq, asked_pure, List.append_nil]

end Asked

/-- Someone who answers the second part of a dialogue remembers the first. -/
theorem relay_seq (answer : (q : Q) → σ → Dialogue R B (A q × σ)) (d : Dialogue Q A α)
    (f : α → Dialogue Q A β) (s : σ) :
    (d >>= f).relay answer s = (d.relay answer s >>= fun r => (f r.1).relay answer r.2) := by
  induction d generalizing s with
  | done a => rfl
  | ask q next ih =>
      refine Eq.trans ?_ (bind_assoc (answer q s) _ _).symm
      exact congrArg (bind (answer q s)) (funext fun reply => ih reply.1 reply.2)

/-! ## Exchanges -/

def exchanges (answer : (q : Q) → σ → A q × σ) : Dialogue Q A α → σ → List ((q : Q) × A q)
  | done _, _ => []
  | ask q next, s => ⟨q, (answer q s).1⟩ :: (next (answer q s).1).exchanges answer (answer q s).2

section Exchanges

variable (answer : (q : Q) → σ → A q × σ)

@[simp] theorem exchanges_pure (a : α) (s : σ) :
    (pure a : Dialogue Q A α).exchanges answer s = [] := rfl

theorem exchanges_seq (d : Dialogue Q A α) (f : α → Dialogue Q A β) (s : σ) :
    (d >>= f).exchanges answer s =
      d.exchanges answer s ++ (f (d.run answer s).1).exchanges answer (d.run answer s).2 := by
  induction d generalizing s with
  | done a => rfl
  | ask q next ih => exact congrArg (_ :: ·) (ih _ _)

theorem exchanges_map (f : α → β) (d : Dialogue Q A α) (s : σ) :
    (f <$> d).exchanges answer s = d.exchanges answer s := by
  have h := exchanges_seq answer d (fun a => pure (f a)) s
  rw [exchanges_pure, List.append_nil] at h
  exact h

theorem map_fst_exchanges (d : Dialogue Q A α) (s : σ) :
    (d.exchanges answer s).map (·.1) = d.asked answer s := by
  induction d generalizing s with
  | done a => rfl
  | ask q next ih => exact congrArg (q :: ·) (ih _ _)

end Exchanges

/-- Whether every question is of one kind, whatever is answered. -/
def Asks (kind : Q → Prop) : Dialogue Q A α → Prop
  | done _ => True
  | ask q next => kind q ∧ ∀ answer, (next answer).Asks kind

section Asks

variable {kind : Q → Prop}

theorem asks_pure (a : α) : (pure a : Dialogue Q A α).Asks kind := trivial

theorem asks_put {q : Q} (h : kind q) : (put q : Dialogue Q A (A q)).Asks kind :=
  ⟨h, fun _ => trivial⟩

theorem Asks.bind {d : Dialogue Q A α} (hd : d.Asks kind) {f : α → Dialogue Q A β}
    (hf : ∀ a, (f a).Asks kind) : (d >>= f).Asks kind := by
  induction d with
  | done a => exact hf a
  | ask q next ih => exact ⟨hd.1, fun answer => ih answer (hd.2 answer)⟩

theorem Asks.map {d : Dialogue Q A α} (hd : d.Asks kind) (f : α → β) : (f <$> d).Asks kind :=
  hd.bind (f := fun a => pure (f a)) fun _ => asks_pure _

theorem asks_embed (d : Dialogue Q A α) {question : Q → R}
    {answer : (q : Q) → B (question q) → A q} {kind : R → Prop} (h : ∀ q, kind (question q)) :
    (d.embed question answer).Asks kind := by
  induction d with
  | done a => trivial
  | ask q next ih => exact ⟨h q, fun b => ih (answer q b)⟩

theorem asks_relay (d : Dialogue Q A α) {answer : (q : Q) → σ → Dialogue R B (A q × σ)}
    {kind : R → Prop} (h : ∀ q s, (answer q s).Asks kind) (s : σ) :
    (d.relay answer s).Asks kind := by
  induction d generalizing s with
  | done a => trivial
  | ask q next ih => exact Asks.bind (h q s) fun reply => ih reply.1 reply.2

theorem Asks.of_mem_exchanges {d : Dialogue Q A α} (hd : d.Asks kind)
    {answer : (q : Q) → σ → A q × σ} {s : σ} {e : (q : Q) × A q}
    (he : e ∈ d.exchanges answer s) : kind e.1 := by
  induction d generalizing s with
  | done a => exact absurd he List.not_mem_nil
  | ask q next ih =>
      rcases List.mem_cons.mp he with rfl | he
      · exact hd.1
      · exact ih _ (hd.2 _) he

/-- What no answer to such a question changes is not changed by the dialogue. -/
theorem Asks.view_run {d : Dialogue Q A α} (hd : d.Asks kind) {ν : Type} (view : σ → ν)
    {answer : (q : Q) → σ → A q × σ} (h : ∀ q s, kind q → view (answer q s).2 = view s) (s : σ) :
    view (d.run answer s).2 = view s := by
  induction d generalizing s with
  | done a => rfl
  | ask q next ih => exact (ih _ (hd.2 _) _).trans (h q s hd.1)

/-- Two answerers who agree on such questions cannot be told apart. -/
theorem Asks.simulate {τ : Type} {d : Dialogue Q A α} (hd : d.Asks kind) (r : σ → τ → Prop)
    (answer : (q : Q) → σ → A q × σ) (answer' : (q : Q) → τ → A q × τ)
    (h : ∀ q s t, kind q → r s t →
      (answer q s).1 = (answer' q t).1 ∧ r (answer q s).2 (answer' q t).2)
    {s : σ} {t : τ} (hr : r s t) :
    (d.run answer s).1 = (d.run answer' t).1 ∧
      d.exchanges answer s = d.exchanges answer' t ∧
      r (d.run answer s).2 (d.run answer' t).2 := by
  induction d generalizing s t with
  | done a => exact ⟨rfl, rfl, hr⟩
  | ask q next ih =>
      obtain ⟨hreply, hnext⟩ := h q s t hd.1 hr
      obtain ⟨hresult, hexchanges, hafter⟩ := ih _ (hd.2 _) hnext
      rw [run, run, exchanges, exchanges, ← hreply]
      exact ⟨hresult, congrArg (_ :: ·) hexchanges, hafter⟩

end Asks

end Alerting.Dialogue
