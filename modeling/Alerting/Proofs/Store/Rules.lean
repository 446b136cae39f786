import Alerting.Proofs.Store.History
/-!
# The table of rules

Whatever is done to a store, no two of its rules have the same id or the same name.  Editing a rule
and running it write different columns, so neither undoes the other.
-/

namespace Alerting.Store

/-! ## Adding and finding -/

section Steps

variable {s : Store}

theorem insertRule_of_fresh {rule : NewRule}
    (hfresh : ∀ r ∈ s.rules, r.id ≠ rule.id ∧ r.name ≠ rule.name) (now : Instant) :
    s.insertRule rule now =
      .ok (rule.stored now, { s with rules := s.rules ++ [rule.stored now] }) := by
  have hname : ¬ s.rules.any (·.name = rule.name) = true := by
    simpa using fun r hr => (hfresh r hr).2
  have hid : ¬ s.rules.any (·.id = rule.id) = true := by
    simpa using fun r hr => (hfresh r hr).1
  unfold insertRule
  rw [if_neg hname, if_neg hid]

theorem of_insertRule_eq_ok {rule : NewRule} {now : Instant} {result : StoredRule × Store}
    (h : s.insertRule rule now = .ok result) :
    (∀ r ∈ s.rules, r.id ≠ rule.id ∧ r.name ≠ rule.name) ∧
      result.2 = { s with rules := s.rules ++ [rule.stored now] } := by
  unfold insertRule at h
  split at h
  · cases h
  · next hname =>
    split at h
    · cases h
    · next hid =>
      have hname : ∀ r ∈ s.rules, r.name ≠ rule.name := by simpa using hname
      have hid : ∀ r ∈ s.rules, r.id ≠ rule.id := by simpa using hid
      cases h
      exact ⟨fun r hr => ⟨hid r hr, hname r hr⟩, rfl⟩

theorem isOk_insertRule_iff (rule : NewRule) (now : Instant) :
    (s.insertRule rule now).isOk = true ↔
      ∀ r ∈ s.rules, r.id ≠ rule.id ∧ r.name ≠ rule.name := by
  constructor
  · intro h
    cases hresult : s.insertRule rule now with
    | ok result => exact (of_insertRule_eq_ok hresult).1
    | error e =>
        rw [hresult] at h
        cases h
  · intro hfresh
    rw [insertRule_of_fresh hfresh]
    rfl

theorem perform_insertRule_of_fresh {rule : NewRule}
    (hfresh : ∀ r ∈ s.rules, r.id ≠ rule.id ∧ r.name ≠ rule.name) (now : Instant) :
    s.perform (.insertRule rule now) = { s with rules := s.rules ++ [rule.stored now] } := by
  apply perform_of_ok
  rw [perform?, insertRule_of_fresh hfresh]
  rfl

theorem perform_insertRule_of_taken {rule : NewRule}
    (htaken : ¬ ∀ r ∈ s.rules, r.id ≠ rule.id ∧ r.name ≠ rule.name) (now : Instant) :
    s.perform (.insertRule rule now) = s := by
  cases hresult : s.insertRule rule now with
  | ok result => exact absurd (of_insertRule_eq_ok hresult).1 htaken
  | error e =>
      apply perform_of_error (e := e)
      rw [perform?, hresult]
      rfl

theorem rule?_eq_none_iff {id : String} : s.rule? id = none ↔ ∀ r ∈ s.rules, r.id ≠ id := by
  unfold rule?
  simp

theorem of_rule?_eq_some {id : String} {r : StoredRule} (h : s.rule? id = some r) :
    r ∈ s.rules ∧ r.id = id := by
  have hid := List.find?_some h
  rw [decide_eq_true_iff] at hid
  exact ⟨List.mem_of_find?_eq_some h, hid⟩

/-! ## Changing rows -/

theorem modifyRule_of_unknown {id : String} (h : s.rule? id = none)
    (change : StoredRule → StoredRule) : s.modifyRule id change = s := by
  have hmap : (s.rules.map fun r => if r.id = id then change r else r) = s.rules :=
    (List.map_congr_left fun r hr => if_neg (rule?_eq_none_iff.mp h r hr)).trans (List.map_id' _)
  unfold modifyRule
  rw [hmap]

theorem rule?_modifyRule {change : StoredRule → StoredRule} (hid : ∀ r, (change r).id = r.id)
    (id other : String) :
    (s.modifyRule id change).rule? other =
      (s.rule? other).map fun r => if r.id = id then change r else r := by
  unfold modifyRule rule?
  rw [List.find?_map]
  congr 2
  funext r
  dsimp only [Function.comp]
  split
  · rw [hid]
  · rfl

theorem modifyRule_comm {f g : StoredRule → StoredRule} (hf : ∀ r, (f r).id = r.id)
    (hg : ∀ r, (g r).id = r.id) (hcomm : ∀ r, g (f r) = f (g r)) (id other : String) :
    (s.modifyRule id f).modifyRule other g = (s.modifyRule other g).modifyRule id f := by
  unfold modifyRule
  rw [Store.mk.injEq]
  refine ⟨rfl, ?_, rfl, rfl, rfl⟩
  rw [List.map_map, List.map_map]
  refine List.map_congr_left fun r _ => ?_
  have hfid : (if r.id = id then f r else r).id = r.id := by
    split
    · exact hf r
    · rfl
  have hgid : (if r.id = other then g r else r).id = r.id := by
    split
    · exact hg r
    · rfl
  dsimp only [Function.comp]
  rw [hfid, hgid]
  by_cases hr : r.id = id
  · rw [if_pos hr, if_pos hr]
    split
    · exact hcomm r
    · rfl
  · rw [if_neg hr, if_neg hr]

/-! ## Editing -/

/-- Whether an edit gives a rule the name of another. -/
def clashes (s : Store) (id : String) (edit : RuleEdit) : Bool :=
  (s.rule? id).any fun r =>
    s.rules.any fun other => other.id ≠ id && other.name = edit.name.getD r.name

theorem updateRule_of_clash {id : String} {edit : RuleEdit} (h : s.clashes id edit = true)
    (now : Instant) : s.updateRule id edit now = .error (.notUnique .ruleName) := by
  unfold clashes at h
  unfold updateRule
  cases hrule : s.rule? id with
  | none =>
      rw [hrule] at h
      cases h
  | some r =>
      rw [hrule] at h
      exact if_pos h

theorem updateRule_of_not_clash {id : String} {edit : RuleEdit} (h : s.clashes id edit = false)
    (now : Instant) :
    s.updateRule id edit now =
      .ok ((s.rule? id).map fun r => edit.apply r now,
        s.modifyRule id fun r => edit.apply r now) := by
  unfold clashes at h
  unfold updateRule
  cases hrule : s.rule? id with
  | none =>
      rw [modifyRule_of_unknown hrule]
      rfl
  | some r =>
      rw [hrule] at h
      exact if_neg (Bool.eq_false_iff.mp h)

theorem perform_updateRule (s : Store) (id : String) (edit : RuleEdit) (now : Instant) :
    s.perform (.updateRule id edit now) =
      if s.clashes id edit then s else s.modifyRule id fun r => edit.apply r now := by
  cases h : s.clashes id edit with
  | true =>
      apply perform_of_error (e := .notUnique .ruleName)
      rw [perform?, updateRule_of_clash h]
      rfl
  | false =>
      apply perform_of_ok
      rw [perform?, updateRule_of_not_clash h]
      rfl

theorem perform_setLastRun (s : Store) (id : String) (finished : Instant) (status : String) :
    s.perform (.setLastRun id finished status) =
      s.modifyRule id fun r => r.withLastRun finished status :=
  rfl

theorem clashes_modifyRule {f : StoredRule → StoredRule} (hid : ∀ r, (f r).id = r.id)
    (hname : ∀ r, (f r).name = r.name) (id other : String) (edit : RuleEdit) :
    (s.modifyRule other f).clashes id edit = s.clashes id edit := by
  have hchanged : ∀ r : StoredRule, (if r.id = other then f r else r).id = r.id ∧
      (if r.id = other then f r else r).name = r.name := by
    intro r
    split
    · exact ⟨hid r, hname r⟩
    · exact ⟨rfl, rfl⟩
  unfold clashes
  rw [rule?_modifyRule hid, Option.any_map]
  refine congrArg (Option.any · _) (funext fun r => ?_)
  rw [(hchanged r).2, modifyRule, List.any_map]
  refine congrArg (List.any s.rules) (funext fun row => ?_)
  dsimp only [Function.comp]
  rw [(hchanged row).1, (hchanged row).2]

end Steps

/-! ## Unique texts -/

/-- No two rules have the same id or the same name. -/
structure IsCatalog (s : Store) : Prop where
  nodup_ids : (s.rules.map (·.id)).Nodup
  nodup_names : (s.rules.map (·.name)).Nodup

section Kept

variable {s s' : Store} {op : Operation}

theorem IsCatalog.eq_of_rule? (h : s.IsCatalog) {id : String} {rule r : StoredRule}
    (hrule : s.rule? id = some rule) (hr : r ∈ s.rules) (hid : r.id = id) : r = rule := by
  obtain ⟨hmem, hruleid⟩ := of_rule?_eq_some hrule
  exact List.inj_on_of_nodup_map h.nodup_ids hr hmem (hid.trans hruleid.symm)

theorem IsCatalog.of_sublist (h : s.IsCatalog) (hsub : s'.rules.Sublist s.rules) : s'.IsCatalog :=
  ⟨h.nodup_ids.sublist (hsub.map _), h.nodup_names.sublist (hsub.map _)⟩

/-- Rows may be changed as long as their ids stay and their names remain different. -/
theorem IsCatalog.modifyRule (h : s.IsCatalog) {id : String} {change : StoredRule → StoredRule}
    (hid : ∀ r, (change r).id = r.id)
    (hname : ∀ r ∈ s.rules, r.id = id → ∀ other ∈ s.rules, other.id ≠ id →
      (change r).name ≠ other.name) : (s.modifyRule id change).IsCatalog := by
  have hids : ((s.modifyRule id change).rules.map (·.id)) = s.rules.map (·.id) := by
    unfold Store.modifyRule
    rw [List.map_map]
    refine List.map_congr_left fun r _ => ?_
    dsimp only [Function.comp]
    split
    · exact hid r
    · rfl
  refine ⟨hids ▸ h.nodup_ids, ?_⟩
  have hboth := List.pairwise_and_iff.mpr
    ⟨List.pairwise_map.mp h.nodup_ids, List.pairwise_map.mp h.nodup_names⟩
  unfold Store.modifyRule
  rw [List.map_map]
  refine List.pairwise_map.mpr (hboth.imp_of_mem ?_)
  intro a b ha hb hne
  dsimp only [Function.comp]
  by_cases haid : a.id = id
  · have hbid : b.id ≠ id := fun hbid => hne.1 (haid.trans hbid.symm)
    rw [if_pos haid, if_neg hbid]
    exact hname a ha haid b hb hbid
  · rw [if_neg haid]
    by_cases hbid : b.id = id
    · rw [if_pos hbid]
      exact (hname b hb hbid a ha haid).symm
    · rw [if_neg hbid]
      exact hne.2

theorem IsCatalog.insertRule (h : s.IsCatalog) {rule : NewRule} {now : Instant}
    {result : StoredRule × Store} (hresult : s.insertRule rule now = .ok result) :
    result.2.IsCatalog := by
  obtain ⟨hfresh, hrules⟩ := of_insertRule_eq_ok hresult
  rw [hrules]
  constructor <;> rw [List.map_append, List.map_singleton, ← List.concat_eq_append]
  · refine List.Nodup.concat (fun hmem => ?_) h.nodup_ids
    obtain ⟨r, hr, hid⟩ := List.mem_map.mp hmem
    exact (hfresh r hr).1 hid
  · refine List.Nodup.concat (fun hmem => ?_) h.nodup_names
    obtain ⟨r, hr, hname⟩ := List.mem_map.mp hmem
    exact (hfresh r hr).2 hname

theorem IsCatalog.updateRule (h : s.IsCatalog) {id : String} {edit : RuleEdit}
    (hclash : s.clashes id edit = false) (now : Instant) :
    (s.modifyRule id fun r => edit.apply r now).IsCatalog := by
  refine h.modifyRule (fun _ => rfl) ?_
  intro r hr hrid other hother hotherid heq
  -- the only rule with the id is the one that was found, so the new name was looked for
  cases hrule : s.rule? id with
  | none => exact rule?_eq_none_iff.mp hrule r hr hrid
  | some rule =>
      obtain rfl := h.eq_of_rule? hrule hr hrid
      refine Bool.eq_false_iff.mp hclash ?_
      unfold clashes
      rw [hrule, Option.any_some, List.any_eq_true]
      refine ⟨other, hother, ?_⟩
      rw [Bool.and_eq_true, decide_eq_true_iff, decide_eq_true_iff]
      exact ⟨hotherid, heq.symm⟩

theorem IsCatalog.of_perform? (h : s.IsCatalog) (hop : s.perform? op = .ok s') : s'.IsCatalog := by
  cases op with
  | insertRule rule now =>
      obtain ⟨result, hresult, rfl⟩ := of_map_snd_eq_ok hop
      exact h.insertRule hresult
  | updateRule id edit now =>
      cases hclash : s.clashes id edit with
      | true =>
          rw [perform?, updateRule_of_clash hclash] at hop
          cases hop
      | false =>
          rw [perform?, updateRule_of_not_clash hclash] at hop
          obtain rfl := Except.ok.inj hop
          exact h.updateRule hclash now
  | setLastRun id finished status =>
      obtain rfl := Except.ok.inj hop
      refine h.modifyRule (fun _ => rfl) ?_
      intro r hr hrid other hother hotherid heq
      have hsame := List.inj_on_of_nodup_map h.nodup_names hr hother heq
      exact hotherid (hsame ▸ hrid)
  | deleteRule id =>
      obtain rfl := Except.ok.inj hop
      exact h.of_sublist List.filter_sublist
  | startRun id ruleId origin now =>
      obtain ⟨result, hresult, rfl⟩ := of_map_snd_eq_ok hop
      rw [(of_startRun_eq_ok hresult).2]
      exact ⟨h.nodup_ids, h.nodup_names⟩
  | finalizeRun id status message now =>
      obtain ⟨result, hresult, rfl⟩ := of_map_snd_eq_ok hop
      obtain ⟨-, run, -, -, hrules⟩ := of_finalizeRun_eq_ok hresult
      rw [hrules]
      exact ⟨h.nodup_ids, h.nodup_names⟩

theorem IsCatalog.performAll (h : s.IsCatalog) (ops : List Operation) :
    (s.performAll ops).IsCatalog := by
  induction ops generalizing s with
  | nil => exact h
  | cons op rest ih =>
      refine ih ?_
      cases hop : s.perform? op with
      | ok changed => exact (perform_of_ok hop).symm ▸ h.of_perform? hop
      | error e => exact (perform_of_error hop).symm ▸ h

theorem IsCatalog.clashes_iff (h : s.IsCatalog) (id : String) (edit : RuleEdit) :
    s.clashes id edit = true ↔
      s.rule? id ≠ none ∧ ∃ other ∈ s.rules, other.id ≠ id ∧ edit.name = some other.name := by
  unfold clashes
  cases hrule : s.rule? id with
  | none => simp
  | some r =>
      obtain ⟨hr, hrid⟩ := of_rule?_eq_some hrule
      rw [Option.any_some, List.any_eq_true]
      constructor
      · rintro ⟨other, hother, htaken⟩
        rw [Bool.and_eq_true, decide_eq_true_iff, decide_eq_true_iff] at htaken
        refine ⟨nofun, other, hother, htaken.1, ?_⟩
        cases hname : edit.name with
        | some name => exact congrArg some (hname ▸ htaken.2).symm
        | none =>
            -- the rule would have to share the name that it has already
            have hshared : other.name = r.name := by
              rw [htaken.2, hname]
              rfl
            have hsame := List.inj_on_of_nodup_map h.nodup_names hother hr hshared
            exact absurd (hsame ▸ hrid) htaken.1
      · rintro ⟨-, other, hother, hotherid, hname⟩
        refine ⟨other, hother, ?_⟩
        rw [Bool.and_eq_true, decide_eq_true_iff, decide_eq_true_iff, hname]
        exact ⟨hotherid, rfl⟩

theorem IsCatalog.isOk_updateRule_iff (h : s.IsCatalog) (id : String) (edit : RuleEdit)
    (now : Instant) :
    (s.updateRule id edit now).isOk = true ↔
      s.rule? id = none ∨ ∀ other ∈ s.rules, other.id ≠ id → edit.name ≠ some other.name := by
  have hclash := h.clashes_iff id edit
  cases hc : s.clashes id edit with
  | true =>
      obtain ⟨hrule, other, hother, hotherid, hname⟩ := hclash.mp hc
      rw [updateRule_of_clash hc]
      refine iff_of_false nofun ?_
      rintro (hnone | hfree)
      · exact hrule hnone
      · exact hfree other hother hotherid hname
  | false =>
      rw [updateRule_of_not_clash hc]
      refine iff_of_true rfl (or_iff_not_imp_left.mpr ?_)
      intro hrule other hother hotherid hname
      exact Bool.eq_false_iff.mp hc (hclash.mpr ⟨hrule, other, hother, hotherid, hname⟩)

end Kept

/-! ## Adding many -/

theorem performAll_eq_self {s : Store} {ops : List Operation} (h : ∀ op ∈ ops, s.perform op = s) :
    s.performAll ops = s := by
  induction ops with
  | nil => rfl
  | cons op rest ih =>
      rw [List.forall_mem_cons] at h
      rw [performAll, List.foldl_cons, h.1]
      exact ih h.2

abbrev Addition := NewRule × Instant

def Addition.operation (a : Addition) : Operation :=
  .insertRule a.1 a.2

/-- Of rules with new ids one is added for each name that is free, the first that has it. -/
theorem exists_added (additions : List Addition) (s : Store)
    (hnodup : (additions.map (·.1.id)).Nodup)
    (hnew : ∀ a ∈ additions, ∀ old ∈ s.rules, old.id ≠ a.1.id) :
    ∃ added, s.performAll (additions.map Addition.operation) =
        { s with rules := s.rules ++ added } ∧
      ∀ name, added.filter (·.name = name) =
        if s.rules.any (·.name = name) then []
        else ((additions.find? (·.1.name = name)).map fun a => a.1.stored a.2).toList := by
  induction additions generalizing s with
  | nil =>
      refine ⟨[], ?_, fun name => ?_⟩
      · rw [List.append_nil]
        rfl
      · split <;> rfl
  | cons a rest ih =>
      rw [List.map_cons, List.nodup_cons] at hnodup
      rw [List.forall_mem_cons] at hnew
      rw [List.map_cons, performAll, List.foldl_cons]
      by_cases htaken : ∃ old ∈ s.rules, old.name = a.1.name
      · obtain ⟨old, hold, holdname⟩ := htaken
        have hsame : s.perform a.operation = s :=
          perform_insertRule_of_taken (fun hfresh => (hfresh old hold).2 holdname) a.2
        obtain ⟨added, hadded, hnames⟩ := ih s hnodup.2 hnew.2
        refine ⟨added, hsame.symm ▸ hadded, fun name => ?_⟩
        rw [hnames]
        split
        · rfl
        · next hname =>
          have hother : a.1.name ≠ name := by
            rintro rfl
            exact hname (List.any_eq_true.mpr ⟨old, hold, by simpa using holdname⟩)
          rw [List.find?_cons_of_neg (by simpa using hother)]
      · have hfree : ∀ old ∈ s.rules, old.name ≠ a.1.name := fun old hold hname =>
          htaken ⟨old, hold, hname⟩
        let row := a.1.stored a.2
        have hchanged : s.perform a.operation = { s with rules := s.rules ++ [row] } :=
          perform_insertRule_of_fresh (fun old hold => ⟨hnew.1 old hold, hfree old hold⟩) a.2
        have hnew' : ∀ b ∈ rest, ∀ old ∈ s.rules ++ [row], old.id ≠ b.1.id := by
          intro b hb
          rw [List.forall_mem_append, List.forall_mem_singleton]
          exact ⟨hnew.2 b hb, fun heq => hnodup.1 (List.mem_map.mpr ⟨b, hb, heq.symm⟩)⟩
        obtain ⟨added, hadded, hnames⟩ := ih { s with rules := s.rules ++ [row] } hnodup.2 hnew'
        refine ⟨row :: added, ?_, fun name => ?_⟩
        · rw [hchanged]
          refine hadded.trans ?_
          rw [List.append_assoc]
          rfl
        · -- the new row takes its own name, and no other
          have hrow : row.name = a.1.name := rfl
          rw [List.filter_cons, hnames, List.any_append, List.find?_cons]
          dsimp only [List.any_cons, List.any_nil]
          by_cases hname : a.1.name = name
          · have hnone : s.rules.any (·.name = name) = false := by simpa [← hname] using hfree
            simp [hnone, hrow, hname, row]
          · simp [hrow, hname]

/-! ## Editing and running -/

def untimed (s : Store) : Store :=
  { s with rules := s.rules.map fun r => { r with updatedAt := default } }

theorem untimed_perform_updateRule (s : Store) (id : String) (edit : RuleEdit)
    (now now' : Instant) :
    (s.perform (.updateRule id edit now)).untimed =
      (s.perform (.updateRule id edit now')).untimed := by
  rw [perform_updateRule, perform_updateRule]
  split
  · rfl
  · unfold untimed modifyRule
    rw [Store.mk.injEq]
    refine ⟨rfl, ?_, rfl, rfl, rfl⟩
    rw [List.map_map, List.map_map]
    refine List.map_congr_left fun r _ => ?_
    dsimp only [Function.comp]
    split <;> rfl

/-- At one time, an edit and the result of a run can be written in either order. -/
theorem perform_setLastRun_updateRule (s : Store) (id : String) (edit : RuleEdit) (now : Instant)
    (ran : String) (finished : Instant) (status : String) :
    (s.perform (.updateRule id edit now)).perform (.setLastRun ran finished status) =
      (s.perform (.setLastRun ran finished status)).perform (.updateRule id edit now) := by
  have hclashes : (s.modifyRule ran fun r => r.withLastRun finished status).clashes id edit =
      s.clashes id edit :=
    clashes_modifyRule (f := fun r => r.withLastRun finished status) (fun _ => rfl) (fun _ => rfl)
      id ran edit
  simp only [perform_setLastRun, perform_updateRule]
  rw [hclashes]
  split
  · rfl
  · exact modifyRule_comm (f := fun r => edit.apply r now)
      (g := fun r => r.withLastRun finished status) (fun _ => rfl) (fun _ => rfl) (fun _ => rfl) id
      ran

/-- The rule that an operation has to find. -/
def Operation.soughtRule? : Operation → Option String
  | updateRule id _ _ => some id
  | setLastRun id _ _ => some id
  | deleteRule id => some id
  | _ => none

theorem perform?_of_unknown {s : Store} {op : Operation} {id : String}
    (hsought : op.soughtRule? = some id) (hrule : s.rule? id = none) : s.perform? op = .ok s := by
  cases op with
  | insertRule rule now => cases hsought
  | updateRule other edit now =>
      cases hsought
      have hclash : s.clashes id edit = false := by
        unfold clashes
        rw [hrule]
        rfl
      rw [perform?, updateRule_of_not_clash hclash, modifyRule_of_unknown hrule]
      rfl
  | setLastRun other finished status =>
      cases hsought
      exact congrArg Except.ok (modifyRule_of_unknown hrule _)
  | deleteRule other =>
      cases hsought
      have hfilter : s.rules.filter (·.id ≠ id) = s.rules := by
        simpa using rule?_eq_none_iff.mp hrule
      rw [perform?, deleteRule, hfilter]
  | startRun other ruleId origin now => cases hsought
  | finalizeRun other status message now => cases hsought

/-- After any operations on a store without rules, all ids and all names of rules differ.  A new
rule is refused exactly if its id or its name is taken, an edit if it gives a rule that is there the
name of another; what is refused changes nothing, and nothing happens either where no rule is found.
An edit writes the columns it carries and its time, a run its own two columns and no others.  So an
edit and the result of a run can be written to any table in either order, up to the time of the
edit. -/
theorem rules_of_history (s : Store) (ops : List Operation) :
    let later := { s with rules := [] }.performAll ops
    ((later.rules.map (·.id)).Nodup ∧ (later.rules.map (·.name)).Nodup) ∧
      (∀ rule now, (later.insertRule rule now).isOk = true ↔
        ∀ r ∈ later.rules, r.id ≠ rule.id ∧ r.name ≠ rule.name) ∧
      (∀ id edit now, (later.updateRule id edit now).isOk = true ↔
        later.rule? id = none ∨
          ∀ other ∈ later.rules, other.id ≠ id → edit.name ≠ some other.name) ∧
      (∀ op, (later.perform? op).isOk = false → later.perform op = later) ∧
      (∀ op id, op.soughtRule? = some id → later.rule? id = none →
        later.perform? op = .ok later) ∧
      (∀ id edit now, (later.updateRule id edit now).isOk = true →
        later.perform (.updateRule id edit now) =
          { later with
            rules := later.rules.map fun r =>
              if r.id = id then
                { r with
                  name := edit.name.getD r.name
                  kindName := (edit.kind.map Rule.Kind.name).getD r.kindName
                  enabled := edit.enabled.getD r.enabled
                  config := edit.config.getD r.config
                  updatedAt := now }
              else r }) ∧
      (∀ id finished status,
        later.perform (.setLastRun id finished status) =
          { later with
            rules := later.rules.map fun r =>
              if r.id = id then { r with lastRunAt := some finished, lastStatus := some status }
              else r }) ∧
      ∀ (table : Store) id edit now now' ran finished status,
        ((table.perform (.updateRule id edit now)).perform
            (.setLastRun ran finished status)).untimed =
          ((table.perform (.setLastRun ran finished status)).perform
            (.updateRule id edit now')).untimed := by
  intro later
  have hlater : later.IsCatalog :=
    IsCatalog.performAll (s := { s with rules := [] }) ⟨List.nodup_nil, List.nodup_nil⟩ ops
  refine ⟨⟨hlater.nodup_ids, hlater.nodup_names⟩, isOk_insertRule_iff, hlater.isOk_updateRule_iff,
    fun _ => perform_of_refused, fun op id => perform?_of_unknown, ?_, fun _ _ _ => rfl, ?_⟩
  · intro id edit now hok
    cases hclash : later.clashes id edit with
    | true =>
        rw [updateRule_of_clash hclash] at hok
        cases hok
    | false =>
        rw [perform_updateRule, hclash]
        rfl
  · intro table id edit now now' ran finished status
    rw [perform_setLastRun_updateRule]
    exact untimed_perform_updateRule _ id edit now now'

end Alerting.Store
