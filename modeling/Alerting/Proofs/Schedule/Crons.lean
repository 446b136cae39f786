import Alerting.Proofs.Dict
import Alerting.Schedule
/-!
# The expression that a rule is run by

A rule can have many cron expressions, and some of them can be blank.  The first one that is not
blank counts, but only if no blank one comes before it: otherwise the rule is run by the usual
expression.
-/

namespace Alerting

open Rule

namespace Rule.Config

/-- The cron expressions of a configuration, blank or not, in the order in which they count: the
time side of the group, its threshold side, and the triggers one after another. -/
def crons (c : Config) : List String :=
  ((c.group.bind (·.time)).bind (·.cron)).toList ++
    ((c.group.bind (·.threshold)).bind (·.cron)).toList ++ c.triggers.filterMap Trigger.cron?

def firstCron? (c : Config) : Option String :=
  c.crons.find? (!Text.isBlankText ·)

/-- Whether a blank expression comes first and hides one that is not blank. -/
def isShadowed (c : Config) : Bool :=
  c.crons.head?.any Text.isBlankText && c.firstCron?.isSome

theorem explicitCron?_eq_head? (c : Config) :
    c.explicitCron? = c.crons.head?.filter (!Text.isBlankText ·) := by
  unfold explicitCron? crons
  dsimp only
  rw [List.head?_append, List.head?_append, List.head?_filterMap]
  cases c.group with
  | none => rfl
  | some g => cases g.time.bind (·.cron) <;> cases g.threshold.bind (·.cron) <;> simp

theorem explicitCron?_eq (c : Config) :
    c.explicitCron? = if c.isShadowed then none else c.firstCron? := by
  rw [explicitCron?_eq_head?]
  unfold isShadowed firstCron?
  cases c.crons with
  | nil => rfl
  | cons first rest =>
      rw [List.head?_cons, Option.any_some]
      cases hblank : Text.isBlankText first with
      | false => simp [hblank, Option.filter]
      | true =>
        rw [Bool.true_and, Option.filter_some, hblank]
        cases List.find? _ (first :: rest) with
        | none => rfl
        | some cron => rfl

theorem explicitCron?_eq_firstCron?_iff (c : Config) :
    c.explicitCron? = c.firstCron? ↔ c.isShadowed = false := by
  rw [explicitCron?_eq]
  cases hshadowed : c.isShadowed with
  | false => exact iff_of_true rfl rfl
  | true =>
      -- an expression that is hidden is one that is not found
      have hsome : c.firstCron?.isSome = true := (Bool.and_eq_true_iff.mp hshadowed).2
      refine iff_of_false ?_ Bool.noConfusion
      intro hnone
      rw [← hnone] at hsome
      cases hsome

theorem isSchedulable_of_mem_crons {c : Config} {cron : String} (h : cron ∈ c.crons) :
    c.isSchedulable = true := by
  unfold isSchedulable
  by_contra hnot
  rw [Bool.not_eq_true, Bool.or_eq_false_iff, Bool.not_eq_false', List.isEmpty_iff] at hnot
  obtain ⟨hgroup, htriggers⟩ := hnot
  have hcrons : c.crons = [] := by
    unfold crons
    rw [htriggers]
    cases hg : c.group with
    | none => rfl
    | some g =>
        rw [hg, Option.any_some, Bool.or_eq_false_iff, Option.isSome_eq_false_iff,
          Option.isSome_eq_false_iff, Option.isNone_iff_eq_none, Option.isNone_iff_eq_none]
          at hgroup
        simp [hgroup]
  rw [hcrons] at h
  exact List.not_mem_nil h

end Rule.Config

namespace Schedule

theorem cronOf?_of_firstCron? {rule : StoredRule} {config : Config} {cron : String}
    (henabled : rule.enabled = true) (hconfig : Config.ofText? rule.config = .ok config)
    (hcron : config.firstCron? = some cron) (usual : String) :
    cronOf? rule usual = some (Text.trim (if config.isShadowed then usual else cron)) := by
  unfold cronOf?
  rw [henabled, hconfig]
  dsimp only
  rw [config.isSchedulable_of_mem_crons (List.mem_of_find?_eq_some hcron)]
  unfold cronOf
  rw [config.explicitCron?_eq, hcron]
  cases config.isShadowed <;> rfl

/-- The last of the rules with one id decides about the job. -/
theorem get?_desired_of_last {before after : List StoredRule} {rule : StoredRule}
    {usual cron : String} (hcron : cronOf? rule usual = some cron)
    (hlast : ∀ other ∈ after, other.id = rule.id → cronOf? other usual = none) :
    (desired (before ++ rule :: after) usual).get? rule.id = some cron := by
  let job (r : StoredRule) : Option (String × String) :=
    (cronOf? r usual).map fun cron => (r.id, cron)
  have hjob : job rule = some (rule.id, cron) := congrArg (Option.map _) hcron
  have hlater : rule.id ∉ (after.filterMap job).map (·.1) := by
    intro hmem
    obtain ⟨e, he, hid⟩ := List.mem_map.mp hmem
    obtain ⟨other, hother, hsome⟩ := List.mem_filterMap.mp he
    obtain ⟨later, hlater, rfl⟩ := Option.map_eq_some_iff.mp hsome
    rw [hlast other hother hid] at hlater
    cases hlater
  have hdesired : desired (before ++ rule :: after) usual =
      (after.filterMap job).foldl (fun t e => t.insert e.1 e.2)
        ((Dict.ofList (before.filterMap job)).insert rule.id cron) := by
    change Dict.ofList ((before ++ rule :: after).filterMap job) = _
    rw [List.filterMap_append, List.filterMap_cons_some hjob]
    exact List.foldl_append
  rw [hdesired, Dict.get?_foldl_insert_of_not_mem hlater, Dict.get?_insert_self]

/-- The expression that counts is the first one that is not blank, unless a blank one hides it.  A
rule whose first expression that is not blank is hidden runs by the usual expression; every other
one runs by that expression. -/
theorem firstCron?_unless_shadowed (config : Config) :
    config.explicitCron? = (if config.isShadowed then none else config.firstCron?) ∧
      (config.explicitCron? = config.firstCron? ↔ config.isShadowed = false) ∧
      ∀ (usual : String) (before after : List StoredRule) (rule : StoredRule) (cron : String),
        rule.enabled = true → Config.ofText? rule.config = .ok config →
        config.firstCron? = some cron →
        (∀ other ∈ after, other.id = rule.id → cronOf? other usual = none) →
        (desired (before ++ rule :: after) usual).get? rule.id =
          some (Text.trim (if config.isShadowed then usual else cron)) := by
  refine ⟨config.explicitCron?_eq, config.explicitCron?_eq_firstCron?_iff, ?_⟩
  intro usual before after rule cron henabled hconfig hcron hlast
  exact get?_desired_of_last (cronOf?_of_firstCron? henabled hconfig hcron usual) hlast

def blankMorning : StoredRule :=
  { (default : StoredRule) with
    id := "morning", enabled := true
    config := "\x7b\"triggersGroup\":\x7b\"time\":\x7b\"hour\":9,\"minute\":0,\"cron\":\"\"\x7d," ++
      "\"threshold\":\x7b\"source\":\"sales\",\"operator\":\">\",\"value\":10," ++
      "\"cron\":\"0 0 9 * * *\"\x7d\x7d\x7d" }

theorem firstCron?_unless_shadowed_blankMorning :
    ∃ config, Config.ofText? blankMorning.config = .ok config ∧
      config.firstCron? = some "0 0 9 * * *" ∧ config.explicitCron? = none ∧
      (desired [blankMorning] "0 * * * * *").get? "morning" = some "0 * * * * *" := by
  have hread : (Config.ofText? blankMorning.config).toOption.any (fun config =>
      config.isShadowed && config.firstCron? == some "0 0 9 * * *") = true := by
    decide +kernel
  cases hconfig : Config.ofText? blankMorning.config with
  | error fault =>
      rw [hconfig] at hread
      cases hread
  | ok config =>
      rw [hconfig] at hread
      obtain ⟨hshadowed, hfirst⟩ := Bool.and_eq_true_iff.mp hread
      rw [beq_iff_eq] at hfirst
      obtain ⟨hexplicit, -, hall⟩ := firstCron?_unless_shadowed config
      have hdesired :=
        hall "0 * * * * *" [] [] blankMorning "0 0 9 * * *" rfl hconfig hfirst nofun
      rw [hshadowed] at hexplicit hdesired
      have htrim : Text.trim "0 * * * * *" = "0 * * * * *" := by decide +kernel
      exact ⟨config, rfl, hfirst, hexplicit, hdesired.trans (congrArg some htrim)⟩

/-- A blank expression hides the one after it. -/
theorem not_forall_explicitCron?_eq_firstCron? :
    ¬∀ config : Config, config.explicitCron? = config.firstCron? := by
  intro h
  let config : Config :=
    { group := some
        { time := some { hour := 9, cron := some "" }
          threshold := some { cron := some "0 0 9 * * *" } } }
  have hexplicit : config.explicitCron? = none := by decide +kernel
  have hfirst : config.firstCron? = some "0 0 9 * * *" := by decide +kernel
  have hsame := h config
  rw [hexplicit, hfirst] at hsame
  cases hsame

end Schedule

end Alerting
