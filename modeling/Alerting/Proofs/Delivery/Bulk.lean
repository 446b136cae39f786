import Alerting.Delivery
import Alerting.Proofs.Dialogue.Crew
import Mathlib.Algebra.BigOperators.Group.Finset.Piecewise
import Mathlib.Data.Fintype.Basic
/-!
# Bulk sends side by side

Bulk sends that run at the same time share the map of the jobs and the counters.  Whatever order
their steps come in, each of them goes on as if it were the only one: it reports on its own
recipients, in their order, and leaves the jobs of the others alone.
-/

namespace Alerting.Delivery

/-! ## Reports -/

namespace BulkReport

def progress (total : Nat) (results : List RecipientResult) : BulkReport :=
  results.foldl record { total := total }

theorem progress_concat (total : Nat) (results : List RecipientResult) (result : RecipientResult) :
    progress total (results ++ [result]) = (progress total results).record result :=
  List.foldl_concat ..

theorem progress_eq (total : Nat) (results : List RecipientResult) :
    progress total results =
      { total := total
        success := results.countP (·.isSuccess)
        failed := results.countP (!·.isSuccess)
        failures := results.filter (!·.isSuccess) } := by
  induction results using List.reverseRecOn with
  | nil => rfl
  | append_singleton results result ih =>
      rw [progress_concat, ih, record, List.countP_append, List.countP_append, List.filter_append]
      by_cases hok : result.isSuccess = true
      · simp [hok]
      · simp [hok]

/-- The counts of a report agree with each other. -/
structure IsConsistent (r : BulkReport) : Prop where
  failed_eq : r.failed = r.failures.length
  success_add_failed_le : r.success + r.failed ≤ r.total

theorem success_add_failed_progress (total : Nat) (results : List RecipientResult) :
    (progress total results).success + (progress total results).failed = results.length := by
  rw [progress_eq, List.length_eq_countP_add_countP (·.isSuccess)]
  simp

theorem isConsistent_progress {total : Nat} {results : List RecipientResult}
    (h : results.length ≤ total) : (progress total results).IsConsistent where
  failed_eq := by
    rw [progress_eq]
    exact List.countP_eq_length_filter
  success_add_failed_le := by
    rw [success_add_failed_progress, progress_eq]
    exact h

theorem IsConsistent.finish {r : BulkReport} (h : r.IsConsistent) : r.finish.IsConsistent :=
  ⟨h.failed_eq, h.success_add_failed_le⟩

/-- The report on a job that is over: it accounts for all recipients, in the order of sending. -/
structure IsFinal (r : BulkReport) (recipients : List String) (results : List RecipientResult) :
    Prop where
  recipients_eq : results.map (·.recipient) = recipients
  total_eq : r.total = recipients.length
  success_add_failed : r.success + r.failed = r.total
  failures_eq : r.failures = results.filter (!·.isSuccess)
  failed_eq : r.failed = r.failures.length
  isDone_eq : r.isDone = true

theorem isFinal_finish {recipients : List String} {results : List RecipientResult}
    (h : results.map (·.recipient) = recipients) :
    (progress recipients.length results).finish.IsFinal recipients results := by
  have hlength : results.length = recipients.length := by rw [← h, List.length_map]
  have hconsistent := (isConsistent_progress hlength.le).finish
  refine ⟨h, ?_, ?_, ?_, hconsistent.failed_eq, rfl⟩
  · rw [BulkReport.finish, progress_eq]
  · refine (success_add_failed_progress recipients.length results).trans ?_
    rw [BulkReport.finish, progress_eq, hlength]
  · rw [BulkReport.finish, progress_eq]

end BulkReport

/-! ## Jobs -/

namespace BulkJobs

variable (jobs : BulkJobs) (id : String) {other : String}

theorem get?_modify (change : BulkReport → BulkReport) :
    (jobs.modify id change).get? id = (jobs.get? id).map change := by
  unfold modify
  cases h : jobs.get? id with
  | none => exact h
  | some report => exact Dict.get?_insert_self ..

theorem get?_modify_of_ne (h : other ≠ id) (change : BulkReport → BulkReport) :
    (jobs.modify id change).get? other = jobs.get? other := by
  unfold modify
  cases jobs.get? id with
  | none => rfl
  | some report => exact Dict.get?_insert_of_ne _ h _

end BulkJobs

/-! ## Turns -/

structure BulkCall where
  channel : Channel
  job : String
  recipients : List String

/-- A turn of one of several bulk sends.  If it sends at this turn, this is what comes of it, and
the logo that is kept. -/
structure BulkTurn (ι : Type) where
  call : ι
  result : Except DeliveryError Unit
  logo : LogoCache

namespace BulkTurn

variable {ι : Type}

def answer (calls : ι → BulkCall) (t : BulkTurn ι) (step : BulkStep) (d : Dispatcher) :
    step.Reply × Dispatcher :=
  Id.run <| Dispatcher.handle
    (fun d _ => pure (d.conclude (calls t.call).channel t.result t.logo)) (calls t.call).job step d

variable (calls : ι → BulkCall) (t : BulkTurn ι) (d : Dispatcher)

theorem answer_start (total : Nat) :
    t.answer calls (.start total) d =
      ((), { d with jobs := d.jobs.start (calls t.call).job total }) := rfl

theorem answer_send (recipient : String) :
    t.answer calls (.send recipient) d =
      d.conclude (calls t.call).channel t.result t.logo := rfl

theorem answer_record (result : RecipientResult) :
    t.answer calls (.record result) d =
      ((), { d with jobs := d.jobs.record (calls t.call).job result }) := rfl

theorem answer_finish :
    t.answer calls .finish d =
      ((d.jobs.finish (calls t.call).job).get? (calls t.call).job,
        { d with jobs := d.jobs.finish (calls t.call).job }) := rfl

end BulkTurn

def BulkStep.result? : (step : BulkStep) × step.Reply → Option RecipientResult
  | ⟨.send recipient, outcome⟩ => some (outcome.forRecipient recipient)
  | _ => none

def resultsOf (heard : List ((step : BulkStep) × step.Reply)) : List RecipientResult :=
  heard.filterMap BulkStep.result?

section Results

variable (heard : List ((step : BulkStep) × step.Reply))

theorem resultsOf_concat_send (recipient : String) (outcome : SendOutcome) :
    resultsOf (heard ++ [⟨.send recipient, outcome⟩]) =
      resultsOf heard ++ [outcome.forRecipient recipient] :=
  List.filterMap_append

theorem resultsOf_concat_record (result : RecipientResult) (reply : Unit) :
    resultsOf (heard ++ [⟨.record result, reply⟩]) = resultsOf heard :=
  List.filterMap_append.trans (List.append_nil _)

theorem resultsOf_concat_finish (reply : Option BulkReport) :
    resultsOf (heard ++ [⟨.finish, reply⟩]) = resultsOf heard :=
  List.filterMap_append.trans (List.append_nil _)

end Results

theorem recipient_forRecipient (o : SendOutcome) (recipient : String) :
    (o.forRecipient recipient).recipient = recipient := by
  unfold SendOutcome.forRecipient
  split <;> rfl

theorem length_le_of_append {results : List RecipientResult} {rest recipients : List String}
    (h : results.map (·.recipient) ++ rest = recipients) : results.length ≤ recipients.length := by
  rw [← h, List.length_append, List.length_map]
  exact Nat.le_add_right ..

/-! ## Stages -/

/-- How far a bulk send is: what is left of it, the report on its job, and what it has heard. -/
inductive BulkStage (before : Option BulkReport) (recipients : List String) :
    BulkSending BulkReport → Option BulkReport → List ((step : BulkStep) × step.Reply) → Prop
  | waiting :
    BulkStage before recipients
      (.ask (.start recipients.length) fun _ => bulkRest recipients.length recipients) before []
  | sending {recipient : String} {rest : List String}
      {heard : List ((step : BulkStep) × step.Reply)}
      (hresults : (resultsOf heard).map (·.recipient) ++ recipient :: rest = recipients)
      (hlength : heard.length = 2 * (resultsOf heard).length + 1) :
    BulkStage before recipients
      (.ask (.send recipient) fun outcome =>
        .ask (.record (outcome.forRecipient recipient)) fun _ => bulkRest recipients.length rest)
      (some (.progress recipients.length (resultsOf heard))) heard
  | recording {earlier : List RecipientResult} {result : RecipientResult} {rest : List String}
      {heard : List ((step : BulkStep) × step.Reply)}
      (hlast : resultsOf heard = earlier ++ [result])
      (hresults : (resultsOf heard).map (·.recipient) ++ rest = recipients)
      (hlength : heard.length = 2 * (resultsOf heard).length) :
    BulkStage before recipients
      (.ask (.record result) fun _ => bulkRest recipients.length rest)
      (some (.progress recipients.length earlier)) heard
  | finishing {heard : List ((step : BulkStep) × step.Reply)}
      (hresults : (resultsOf heard).map (·.recipient) = recipients)
      (hlength : heard.length = 2 * (resultsOf heard).length + 1) :
    BulkStage before recipients
      (.ask .finish fun report =>
        .done (report.getD { total := recipients.length, isDone := true }))
      (some (.progress recipients.length (resultsOf heard))) heard
  | finished {heard : List ((step : BulkStep) × step.Reply)}
      (hresults : (resultsOf heard).map (·.recipient) = recipients) :
    BulkStage before recipients
      (.done (BulkReport.progress recipients.length (resultsOf heard)).finish)
      (some (BulkReport.progress recipients.length (resultsOf heard)).finish) heard

namespace BulkStage

variable {before : Option BulkReport} {recipients : List String}

theorem of_bulkRest {rest : List String} {heard : List ((step : BulkStep) × step.Reply)}
    (hresults : (resultsOf heard).map (·.recipient) ++ rest = recipients)
    (hlength : heard.length = 2 * (resultsOf heard).length + 1) :
    BulkStage before recipients (bulkRest recipients.length rest)
      (some (.progress recipients.length (resultsOf heard))) heard := by
  cases rest with
  | nil =>
      rw [List.append_nil] at hresults
      exact .finishing hresults hlength
  | cons recipient rest => exact .sending hresults hlength

/-- A bulk send gets from one stage to the next at its own turns. -/
theorem answer {ι : Type} {calls : ι → BulkCall} {t : BulkTurn ι} {step : BulkStep}
    {next : step.Reply → BulkSending BulkReport} {d : Dispatcher}
    {heard : List ((step : BulkStep) × step.Reply)}
    (h : BulkStage before recipients (.ask step next) (d.jobs.get? (calls t.call).job) heard) :
    BulkStage before recipients (next (t.answer calls step d).1)
      ((t.answer calls step d).2.jobs.get? (calls t.call).job)
      (heard ++ [⟨step, (t.answer calls step d).1⟩]) := by
  generalize hentry : d.jobs.get? (calls t.call).job = entry at h
  cases h with
  | waiting =>
      rw [t.answer_start, BulkJobs.start, Dict.get?_insert_self]
      exact @of_bulkRest _ _ _ [⟨.start recipients.length, ()⟩] rfl rfl
  | @sending recipient rest _ hresults hlength =>
      rw [t.answer_send]
      refine hentry ▸ .recording (resultsOf_concat_send ..) ?_ ?_
      · rw [resultsOf_concat_send, List.map_append, List.append_assoc, List.map_singleton,
          recipient_forRecipient]
        exact hresults
      · rw [resultsOf_concat_send, List.length_append, List.length_append, hlength]
        rfl
  | @recording earlier result rest _ hlast hresults hlength =>
      rw [t.answer_record, BulkJobs.record, BulkJobs.get?_modify, hentry, Option.map_some,
        ← BulkReport.progress_concat, ← hlast, ← resultsOf_concat_record heard result ()]
      refine of_bulkRest ?_ ?_
      · rwa [resultsOf_concat_record]
      · rw [resultsOf_concat_record, List.length_append, hlength]
        rfl
  | finishing hresults hlength =>
      rw [t.answer_finish, BulkJobs.finish, BulkJobs.get?_modify, hentry, Option.map_some]
      have hresults' := resultsOf_concat_finish heard
        (some (BulkReport.progress recipients.length (resultsOf heard)).finish)
      have h : BulkStage before recipients _ _ (heard ++ [⟨.finish, some _⟩]) :=
        .finished (hresults' ▸ hresults)
      rw [hresults'] at h
      exact h

section

variable {rest : BulkSending BulkReport} {entry : Option BulkReport} {report : BulkReport}
  {heard : List ((step : BulkStep) × step.Reply)}

/-- A bulk send that is done has sent to all recipients, and returns the report on its job. -/
theorem of_done (h : BulkStage before recipients (.done report) entry heard) :
    report.IsFinal recipients (resultsOf heard) ∧ entry = some report := by
  cases h with
  | finished hresults => exact ⟨BulkReport.isFinal_finish hresults, rfl⟩

theorem length_lt_of_ask {step : BulkStep} {next : step.Reply → BulkSending BulkReport}
    (h : BulkStage before recipients (.ask step next) entry heard) :
    heard.length < 2 * recipients.length + 2 := by
  cases h with
  | waiting => exact Nat.succ_pos _
  | sending hresults hlength =>
      have hle := length_le_of_append hresults
      omega
  | recording hlast hresults hlength =>
      have hle := length_le_of_append hresults
      omega
  | finishing hresults hlength =>
      have hle := length_le_of_append ((List.append_nil _).trans hresults)
      omega

theorem isConsistent (h : BulkStage before recipients rest entry heard)
    (hreport : entry = some report) :
    before = some report ∨ report.IsConsistent := by
  cases h with
  | waiting => exact .inl hreport
  | sending hresults hlength =>
      obtain rfl := Option.some.inj hreport
      exact .inr (BulkReport.isConsistent_progress (length_le_of_append hresults))
  | @recording earlier result _ _ hlast hresults hlength =>
      obtain rfl := Option.some.inj hreport
      have hle := length_le_of_append hresults
      rw [hlast, List.length_append] at hle
      exact .inr (BulkReport.isConsistent_progress (Nat.le_of_add_right_le hle))
  | finishing hresults hlength =>
      obtain rfl := Option.some.inj hreport
      have hle := length_le_of_append ((List.append_nil _).trans hresults)
      exact .inr (BulkReport.isConsistent_progress hle)
  | finished hresults =>
      obtain rfl := Option.some.inj hreport
      have hle := length_le_of_append ((List.append_nil _).trans hresults)
      exact .inr (BulkReport.isConsistent_progress hle).finish

end

end BulkStage

/-! ## Counters -/

def Tally.total (t : Tally) : Nat :=
  t.success + t.failure

theorem Tally.total_count (t : Tally) (o : SendOutcome) : (t.count o).total = t.total + 1 := by
  unfold Tally.count Tally.total
  split
  · exact Nat.add_right_comm ..
  · rfl

theorem Attempts.total_tally_count (a : Attempts) (channel counted : Channel) (o : SendOutcome) :
    ((a.count counted o).tally channel).total =
      (a.tally channel).total + if counted = channel then 1 else 0 := by
  cases counted <;> cases channel <;>
    simp [Attempts.count, Attempts.tally, Tally.total_count]

/-! ## Bulk sends in turns -/

namespace BulkTurn

variable {ι : Type} {calls : ι → BulkCall} (t : BulkTurn ι) (d : Dispatcher)

theorem get?_jobs_answer_of_ne {id : String} (h : id ≠ (calls t.call).job) (step : BulkStep) :
    (t.answer calls step d).2.jobs.get? id = d.jobs.get? id := by
  cases step with
  | start total => exact Dict.get?_insert_of_ne _ h _
  | send recipient => rfl
  | record result => exact BulkJobs.get?_modify_of_ne _ _ h _
  | finish => exact BulkJobs.get?_modify_of_ne _ _ h _

theorem answer_congr {d' : Dispatcher}
    (h : d.jobs.get? (calls t.call).job = d'.jobs.get? (calls t.call).job) (step : BulkStep) :
    (t.answer calls step d).1 = (t.answer calls step d').1 ∧
      (t.answer calls step d).2.jobs.get? (calls t.call).job =
        (t.answer calls step d').2.jobs.get? (calls t.call).job := by
  cases step with
  | start total =>
      rw [t.answer_start, t.answer_start]
      exact ⟨rfl, (Dict.get?_insert_self ..).trans (Dict.get?_insert_self ..).symm⟩
  | send recipient => exact ⟨rfl, h⟩
  | record result =>
      rw [t.answer_record, t.answer_record, BulkJobs.record, BulkJobs.record, BulkJobs.get?_modify,
        BulkJobs.get?_modify, h]
      exact ⟨rfl, rfl⟩
  | finish =>
      rw [t.answer_finish, t.answer_finish, BulkJobs.finish, BulkJobs.finish, BulkJobs.get?_modify,
        BulkJobs.get?_modify, h]
      exact ⟨rfl, rfl⟩

theorem total_tally_answer (step : BulkStep) (channel : Channel) :
    ((t.answer calls step d).2.attempts.tally channel).total =
      (d.attempts.tally channel).total +
        if (calls t.call).channel = channel then
          (resultsOf [⟨step, (t.answer calls step d).1⟩]).length else 0 := by
  cases step with
  | send recipient => exact Attempts.total_tally_count ..
  | _ => exact (congrArg (_ + ·) (ite_self 0)).symm

end BulkTurn

abbrev BulkCrew (ι : Type) := Crew ι BulkStep BulkStep.Reply BulkReport Dispatcher

namespace BulkCrew

variable {ι : Type} [DecidableEq ι] (calls : ι → BulkCall)

def begin (d : Dispatcher) : BulkCrew ι where
  rest i := bulkSend (calls i).recipients
  memory := d

def turns (c : BulkCrew ι) (ts : List (BulkTurn ι)) : BulkCrew ι :=
  Crew.turns BulkTurn.call (BulkTurn.answer calls) c ts

def results (c : BulkCrew ι) (ts : List (BulkTurn ι)) (i : ι) : List RecipientResult :=
  resultsOf (c.heard BulkTurn.call (BulkTurn.answer calls) i ts)

def report? (c : BulkCrew ι) (i : ι) : Option BulkReport :=
  c.memory.jobs.get? (calls i).job

variable {calls} (d : Dispatcher) (ts : List (BulkTurn ι))

omit [DecidableEq ι] in
theorem rest_begin (i : ι) : (begin calls d).rest i = bulkSend (calls i).recipients := rfl

theorem stage_turns (hjobs : Function.Injective fun i => (calls i).job) (i : ι) :
    BulkStage ((begin calls d).report? calls i) (calls i).recipients
      (((begin calls d).turns calls ts).rest i) (((begin calls d).turns calls ts).report? calls i)
      ((begin calls d).heard BulkTurn.call (BulkTurn.answer calls) i ts) := by
  refine Crew.turns_induction (fun d : Dispatcher => d.jobs.get? (calls i).job) ?_ ?_ ts [] .waiting
  · rintro t step next d heard rfl h
    exact h.answer
  · intro t step d hne
    exact t.get?_jobs_answer_of_ne d (fun heq => hne (hjobs heq.symm)) step

theorem total_tally_turn (c : BulkCrew ι) (t : BulkTurn ι) (channel : Channel) :
    ((c.turns calls [t]).memory.attempts.tally channel).total =
      (c.memory.attempts.tally channel).total +
        if (calls t.call).channel = channel then
          (resultsOf (Crew.firstExchange (t.answer calls) (c.rest t.call) c.memory)).length
        else 0 := by
  change ((Crew.turn _ _ c t).memory.attempts.tally channel).total = _
  cases hrest : c.rest t.call with
  | done report =>
      rw [Crew.turn_of_done hrest]
      exact (congrArg (_ + ·) (ite_self 0)).symm
  | ask step next =>
      rw [Crew.memory_turn hrest]
      exact t.total_tally_answer c.memory step channel

theorem length_results_cons (c : BulkCrew ι) (t : BulkTurn ι) (i : ι) :
    (c.results calls (t :: ts) i).length =
      (if t.call = i then
        (resultsOf (Crew.firstExchange (t.answer calls) (c.rest i) c.memory)).length else 0) +
        ((c.turns calls [t]).results calls ts i).length := by
  have happend : c.results calls (t :: ts) i = _ ++ (c.turns calls [t]).results calls ts i :=
    List.filterMap_append
  rw [happend, List.length_append]
  split <;> rfl

theorem total_tally_turns [Fintype ι] (c : BulkCrew ι) (channel : Channel) :
    ((c.turns calls ts).memory.attempts.tally channel).total =
      (c.memory.attempts.tally channel).total +
        ∑ i with (calls i).channel = channel, (c.results calls ts i).length := by
  induction ts generalizing c with
  | nil =>
      have hnone : ∀ i, (c.results calls [] i).length = 0 := fun _ => rfl
      simp only [hnone, Finset.sum_const_zero, Nat.add_zero]
      rfl
  | cons t ts ih =>
      simp only [length_results_cons, Finset.sum_add_distrib, Finset.sum_ite_eq, Finset.mem_filter,
        Finset.mem_univ, true_and]
      rw [← Nat.add_assoc, ← total_tally_turn]
      exact ih (c.turns calls [t])

theorem isConsistent_of_get?_jobs (hjobs : Function.Injective fun i => (calls i).job) {id : String}
    {report : BulkReport} (h : ((begin calls d).turns calls ts).memory.jobs.get? id = some report) :
    d.jobs.get? id = some report ∨ report.IsConsistent := by
  by_cases hid : ∃ i, (calls i).job = id
  · obtain ⟨i, rfl⟩ := hid
    exact (stage_turns d ts hjobs i).isConsistent h
  · -- nobody's job: no turn touches it
    rw [not_exists] at hid
    refine .inl (Eq.trans (Eq.symm ?_) h)
    exact Crew.view_turns (fun d : Dispatcher => d.jobs.get? id)
      (fun t step d => t.get?_jobs_answer_of_ne d (Ne.symm (hid t.call)) step) ts (begin calls d)

theorem eq_turns_filter (hjobs : Function.Injective fun i => (calls i).job) (i : ι) :
    ((begin calls d).turns calls ts).rest i =
        ((begin calls d).turns calls (ts.filter (·.call = i))).rest i ∧
      ((begin calls d).turns calls ts).report? calls i =
        ((begin calls d).turns calls (ts.filter (·.call = i))).report? calls i := by
  refine Crew.turns_filter (fun d : Dispatcher => d.jobs.get? (calls i).job) ?_ ?_ ts rfl rfl
  · rintro t step d d' rfl hentry
    exact t.answer_congr d hentry step
  · intro t step d hne
    exact t.get?_jobs_answer_of_ne d (fun heq => hne (hjobs heq.symm)) step

theorem exists_done_of_le_countP (hjobs : Function.Injective fun i => (calls i).job) (i : ι)
    (h : 2 * (calls i).recipients.length + 2 ≤ ts.countP (·.call = i)) :
    ∃ report, ((begin calls d).turns calls ts).rest i = .done report := by
  -- as long as it is not done, each of its turns has answered one of its steps
  by_contra hnever
  rw [not_exists] at hnever
  have hheard := Crew.length_heard hnever
  have hstage := stage_turns d ts hjobs i
  cases hrest : ((begin calls d).turns calls ts).rest i with
  | done report => exact hnever report hrest
  | ask step next =>
      rw [hrest] at hstage
      have hlt := hstage.length_lt_of_ask
      omega

/-! ## A bulk send alone -/

section Alone

variable (calls) {σ : Type} (people : (n : Need) → σ → n.Reply × σ) (s : σ) (i : ι)

/-- When nothing else is sent, a bulk send is a crew in which only one takes turns. -/
theorem exists_turns_of_relay (send : Dispatcher → String → Delivering (SendOutcome × Dispatcher))
    (hsend : ∀ d recipient s, ∃ result logo,
      ((send d recipient).run people s).1 = d.conclude (calls i).channel result logo)
    (c : BulkCrew ι) :
    ∃ ts : List (BulkTurn ι), (∀ t ∈ ts, t.call = i) ∧
      (c.turns calls ts).rest i =
        .done
          (((c.rest i).relay (Dispatcher.handle send (calls i).job) c.memory).run people s).1.1 ∧
      (c.turns calls ts).memory =
        (((c.rest i).relay (Dispatcher.handle send (calls i).job) c.memory).run people s).1.2 := by
  generalize hrest : c.rest i = rest
  induction rest generalizing c s with
  | done report => exact ⟨[], List.forall_mem_nil _, hrest, rfl⟩
  | ask step next ih =>
      obtain ⟨t, rfl, hanswer⟩ : ∃ t : BulkTurn ι, t.call = i ∧
          t.answer calls step c.memory =
            ((Dispatcher.handle send (calls i).job step c.memory).run people s).1 := by
        cases step with
        | send recipient =>
            obtain ⟨result, logo, hconclude⟩ := hsend c.memory recipient s
            exact ⟨⟨i, result, logo⟩, rfl, hconclude.symm⟩
        | _ => exact ⟨⟨i, .ok (), none⟩, rfl, rfl⟩
      have hmemory : (Crew.turn BulkTurn.call (BulkTurn.answer calls) c t).memory =
          (t.answer calls step c.memory).2 := Crew.memory_turn hrest
      obtain ⟨ts, hts, hdone, hafter⟩ := ih _ _ _ (Crew.rest_turn_self hrest)
      refine ⟨t :: ts, List.forall_mem_cons.mpr ⟨rfl, hts⟩, ?_⟩
      rw [hmemory, hanswer] at hdone hafter
      rw [Dialogue.relay, Dialogue.run_bind]
      exact ⟨hdone, hafter⟩

variable {i} {job : String}

theorem exists_turns_of_sendEmailBulk (mail : Mail)
    (hcall : calls i = ⟨.email, job, mail.recipients⟩) :
    ∃ ts : List (BulkTurn ι), (∀ t ∈ ts, t.call = i) ∧
      ((begin calls d).turns calls ts).rest i =
        .done ((d.sendEmailBulk job mail).run people s).1.1 ∧
      ((begin calls d).turns calls ts).memory = ((d.sendEmailBulk job mail).run people s).1.2 := by
  have halone := exists_turns_of_relay calls people s i
    (fun d recipient => d.sendEmail { mail with recipients := [recipient] }) ?_ (begin calls d)
  · rw [rest_begin, hcall] at halone
    exact halone
  · intro d recipient s
    rw [hcall]
    exact ⟨_, _, congrArg Prod.fst (Dialogue.run_bind ..)⟩

theorem exists_turns_of_sendSmsBulk (message : String) {recipients : List String}
    (hcall : calls i = ⟨.sms, job, recipients⟩) :
    ∃ ts : List (BulkTurn ι), (∀ t ∈ ts, t.call = i) ∧
      ((begin calls d).turns calls ts).rest i =
        .done ((d.sendSmsBulk job recipients message).run people s).1.1 ∧
      ((begin calls d).turns calls ts).memory =
        ((d.sendSmsBulk job recipients message).run people s).1.2 := by
  have halone := exists_turns_of_relay calls people s i
    (fun d recipient => d.sendSms [recipient] message) ?_ (begin calls d)
  · rw [rest_begin, hcall] at halone
    exact halone
  · intro d recipient s
    rw [hcall]
    exact ⟨_, _, congrArg Prod.fst (Dialogue.run_bind ..)⟩

end Alone

variable (calls) in
/-- However bulk sends with different jobs take turns, and whatever comes of each send: one that is
done returns the report on its own recipients in their order, it is done once it has had its turns,
and it does not notice the others.  At every moment the counts of a job agree with each other, a
step leaves the jobs of others alone, and the counters of a channel have grown by one with every
send: when all are done, by one for every recipient. -/
theorem reports_of_turns [Fintype ι] (hjobs : Function.Injective fun i => (calls i).job) :
    let start := begin calls d
    let now := start.turns calls ts
    (∀ i, let alone := start.turns calls (ts.filter (·.call = i))
      (∀ report, now.rest i = .done report →
        report.IsFinal (calls i).recipients (start.results calls ts i) ∧
          now.report? calls i = some report) ∧
      (2 * (calls i).recipients.length + 2 ≤ ts.countP (·.call = i) →
        ∃ report, now.rest i = .done report) ∧
      now.rest i = alone.rest i ∧ now.report? calls i = alone.report? calls i) ∧
    (∀ id report, now.memory.jobs.get? id = some report →
      d.jobs.get? id = some report ∨ report.IsConsistent) ∧
    (∀ t id, id ≠ (calls t.call).job →
      (now.turns calls [t]).memory.jobs.get? id = now.memory.jobs.get? id) ∧
    ∀ channel,
      (now.memory.attempts.tally channel).total =
        (d.attempts.tally channel).total +
          ∑ i with (calls i).channel = channel, (start.results calls ts i).length ∧
      ((∀ i, ∃ report, now.rest i = .done report) →
        (now.memory.attempts.tally channel).total =
          (d.attempts.tally channel).total +
            ∑ i with (calls i).channel = channel, (calls i).recipients.length) := by
  intro start now
  have hfinal : ∀ i report, now.rest i = .done report →
      report.IsFinal (calls i).recipients (start.results calls ts i) ∧
        now.report? calls i = some report := by
    intro i report hdone
    have hstage := stage_turns d ts hjobs i
    rw [hdone] at hstage
    exact hstage.of_done
  refine ⟨fun i => ⟨hfinal i, ?_, eq_turns_filter d ts hjobs i⟩, ?_, ?_, fun channel => ?_⟩
  · exact exists_done_of_le_countP d ts hjobs i
  · intro id report h
    exact isConsistent_of_get?_jobs d ts hjobs h
  · intro t id hid
    exact Crew.view_turn (fun d : Dispatcher => d.jobs.get? id)
      fun step d => t.get?_jobs_answer_of_ne d hid step
  · refine ⟨total_tally_turns ts start channel, fun hdone => ?_⟩
    refine (total_tally_turns ts start channel).trans (congrArg _ (Finset.sum_congr rfl ?_))
    intro i _
    obtain ⟨report, hreport⟩ := hdone i
    rw [← (hfinal i report hreport).1.recipients_eq, List.length_map]

def pairCalls : Bool → BulkCall
  | false => ⟨.email, "mail", ["ann", "ann"]⟩
  | true => ⟨.sms, "text", ["+1"]⟩

def pairTurns : List (BulkTurn Bool) :=
  [⟨false, .ok (), none⟩, ⟨true, .ok (), none⟩, ⟨false, .error (.mail "busy"), none⟩,
   ⟨true, .error (.http "down"), none⟩, ⟨true, .ok (), none⟩, ⟨false, .ok (), none⟩,
   ⟨false, .ok (), none⟩, ⟨true, .ok (), none⟩, ⟨false, .ok (), none⟩, ⟨false, .ok (), none⟩]

theorem reports_of_turns_pair :
    (Function.Injective fun i => (pairCalls i).job) ∧
      (∃ report, ((begin pairCalls {}).turns pairCalls pairTurns).rest false = .done report ∧
        report.IsFinal ["ann", "ann"]
          [.failed "ann" "Notify: SMTP error: busy", .success "ann"]) ∧
      ∃ report, ((begin pairCalls {}).turns pairCalls pairTurns).rest true = .done report ∧
        report.IsFinal ["+1"] [.failed "+1" "Notify: HTTP request failed: down"] := by
  have hjobs : Function.Injective fun i => (pairCalls i).job := by decide
  obtain ⟨hcalls, -⟩ := reports_of_turns pairCalls {} pairTurns hjobs
  refine ⟨hjobs, ?_, ?_⟩
  · obtain ⟨hreport, hdone, -⟩ := hcalls false
    obtain ⟨report, h⟩ := hdone (by decide)
    exact ⟨report, h, (hreport report h).1⟩
  · obtain ⟨hreport, hdone, -⟩ := hcalls true
    obtain ⟨report, h⟩ := hdone (by decide)
    exact ⟨report, h, (hreport report h).1⟩

end BulkCrew

end Alerting.Delivery
