import Alerting.Proofs.Store.Runs
import Alerting.Store.Rules
import Mathlib.Data.List.Nodup
/-!
# The history of runs

Whatever is done to a store, its runs remain an audit trail: each is running until it has an end,
and from then on it never changes; none is ever lost.  Every operation is looked at once, in
`runs_of_perform?`; what holds after any number of operations follows from that.
-/

namespace Alerting

namespace Run

theorem status_eq_of_statusName {r : Run} {status : Status} (h : r.statusName = status.name) :
    r.status = status := by
  unfold Run.status
  rw [h]
  cases status <;> decide +kernel

/-- A run is running as long as it has no end, and says nothing until then. -/
structure IsConsistent (r : Run) : Prop where
  statusName_eq : r.statusName = r.status.name
  running_iff : r.status = .running ↔ r.finishedAt = none
  message_eq : r.status = .running → r.message = ""

theorem isConsistent_start (id ruleId : String) (origin : Origin) (now : Instant) :
    (start id ruleId origin now).IsConsistent := by
  have hstatus : (start id ruleId origin now).status = .running := status_eq_of_statusName rfl
  exact ⟨congrArg Status.name hstatus.symm, iff_of_true hstatus rfl, fun _ => rfl⟩

theorem isConsistent_finish (r : Run) {status : Status} (hfinal : status.isFinal = true)
    (message : String) (now : Instant) : (r.finish status message now).IsConsistent := by
  have hstatus : (r.finish status message now).status = status := status_eq_of_statusName rfl
  have hne : (r.finish status message now).status ≠ .running := by
    rw [hstatus]
    rintro rfl
    cases hfinal
  exact ⟨congrArg Status.name hstatus.symm, iff_of_false hne nofun, fun h => absurd h hne⟩

/-- What a run may be later: how it was started never changes, and nothing does once it is over. -/
structure Becomes (r later : Run) : Prop where
  id_eq : later.id = r.id
  ruleId_eq : later.ruleId = r.ruleId
  originName_eq : later.originName = r.originName
  startedAt_eq : later.startedAt = r.startedAt
  eq_of_final : r.status ≠ .running → later = r

theorem Becomes.refl (r : Run) : r.Becomes r :=
  ⟨rfl, rfl, rfl, rfl, fun _ => rfl⟩

theorem Becomes.trans {r later latest : Run} (h : r.Becomes later) (h' : later.Becomes latest) :
    r.Becomes latest where
  id_eq := h'.id_eq.trans h.id_eq
  ruleId_eq := h'.ruleId_eq.trans h.ruleId_eq
  originName_eq := h'.originName_eq.trans h.originName_eq
  startedAt_eq := h'.startedAt_eq.trans h.startedAt_eq
  eq_of_final hfinal := by
    have hlater := h.eq_of_final hfinal
    exact (h'.eq_of_final (hlater ▸ hfinal)).trans hlater

theorem becomes_finish {r : Run} (hrunning : r.status = .running) (status : Status)
    (message : String) (now : Instant) : r.Becomes (r.finish status message now) :=
  ⟨rfl, rfl, rfl, rfl, fun hfinal => absurd hrunning hfinal⟩

end Run

namespace Store

/-! ## Operations -/

inductive Operation where
  | insertRule (rule : NewRule) (now : Instant)
  | updateRule (id : String) (edit : RuleEdit) (now : Instant)
  | setLastRun (id : String) (finished : Instant) (status : String)
  | deleteRule (id : String)
  | startRun (id ruleId : String) (origin : Run.Origin) (now : Instant)
  | finalizeRun (id : String) (status : Run.Status) (message : String) (now : Instant)

/-- The rule that an operation starts a run of. -/
def Operation.startedRule? : Operation → Option String
  | startRun _ ruleId _ _ => some ruleId
  | _ => none

/-- The store after an operation, unless that is refused. -/
def perform? (s : Store) : Operation → Except StoreError Store
  | .insertRule rule now => (s.insertRule rule now).map (·.2)
  | .updateRule id edit now => (s.updateRule id edit now).map (·.2)
  | .setLastRun id finished status => .ok (s.setLastRun id finished status).2
  | .deleteRule id => .ok (s.deleteRule id).2
  | .startRun id ruleId origin now => (s.startRun id ruleId origin now).map (·.2)
  | .finalizeRun id status message now => (s.finalizeRun id status message now).map (·.2)

def perform (s : Store) (op : Operation) : Store :=
  match s.perform? op with
  | .ok changed => changed
  | .error _ => s

def performAll (s : Store) (ops : List Operation) : Store :=
  ops.foldl perform s

/-- The operations that are not refused when they are tried one after another. -/
def accepted (s : Store) : List Operation → List Operation
  | [] => []
  | op :: rest =>
    match s.perform? op with
    | .ok changed => op :: accepted changed rest
    | .error _ => accepted s rest

section Step

variable {s s' : Store} {op : Operation}

theorem perform_of_ok (h : s.perform? op = .ok s') : s.perform op = s' := by
  unfold perform
  rw [h]

theorem perform_of_error {e : StoreError} (h : s.perform? op = .error e) : s.perform op = s := by
  unfold perform
  rw [h]

theorem perform_of_refused (h : (s.perform? op).isOk = false) : s.perform op = s := by
  cases hop : s.perform? op with
  | ok changed =>
      rw [hop] at h
      cases h
  | error e => exact perform_of_error hop

theorem of_map_snd_eq_ok {α : Type} {result? : Except StoreError (α × Store)}
    (h : result?.map (·.2) = .ok s') : ∃ result, result? = .ok result ∧ result.2 = s' := by
  cases result? with
  | ok result => exact ⟨result, rfl, Except.ok.inj h⟩
  | error e => cases h

theorem runs_of_insertRule {rule : NewRule} {now : Instant} {result : StoredRule × Store}
    (h : s.insertRule rule now = .ok result) : result.2.runs = s.runs := by
  unfold insertRule at h
  split at h
  · cases h
  · split at h
    · cases h
    · rw [← Except.ok.inj h]

theorem runs_of_updateRule {id : String} {edit : RuleEdit} {now : Instant}
    {result : Option StoredRule × Store} (h : s.updateRule id edit now = .ok result) :
    result.2.runs = s.runs := by
  unfold updateRule at h
  split at h
  · rw [← Except.ok.inj h]
  · dsimp only at h
    split at h
    · cases h
    · rw [← Except.ok.inj h]
      rfl

/-- What an operation does to the runs: it starts one, ends one that is running, or leaves them. -/
inductive Changes (s : Store) : Operation → List Run → Prop where
  | start {id : String} (ruleId : String) (origin : Run.Origin) (now : Instant)
      (hfresh : ∀ r ∈ s.runs, r.id ≠ id) :
      Changes s (.startRun id ruleId origin now) (s.runs ++ [.start id ruleId origin now])
  | finish {id : String} {status : Run.Status} (message : String) (now : Instant) {run : Run}
      (hfinal : status.isFinal = true) (hrun : s.run? id = some run)
      (hrunning : run.statusName = Run.Status.running.name) :
      Changes s (.finalizeRun id status message now)
        (s.runs.map fun r => if r.id = id then run.finish status message now else r)
  | keep {op : Operation} (hop : op.startedRule? = none) : Changes s op s.runs

theorem changes_of_perform? (h : s.perform? op = .ok s') : s.Changes op s'.runs := by
  cases op with
  | insertRule rule now =>
      obtain ⟨result, hresult, rfl⟩ := of_map_snd_eq_ok h
      rw [runs_of_insertRule hresult]
      exact .keep rfl
  | updateRule id edit now =>
      obtain ⟨result, hresult, rfl⟩ := of_map_snd_eq_ok h
      rw [runs_of_updateRule hresult]
      exact .keep rfl
  | setLastRun id finished status =>
      obtain rfl := Except.ok.inj h
      exact .keep rfl
  | deleteRule id =>
      obtain rfl := Except.ok.inj h
      exact .keep rfl
  | startRun id ruleId origin now =>
      obtain ⟨result, hresult, rfl⟩ := of_map_snd_eq_ok h
      obtain ⟨hfresh, hs'⟩ := of_startRun_eq_ok hresult
      rw [hs']
      exact .start ruleId origin now hfresh
  | finalizeRun id status message now =>
      obtain ⟨result, hresult, rfl⟩ := of_map_snd_eq_ok h
      obtain ⟨hfinal, run, hrun, hrunning, hs'⟩ := of_finalizeRun_eq_ok hresult
      rw [hs']
      exact .finish message now hfinal hrun hrunning

end Step

/-! ## What one operation keeps -/

structure IsTrail (s : Store) : Prop where
  nodup_ids : (s.runs.map (·.id)).Nodup
  isConsistent : ∀ r ∈ s.runs, r.IsConsistent

/-- The runs of a store are those of a later one, in their places and as far as they had come. -/
def Precedes (s later : Store) : Prop :=
  ∀ (i : Nat) (r : Run), s.runs[i]? = some r → ∃ r', later.runs[i]? = some r' ∧ r.Becomes r'

theorem Precedes.refl (s : Store) : s.Precedes s :=
  fun _ r hr => ⟨r, hr, .refl r⟩

theorem Precedes.trans {s later latest : Store} (h : s.Precedes later)
    (h' : later.Precedes latest) : s.Precedes latest := by
  intro i r hr
  obtain ⟨r', hr', hbecomes⟩ := h i r hr
  obtain ⟨r'', hr'', hbecomes'⟩ := h' i r' hr'
  exact ⟨r'', hr'', hbecomes.trans hbecomes'⟩

section Kept

variable {s s' : Store} {op : Operation}

theorem IsTrail.eq_of_run? (htrail : s.IsTrail) {id : String} {run r : Run}
    (hrun : s.run? id = some run) (hr : r ∈ s.runs) (hid : r.id = id) : r = run := by
  have hrunid : run.id = id := by simpa using List.find?_some hrun
  exact List.inj_on_of_nodup_map htrail.nodup_ids hr (List.mem_of_find?_eq_some hrun)
    (hid.trans hrunid.symm)

theorem IsTrail.run?_of_mem (htrail : s.IsTrail) {r : Run} (hr : r ∈ s.runs) :
    s.run? r.id = some r := by
  cases hrun : s.run? r.id with
  | none =>
      have hnone := List.find?_eq_none.mp hrun r hr
      exact absurd (decide_eq_true rfl) hnone
  | some run => rw [htrail.eq_of_run? hrun hr rfl]

/-- As ids are unique, an end replaces the run that was found and no other. -/
theorem IsTrail.becomes_ended (htrail : s.IsTrail) {id : String} {run : Run}
    (hrun : s.run? id = some run) (hrunning : run.statusName = Run.Status.running.name)
    (status : Run.Status) (message : String) (now : Instant) {r : Run} (hr : r ∈ s.runs) :
    r.Becomes (if r.id = id then run.finish status message now else r) := by
  split
  · next hid =>
    rw [← htrail.eq_of_run? hrun hr hid] at hrunning ⊢
    exact Run.becomes_finish (Run.status_eq_of_statusName hrunning) status message now
  · exact .refl r

/-- An end leaves what never changes of a run. -/
theorem IsTrail.map_ended {α : Type} {field : Run → α}
    (hfield : ∀ {r later : Run}, r.Becomes later → field later = field r) (htrail : s.IsTrail)
    {id : String} {run : Run} (hrun : s.run? id = some run)
    (hrunning : run.statusName = Run.Status.running.name) (status : Run.Status) (message : String)
    (now : Instant) :
    (s.runs.map fun r => if r.id = id then run.finish status message now else r).map field =
      s.runs.map field := by
  rw [List.map_map]
  apply List.map_congr_left
  intro r hr
  exact hfield (htrail.becomes_ended hrun hrunning status message now hr)

theorem precedes_of_changes (htrail : s.IsTrail) (h : s.Changes op s'.runs) : s.Precedes s' := by
  generalize hruns : s'.runs = runs at h
  intro i r hr
  rw [hruns]
  cases h with
  | start ruleId origin now hfresh =>
      refine ⟨r, ?_, .refl r⟩
      rw [List.getElem?_append_left (List.getElem?_eq_some_iff.mp hr).1, hr]
  | finish message now hfinal hrun hrunning =>
      rw [List.getElem?_map, hr]
      exact ⟨_, rfl, htrail.becomes_ended hrun hrunning _ _ _ (List.mem_of_getElem? hr)⟩
  | keep hop => exact ⟨r, hr, .refl r⟩

theorem IsTrail.of_changes (htrail : s.IsTrail) (h : s.Changes op s'.runs) : s'.IsTrail := by
  generalize hruns : s'.runs = runs at h
  constructor
  · rw [hruns]
    cases h with
    | start ruleId origin now hfresh =>
        rw [List.map_append, List.map_singleton, List.nodup_append]
        refine ⟨htrail.nodup_ids, List.nodup_singleton _, ?_⟩
        intro a ha b hb hab
        obtain ⟨r, hr, rfl⟩ := List.mem_map.mp ha
        exact hfresh r hr (hab.trans (List.mem_singleton.mp hb))
    | finish message now hfinal hrun hrunning =>
        rw [htrail.map_ended Run.Becomes.id_eq hrun hrunning]
        exact htrail.nodup_ids
    | keep hop => exact htrail.nodup_ids
  · rw [hruns]
    cases h with
    | start ruleId origin now hfresh =>
        intro r hr
        rcases List.mem_append.mp hr with hr | hr
        · exact htrail.isConsistent r hr
        · rw [List.mem_singleton.mp hr]
          exact Run.isConsistent_start _ ruleId origin now
    | @finish id status message now run hfinal hrun hrunning =>
        rw [List.forall_mem_map]
        intro r hr
        split
        · exact Run.isConsistent_finish run hfinal message now
        · exact htrail.isConsistent r hr
    | keep hop => exact htrail.isConsistent

theorem map_ruleId_of_changes (htrail : s.IsTrail) (h : s.Changes op s'.runs) :
    s'.runs.map (·.ruleId) = s.runs.map (·.ruleId) ++ op.startedRule?.toList := by
  generalize hruns : s'.runs = runs at h
  cases h with
  | start ruleId origin now hfresh =>
      rw [List.map_append]
      rfl
  | finish message now hfinal hrun hrunning =>
      rw [htrail.map_ended Run.Becomes.ruleId_eq hrun hrunning]
      exact (List.append_nil _).symm
  | keep hop => rw [hop, Option.toList_none, List.append_nil]

end Kept

/-! ## Histories -/

section Histories

variable {s : Store} (htrail : s.IsTrail)

include htrail

theorem IsTrail.perform (op : Operation) :
    (s.perform op).IsTrail ∧ s.Precedes (s.perform op) := by
  cases h : s.perform? op with
  | ok changed =>
      rw [perform_of_ok h]
      have hchanges := changes_of_perform? h
      exact ⟨htrail.of_changes hchanges, precedes_of_changes htrail hchanges⟩
  | error e =>
      rw [perform_of_error h]
      exact ⟨htrail, .refl s⟩

theorem IsTrail.performAll (ops : List Operation) :
    (s.performAll ops).IsTrail ∧ s.Precedes (s.performAll ops) := by
  induction ops generalizing s with
  | nil => exact ⟨htrail, .refl s⟩
  | cons op rest ih =>
      obtain ⟨htrail', hprecedes⟩ := htrail.perform op
      obtain ⟨htrail'', hprecedes'⟩ := ih htrail'
      exact ⟨htrail'', hprecedes.trans hprecedes'⟩

/-- There is one run for each start that was not refused, in their order. -/
theorem IsTrail.map_ruleId_performAll (ops : List Operation) :
    (s.performAll ops).runs.map (·.ruleId) =
      s.runs.map (·.ruleId) ++ (s.accepted ops).filterMap Operation.startedRule? := by
  induction ops generalizing s with
  | nil => exact (List.append_nil _).symm
  | cons op rest ih =>
      rw [Store.performAll, List.foldl_cons, accepted]
      refine (ih (htrail.perform op).1).trans ?_
      cases h : s.perform? op with
      | ok changed =>
          rw [perform_of_ok h, map_ruleId_of_changes htrail (changes_of_perform? h),
            List.filterMap_cons, List.append_assoc]
          cases op.startedRule? <;> rfl
      | error e => rw [perform_of_error h]

theorem IsTrail.countP_performAll (ops : List Operation) (ruleId : String) :
    (s.performAll ops).runs.countP (·.ruleId = ruleId) =
      s.runs.countP (·.ruleId = ruleId) +
        (s.accepted ops).countP (·.startedRule? = some ruleId) := by
  have hcount := congrArg (List.countP (· = ruleId)) (htrail.map_ruleId_performAll ops)
  rw [List.countP_append, List.countP_map, List.countP_map, List.countP_filterMap] at hcount
  refine hcount.trans (congrArg _ (List.countP_congr fun op _ => ?_))
  cases op.startedRule? <;> simp

/-- The end of a run is accepted if it is one, and the run is there and running. -/
theorem IsTrail.isOk_finalizeRun_iff (id : String) (status : Run.Status) (message : String)
    (now : Instant) :
    (s.finalizeRun id status message now).isOk = true ↔
      status ≠ .running ∧ ∃ run, s.run? id = some run ∧ run.status = .running := by
  constructor
  · intro h
    cases hresult : s.finalizeRun id status message now with
    | ok result =>
        obtain ⟨hfinal, run, hrun, hrunning, -⟩ := of_finalizeRun_eq_ok hresult
        refine ⟨?_, run, hrun, Run.status_eq_of_statusName hrunning⟩
        rintro rfl
        cases hfinal
    | error e =>
        rw [hresult] at h
        cases h
  · rintro ⟨hstatus, run, hrun, hrunning⟩
    have hfinal : status.isFinal = true := by
      cases status
      · exact absurd rfl hstatus
      all_goals rfl
    have hname := (htrail.isConsistent run (List.mem_of_find?_eq_some hrun)).statusName_eq
    rw [hrunning] at hname
    rw [finalizeRun_of_running hfinal hrun hname]
    rfl

end Histories

theorem performAll_append (s : Store) (ops ops' : List Operation) :
    s.performAll (ops ++ ops') = (s.performAll ops).performAll ops' :=
  List.foldl_append

/-- After any operations on a store without runs, a run is running exactly as long as it has no end,
and says nothing until then; from then on it never changes.  There are as many runs of a rule as
starts of it that were not refused, which are those with an id that no run had.  An end is refused
if it is none, or if the run is not there or over; what is refused changes nothing. -/
theorem runs_of_history (s : Store) (before after : List Operation) :
    let start := { s with runs := [] }
    let earlier := start.performAll before
    let later := earlier.performAll after
    (∀ r ∈ later.runs,
      (r.status = .running ↔ r.finishedAt = none) ∧ (r.status = .running → r.message = "")) ∧
      earlier.Precedes later ∧
      (∀ r ∈ earlier.runs, r.status = .ok ∨ r.status = .failed → later.run? r.id = some r) ∧
      (∀ ruleId, later.runs.countP (·.ruleId = ruleId) =
        (start.accepted (before ++ after)).countP (·.startedRule? = some ruleId)) ∧
      (∀ id ruleId origin now, (later.startRun id ruleId origin now).isOk = true ↔
        ∀ r ∈ later.runs, r.id ≠ id) ∧
      (∀ id status message now,
        (later.finalizeRun id status message now).isOk = true ↔
          status ≠ .running ∧ ∃ run, later.run? id = some run ∧ run.status = .running) ∧
      ∀ op, (later.perform? op).isOk = false → later.perform op = later := by
  intro start earlier later
  have hstart : start.IsTrail := ⟨List.nodup_nil, nofun⟩
  have hearlier : earlier.IsTrail := (hstart.performAll before).1
  obtain ⟨hlater, hprecedes⟩ : later.IsTrail ∧ earlier.Precedes later :=
    hearlier.performAll after
  have hwhole : later = start.performAll (before ++ after) :=
    (performAll_append start before after).symm
  refine ⟨?_, hprecedes, ?_, ?_, isOk_startRun_iff, hlater.isOk_finalizeRun_iff,
    fun _ => perform_of_refused⟩
  · intro r hr
    exact ⟨(hlater.isConsistent r hr).running_iff, (hlater.isConsistent r hr).message_eq⟩
  · intro r hr hover
    obtain ⟨i, hi⟩ := List.mem_iff_getElem?.mp hr
    obtain ⟨r', hr', hbecomes⟩ := hprecedes i r hi
    have hfinal : r.status ≠ .running := by
      rcases hover with hover | hover <;> exact hover ▸ nofun
    rw [hbecomes.eq_of_final hfinal] at hr'
    exact hlater.run?_of_mem (List.mem_of_getElem? hr')
  · intro ruleId
    rw [hwhole, hstart.countP_performAll]
    exact Nat.zero_add _

end Store

end Alerting
