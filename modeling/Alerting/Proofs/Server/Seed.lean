import Alerting.Proofs.Dialogue
import Alerting.Proofs.Json.Yield
import Alerting.Proofs.Store.Rules
import Alerting.Proofs.Store.Settings
import Alerting.Server.Command
/-!
# Seeding

A seed adds a rule for each new name, the first that can be read, and leaves all other rules alone.
What the look at the known names misses, the store itself refuses.  So a seed that is planted again
adds nothing.
-/

namespace Alerting.Server

open Delivery Dialogue

/-! ## Rules -/

/-- A rule of a seed with the id and the time under which it is tried. -/
abbrev Sprout := SeedRule × String × Instant

def Sprout.addition (sprout : Sprout) : Store.Addition :=
  (sprout.1.newRule sprout.2.1, sprout.2.2)

/-- Whether a row is how a rule of a seed is kept. -/
def SeedRule.IsKeptAs (r : SeedRule) (row : StoredRule) : Prop :=
  ∃ id now, row = (r.newRule id).stored now

def freshId? : (n : Need) × n.Reply → Option String
  | ⟨.freshId, id⟩ => some id
  | _ => none

theorem addRules_cons (r : SeedRule) (rules : List SeedRule) (s : Store) :
    addRules (r :: rules) s = (do
      let id ← need .freshId
      let now ← need .instant
      addRules rules (s.perform (Sprout.addition (r, id, now)).operation)) := by
  rw [addRules]
  congr 1
  funext id
  congr 1
  funext now
  cases hresult : s.insertRule (r.newRule id) now with
  | ok result =>
      refine congrArg (addRules rules) (Store.perform_of_ok ?_).symm
      change (s.insertRule (r.newRule id) now).map (·.2) = _
      rw [hresult]
      rfl
  | error e =>
      refine congrArg (addRules rules) (Store.perform_of_error (e := e) ?_).symm
      change (s.insertRule (r.newRule id) now).map (·.2) = _
      rw [hresult]
      rfl

section Adding

variable {τ : Type} (people : (n : Need) → τ → n.Reply × τ)

def givenIds {α : Type} (d : Serving α) (t : τ) : List String :=
  (d.exchanges people t).filterMap freshId?

/-- Adding rules is a series of operations on the store. -/
theorem exists_sprouts (rules : List SeedRule) (s : Store) (t : τ) :
    ∃ sprouts : List Sprout, sprouts.map (·.1) = rules ∧
      sprouts.map (·.2.1) = givenIds people (addRules rules s) t ∧
      ((addRules rules s).run people t).1 =
        s.performAll ((sprouts.map Sprout.addition).map Store.Addition.operation) := by
  induction rules generalizing s t with
  | nil => exact ⟨[], rfl, rfl, rfl⟩
  | cons r rest ih =>
      let id := people .freshId t
      let now := people .instant id.2
      let sprout : Sprout := (r, id.1, now.1)
      obtain ⟨sprouts, hrules, hids, hrun⟩ := ih (s.perform sprout.addition.operation) now.2
      refine ⟨sprout :: sprouts, ?_, ?_, ?_⟩
      · rw [List.map_cons, hrules]
      · rw [List.map_cons, hids, addRules_cons]
        rfl
      · rw [addRules_cons]
        exact hrun

/-- Rules of which all names are taken change nothing. -/
theorem run_addRules_of_taken {rules : List SeedRule} {s : Store}
    (htaken : ∀ r ∈ rules, ∃ row ∈ s.rules, row.name = r.name) (t : τ) :
    ((addRules rules s).run people t).1 = s := by
  obtain ⟨sprouts, rfl, -, hrun⟩ := exists_sprouts people rules s t
  rw [hrun]
  apply Store.performAll_eq_self
  rw [List.map_map, List.forall_mem_map]
  intro sprout hsprout
  obtain ⟨row, hrow, hname⟩ := htaken sprout.1 (List.mem_map_of_mem hsprout)
  exact Store.perform_insertRule_of_taken (fun hfresh => (hfresh row hrow).2 hname) sprout.2.2

/-- The known names are names of rules, so looking at them loses no new name. -/
theorem Seed.find?_wanted (seed : Seed) {s : Store} {name : String}
    (hfree : ∀ row ∈ s.rules, row.name ≠ name) :
    (seed.wanted s).find? (·.name = name) =
      seed.rules.find? fun r => r.name = name && r.isValid := by
  unfold Seed.wanted
  rw [List.find?_filter]
  congr 1
  funext r
  by_cases hname : r.name = name
  · subst hname
    have hknown : (s.listRules none knownLimit 0).any (·.name = r.name) = false := by
      rw [List.any_eq_false]
      intro row hrow
      have hmem := List.mem_of_mem_drop (List.mem_of_mem_take hrow)
      rw [List.mem_mergeSort] at hmem
      simpa using hfree row (List.mem_of_mem_filter hmem)
    rw [hknown]
    simp
  · simp [hname]

/-- What the rules of a seed add to a store. -/
structure Seed.IsAdded (seed : Seed) (s : Store) (added : List StoredRule) : Prop where
  /-- For a new name that is the first rule that can be read. -/
  forall₂_of_free : ∀ name, (∀ row ∈ s.rules, row.name ≠ name) →
    List.Forall₂ SeedRule.IsKeptAs
      (seed.rules.find? fun r => r.name = name && r.isValid).toList
      (added.filter (·.name = name))
  name_ne : ∀ row ∈ added, ∀ old ∈ s.rules, old.name ≠ row.name

theorem exists_isAdded (seed : Seed) (s : Store) (t : τ)
    (hnodup : (givenIds people (addRules (seed.wanted s) s) t).Nodup)
    (hnew : ∀ id ∈ givenIds people (addRules (seed.wanted s) s) t,
      ∀ old ∈ s.rules, old.id ≠ id) :
    ∃ added, ((addRules (seed.wanted s) s).run people t).1 =
      { s with rules := s.rules ++ added } ∧ seed.IsAdded s added := by
  obtain ⟨sprouts, hrules, hids, hrun⟩ := exists_sprouts people (seed.wanted s) s t
  rw [← hids] at hnodup hnew
  rw [List.forall_mem_map] at hnew
  obtain ⟨added, hadded, hnames⟩ := Store.exists_added (sprouts.map Sprout.addition) s
    (by rw [List.map_map]; exact hnodup) (List.forall_mem_map.mpr hnew)
  refine ⟨added, hrun.trans hadded, ?_, ?_⟩
  · intro name hfree
    have hnone : s.rules.any (·.name = name) = false := by simpa using hfree
    rw [hnames, hnone, ← seed.find?_wanted hfree, ← hrules, List.find?_map, List.find?_map,
      Option.map_map]
    let found := sprouts.find? fun sprout => sprout.1.name = name
    change List.Forall₂ _ (found.map (·.1)).toList
      (found.map fun sprout => (sprout.1.newRule sprout.2.1).stored sprout.2.2).toList
    cases found with
    | none => exact .nil
    | some sprout => exact .cons ⟨sprout.2.1, sprout.2.2, rfl⟩ .nil
  · intro row hrow old hold hname
    have hmem : row ∈ added.filter (·.name = row.name) := by simp [hrow]
    have htaken : s.rules.any (·.name = row.name) = true :=
      List.any_eq_true.mpr ⟨old, hold, by simpa using hname⟩
    rw [hnames, htaken] at hmem
    cases hmem

end Adding

namespace Seed.IsAdded

variable {seed : Seed} {s : Store} {added : List StoredRule}

theorem exists_rule (h : seed.IsAdded s added) {row : StoredRule} (hrow : row ∈ added) :
    ∃ r, seed.rules.find? (fun r => r.name = row.name && r.isValid) = some r ∧
      r.IsKeptAs row := by
  have hmem : row ∈ added.filter (·.name = row.name) := by simp [hrow]
  have hrows := h.forall₂_of_free row.name (h.name_ne row hrow)
  cases hfound : seed.rules.find? fun r => r.name = row.name && r.isValid with
  | none =>
      rw [hfound] at hrows
      generalize added.filter _ = rows at hrows hmem
      cases hrows
      cases hmem
  | some r =>
      rw [hfound] at hrows
      generalize added.filter _ = rows at hrows hmem
      cases hrows with
      | cons hkept hnil =>
          cases hnil
          rw [List.mem_singleton.mp hmem]
          exact ⟨r, rfl, hkept⟩

theorem exists_config (h : seed.IsAdded s added) {row : StoredRule} (hrow : row ∈ added) :
    ∃ config, Rule.Config.ofText? row.config = .ok config := by
  obtain ⟨r, hfound, id, now, rfl⟩ := h.exists_rule hrow
  have hvalid := List.find?_some hfound
  rw [Bool.and_eq_true] at hvalid
  have hread : (Rule.Config.ofText? r.configText).toOption.isSome = true := hvalid.2
  cases hconfig : Rule.Config.ofText? r.configText with
  | ok config => exact ⟨config, hconfig⟩
  | error fault =>
      rw [hconfig] at hread
      cases hread

theorem exists_row (h : seed.IsAdded s added) {r : SeedRule} (hr : r ∈ seed.rules)
    (hvalid : r.isValid = true) : ∃ row ∈ s.rules ++ added, row.name = r.name := by
  by_cases htaken : ∃ row ∈ s.rules, row.name = r.name
  · obtain ⟨row, hrow, hname⟩ := htaken
    exact ⟨row, List.mem_append_left _ hrow, hname⟩
  · have hrows := h.forall₂_of_free r.name fun row hrow hname => htaken ⟨row, hrow, hname⟩
    have hsome : (seed.rules.find? fun other => other.name = r.name && other.isValid).isSome =
        true := by
      rw [List.find?_isSome]
      exact ⟨r, hr, by simpa using hvalid⟩
    obtain ⟨first, hfirst⟩ := Option.isSome_iff_exists.mp hsome
    rw [hfirst] at hrows
    generalize hfilter : added.filter _ = rows at hrows
    cases hrows with
    | @cons _ row _ _ hkept hnil =>
        have hmem : row ∈ added.filter (·.name = r.name) := hfilter ▸ List.mem_cons_self
        rw [List.mem_filter] at hmem
        exact ⟨row, List.mem_append_right _ hmem.1, by simpa using hmem.2⟩

end Seed.IsAdded

/-! ## Settings -/

namespace Seed

variable (seed : Seed) (emailNonce smsNonce : Secret.Nonce) (s : Store)

theorem rules_saveSettings : (seed.saveSettings emailNonce smsNonce s).rules = s.rules := by
  unfold saveSettings
  cases seed.email <;> cases seed.sms <;> rfl

variable {seed}

theorem emailSettings_saveSettings (hport : ∀ e ∈ seed.email, e.port < portBound) :
    (seed.saveSettings emailNonce smsNonce s).emailSettings =
      seed.email.elim s.emailSettings fun e => .ok (some e.readBack) := by
  unfold saveSettings
  cases hemail : seed.email with
  | none => cases seed.sms <;> rfl
  | some e =>
      refine Eq.trans ?_ (s.emailSettings_saveEmail emailNonce (hport e hemail))
      cases seed.sms <;> rfl

theorem smsSettings_saveSettings :
    (seed.saveSettings emailNonce smsNonce s).smsSettings =
      seed.sms.elim s.smsSettings fun sms => .ok (some sms) := by
  unfold saveSettings
  cases seed.sms with
  | none => cases seed.email <;> rfl
  | some sms => exact Store.smsSettings_saveSms _ smsNonce sms

end Seed

open Json.Reader in
theorem yields_emailSettings :
    Yields (fun _ => True) EmailSettings.reader fun e => e.port < portBound := by
  have hany {α : Type} (read : Json.Reader α) : Yields (fun _ => True) read fun _ => True :=
    fun _ _ _ _ _ => trivial
  have hparts : ∀ d : Json.Document, True → ∀ part ∈ d.parts, True := fun _ _ _ _ => trivial
  refine Yields.record hparts (by decide) ?_ _ _
  simp only [List.forall_mem_cons, List.not_mem_nil, false_imp_iff, implies_true, and_true]
  refine ⟨?_, ?port, ?_, ?_, ?_, ?_, ?_, ?_, ?_, ?_, ?_⟩
  case port => exact .optional (yields_natural _ _) (fun _ _ hport _ => hport) _
  all_goals
    refine .optional (hany _) ?_ _
    exact fun _ _ _ h => h

open Json.Reader in
theorem yields_seed :
    Yields (fun _ => True) Seed.reader fun seed => ∀ e ∈ seed.email, e.port < portBound := by
  have hany {α : Type} (read : Json.Reader α) : Yields (fun _ => True) read fun _ => True :=
    fun _ _ _ _ _ => trivial
  have hparts : ∀ d : Json.Document, True → ∀ part ∈ d.parts, True := fun _ _ _ _ => trivial
  refine Yields.record hparts nofun ?_ _ _
  simp only [List.forall_mem_cons, List.not_mem_nil, false_imp_iff, implies_true, and_true]
  refine ⟨?_, ?email, ?_⟩
  case email =>
    refine .optional yields_emailSettings.optional ?_ _
    exact fun _ _ hports _ => hports
  all_goals
    refine .optional (hany _) ?_ _
    exact fun _ _ _ h => h

/-! ## The command -/

/-- The world around a command: files that stay as they are, and everything else that is neither a
file nor the store. -/
structure World (τ : Type) where
  files : String → Except String String
  others : (n : Need) → τ → n.Reply × τ

namespace World

variable {τ : Type} (w : World τ)

def answer : (n : Need) → Store × τ → n.Reply × (Store × τ)
  | .fileText path, state => (w.files path, state)
  | .openStore _ _, state => (.ok state.1, state)
  | .saveStore _ s, state => ((), (s, state.2))
  | n, state => let reply := w.others n state.2; (reply.1, (state.1, reply.2))

variable {α β : Type}

def carryOut (c : Commanding α) (state : Store × τ) : Except CommandError α × (Store × τ) :=
  c.run.run w.answer state

def ids (c : Commanding α) (state : Store × τ) : List String :=
  givenIds w.answer c.run state

/-- What a command does: the ids it is given, its outcome, and what is there afterwards. -/
structure Does (c : Commanding α) (state : Store × τ) (given : List String)
    (outcome : Except CommandError α) (state' : Store × τ) : Prop where
  carryOut_eq : w.carryOut c state = (outcome, state')
  ids_eq : w.ids c state = given

variable {w} {state state' state'' : Store × τ} {given given' : List String}

theorem Does.bind_ok {c : Commanding α} {a : α} (h : w.Does c state given (.ok a) state')
    {next : α → Commanding β} {outcome : Except CommandError β}
    (hnext : w.Does (next a) state' given' outcome state'') :
    w.Does (c >>= next) state (given ++ given') outcome state'' := by
  have hrun : c.run.run w.answer state = (.ok a, state') := h.carryOut_eq
  constructor
  · rw [← hnext.carryOut_eq]
    unfold carryOut
    rw [ExceptT.run_bind, run_seq, hrun]
  · rw [← h.ids_eq, ← hnext.ids_eq]
    unfold ids givenIds
    rw [ExceptT.run_bind, exchanges_seq, hrun, List.filterMap_append]

theorem Does.bind_error {c : Commanding α} {e : CommandError}
    (h : w.Does c state given (.error e) state') (next : α → Commanding β) :
    w.Does (c >>= next) state given (.error e) state' := by
  have hrun : c.run.run w.answer state = (.error e, state') := h.carryOut_eq
  constructor
  · unfold carryOut
    rw [ExceptT.run_bind, run_seq, hrun]
    rfl
  · rw [← h.ids_eq]
    unfold ids givenIds
    rw [ExceptT.run_bind, exchanges_seq, hrun, exchanges_pure, List.append_nil]

theorem does_pure (a : α) : w.Does (pure a) state [] (.ok a) state :=
  ⟨rfl, rfl⟩

theorem does_throw (e : CommandError) : w.Does (throw e : Commanding α) state [] (.error e) state :=
  ⟨rfl, rfl⟩

theorem does_lift (d : Serving α) :
    w.Does (liftM d) state (givenIds w.answer d state) (.ok (d.run w.answer state).1)
      (d.run w.answer state).2 := by
  constructor
  · exact run_map w.answer Except.ok d state
  · exact congrArg (List.filterMap freshId?)
      ((exchanges_seq w.answer d _ state).trans (List.append_nil _))

theorem does_inputText {path text : String} (htext : w.files path = .ok text) (file : InputFile) :
    w.Does (inputText file path) state [] (.ok text) state := by
  have hreply : (need (.fileText path)).run w.answer state = (.ok text, state) :=
    Prod.ext htext rfl
  refine (does_lift (need (.fileText path))).bind_ok ?_
  rw [hreply]
  exact does_pure text

theorem does_loadConfig {path text : String} {config : Config} (htext : w.files path = .ok text)
    (hconfig : Config.ofToml? text = some config) :
    w.Does (loadConfig path) state [] (.ok config) state := by
  refine (does_inputText htext .config).bind_ok ?_
  rw [hconfig]
  exact does_pure config

theorem does_readJson {path text : String} (htext : w.files path = .ok text) (file : InputFile)
    (read : Json.Reader α) :
    w.Does (readJson file read path) state []
      ((Json.Reader.ofText read text).mapError (.malformed file path)) state := by
  refine (does_inputText htext file).bind_ok ?_
  cases Json.Reader.ofText read text with
  | ok a => exact does_pure a
  | error fault => exact does_throw _

theorem does_openStore (config : Config) :
    w.Does (openStore config) state [] (.ok state.1) state :=
  ⟨rfl, rfl⟩

theorem does_saveStore (config : Config) (s : Store) :
    w.Does (saveStore config s) state [] (.ok ()) (s, state.2) :=
  ⟨rfl, rfl⟩

/-! ## Planting -/

section Plant

variable {configPath seedPath configText seedText : String} {config : Config}
  (hconfigText : w.files configPath = .ok configText)
  (hconfig : Config.ofToml? configText = some config)
  (hseedText : w.files seedPath = .ok seedText)

include hconfigText hconfig hseedText

theorem does_seed_of_fault {fault : Json.Fault}
    (hfault : Json.Reader.ofText Seed.reader seedText = .error fault) :
    w.Does (Server.seed configPath seedPath) state [] (.error (.malformed .seed seedPath fault))
      state := by
  have hread : w.Does (readJson .seed Seed.reader seedPath) state [] _ state :=
    does_readJson hseedText .seed Seed.reader
  rw [hfault] at hread
  exact (does_loadConfig hconfigText hconfig).bind_ok
    ((does_openStore config).bind_ok (hread.bind_error _))

/-- Planting a seed comes to adding its rules and then saving its settings. -/
theorem exists_does_seed (state : Store × τ) {seed : Seed}
    (hseed : Json.Reader.ofText Seed.reader seedText = .ok seed) :
    ∃ emailNonce smsNonce later,
      w.Does (Server.seed configPath seedPath) state
        (givenIds w.answer (addRules (seed.wanted state.1) state.1) state) (.ok ())
        (seed.saveSettings emailNonce smsNonce
          ((addRules (seed.wanted state.1) state.1).run w.answer state).1, later) := by
  have hread : w.Does (readJson .seed Seed.reader seedPath) state [] _ state :=
    does_readJson hseedText .seed Seed.reader
  rw [hseed] at hread
  let added := (addRules (seed.wanted state.1) state.1).run w.answer state
  let ids := givenIds w.answer (addRules (seed.wanted state.1) state.1) state
  let emailNonce := w.answer .nonce added.2
  let smsNonce := w.answer .nonce emailNonce.2
  have hplant : w.Does (liftM (plant seed state.1)) state (ids ++ [])
      (.ok (seed.saveSettings emailNonce.1 smsNonce.1 added.1)) smsNonce.2 := by
    have hrun : (plant seed state.1).run w.answer state =
        (seed.saveSettings emailNonce.1 smsNonce.1 added.1, smsNonce.2) :=
      run_seq w.answer _ _ state
    have hids : givenIds w.answer (plant seed state.1) state = ids ++ [] :=
      (congrArg (List.filterMap freshId?) (exchanges_seq w.answer _ _ state)).trans
        List.filterMap_append
    have hlift : w.Does (liftM (plant seed state.1)) state _ _ _ := does_lift (plant seed state.1)
    rw [hrun, hids] at hlift
    exact hlift
  have hall : w.Does (Server.seed configPath seedPath) state
      ([] ++ ([] ++ ([] ++ (ids ++ [] ++ [])))) (.ok ())
      (seed.saveSettings emailNonce.1 smsNonce.1 added.1, smsNonce.2.2) := by
    refine (does_loadConfig hconfigText hconfig).bind_ok ?_
    refine (does_openStore config).bind_ok ?_
    refine hread.bind_ok ?_
    exact hplant.bind_ok (does_saveStore config _)
  rw [List.append_nil, List.append_nil] at hall
  exact ⟨emailNonce.1, smsNonce.1, smsNonce.2.2, hall⟩

/-- With new ids, a seed that can be read leaves all rules as they are and adds one row for each new
name of a rule in it that can be read: how the first such rule is kept, whose configuration can be
read again.  Its settings replace those of their kind.  The same seed then adds nothing and leaves
the settings as they can be read.  A seed that cannot be read changes nothing. -/
theorem seeded_rules (s : Store) (t : τ)
    (hnodup : (w.ids (Server.seed configPath seedPath) (s, t)).Nodup)
    (hnew : ∀ id ∈ w.ids (Server.seed configPath seedPath) (s, t), ∀ old ∈ s.rules, old.id ≠ id) :
    let course := w.carryOut (Server.seed configPath seedPath) (s, t)
    let later := course.2.1
    (∀ fault, Json.Reader.ofText Seed.reader seedText = .error fault →
        course = (.error (.malformed .seed seedPath fault), (s, t))) ∧
      ∀ seed, Json.Reader.ofText Seed.reader seedText = .ok seed →
        course.1 = .ok () ∧
        (∃ added, later.rules = s.rules ++ added ∧
          (∀ row ∈ added, ∀ old ∈ s.rules, old.name ≠ row.name) ∧
          (∀ name, (∀ old ∈ s.rules, old.name ≠ name) →
            List.Forall₂ SeedRule.IsKeptAs
              (seed.rules.find? fun r => r.name = name && r.isValid).toList
              (added.filter (·.name = name))) ∧
          ∀ row ∈ added, ∃ config, Rule.Config.ofText? row.config = .ok config) ∧
        later.emailSettings = seed.email.elim s.emailSettings (fun e => .ok (some e.readBack)) ∧
        later.smsSettings = seed.sms.elim s.smsSettings (fun sms => .ok (some sms)) ∧
        ∀ t', let again := w.carryOut (Server.seed configPath seedPath) (later, t')
          again.1 = .ok () ∧
          again.2.1.rules = later.rules ∧
          again.2.1.emailSettings = later.emailSettings ∧
          again.2.1.smsSettings = later.smsSettings := by
  intro course later
  refine ⟨fun fault hfault =>
    (does_seed_of_fault hconfigText hconfig hseedText hfault).carryOut_eq, ?_⟩
  intro seed hseed
  have hport : ∀ e ∈ seed.email, e.port < portBound :=
    yields_seed trivial (Json.Reader.of_ofText_eq_ok hseed)
  obtain ⟨emailNonce, smsNonce, rest, hdoes⟩ :=
    exists_does_seed hconfigText hconfig hseedText (s, t) hseed
  rw [hdoes.ids_eq] at hnodup hnew
  obtain ⟨added, hadded, hisAdded⟩ := exists_isAdded w.answer seed s (s, t) hnodup hnew
  have hcourse := hdoes.carryOut_eq
  have hlater :
      later = seed.saveSettings emailNonce smsNonce { s with rules := s.rules ++ added } := by
    dsimp only [later, course]
    rw [hcourse, hadded]
  have hrules : later.rules = s.rules ++ added := by
    rw [hlater, seed.rules_saveSettings]
  have hemail : later.emailSettings =
      seed.email.elim s.emailSettings fun e => .ok (some e.readBack) := by
    rw [hlater, Seed.emailSettings_saveSettings _ _ _ hport]
    rfl
  have hsms : later.smsSettings = seed.sms.elim s.smsSettings fun sms => .ok (some sms) := by
    rw [hlater, Seed.smsSettings_saveSettings]
    rfl
  refine ⟨congrArg (·.1) hcourse, ⟨added, hrules, hisAdded.name_ne, hisAdded.forall₂_of_free,
    fun row => hisAdded.exists_config⟩, hemail, hsms, ?_⟩
  intro t'
  -- every name in the seed is taken now, and its settings are there
  obtain ⟨emailNonce', smsNonce', rest', hagain⟩ :=
    exists_does_seed hconfigText hconfig hseedText (later, t') hseed
  have htaken : ((addRules (seed.wanted later) later).run w.answer (later, t')).1 = later := by
    apply run_addRules_of_taken
    intro r hr
    rw [Seed.wanted, List.mem_filter, Bool.and_eq_true] at hr
    rw [hrules]
    exact hisAdded.exists_row hr.1 hr.2.2
  have hagain := hagain.carryOut_eq
  rw [htaken] at hagain
  rw [hagain]
  refine ⟨rfl, seed.rules_saveSettings _ _ _, ?_, ?_⟩
  · change (seed.saveSettings emailNonce' smsNonce' later).emailSettings = _
    rw [Seed.emailSettings_saveSettings _ _ _ hport, hemail]
    cases seed.email <;> rfl
  · change (seed.saveSettings emailNonce' smsNonce' later).smsSettings = _
    rw [Seed.smsSettings_saveSettings, hsms]
    cases seed.sms <;> rfl

end Plant

/-! ## A nursery -/

def seedling (name : String) (enabled : Bool) (config : Json) : Json :=
  .object [("name", .string name), ("enabled", .bool enabled), ("config", config)]

/-- A seed in which one rule is there already, another cannot be read at first and comes again
twice, and the settings for short messages are set. -/
def nurserySeed : String :=
  Json.text (.object
    [("rules", .array
      [seedling "old" true (.object []), seedling "new" true .null,
        seedling "new" false (.object []), seedling "new" true (.object [])]),
     ("sms", .object [("gateway_url", .string "http://sms"), ("api_key", .string "key")])])

def nursery : World Nat where
  files path :=
    if path = "vigil.toml" then .ok "[database]\ndata_dir = \"data\"\n"
    else if path = "seed.json" then .ok nurserySeed
    else .error "no such file"
  others
    | .fileText _, t => (.error "no such file", t)
    | .openStore url _, t => (.error (.address url "no such store"), t)
    | .saveStore _ _, t => ((), t)
    | .display _, t => ((), t)
    | .fetch _, t => (default, t)
    | .transmit _ _, t => (.ok (), t)
    | .localTime, t => (default, t)
    | .instant, t => (default, t)
    | .freshId, t => ("r" ++ toString t, t + 1)
    | .nonce, t => (⟨List.replicate 12 0, rfl⟩, t)

def nurseryStore : Store where
  key := ⟨List.replicate 32 0, rfl⟩
  rules := [(NewRule.mk "a" "old" .alert true none none (Json.object []).text).stored default]

/-- The second rule with the new name is added, and neither an earlier nor a later one. -/
theorem seeded_nursery :
    let course := nursery.carryOut (Server.seed "vigil.toml" "seed.json") (nurseryStore, 0)
    course.1 = .ok () ∧
      (course.2.1.rules.map fun row => (row.id, row.name, row.enabled)) =
        [("a", "old", true), ("r0", "new", false)] ∧
      course.2.1.smsSettings = .ok (some ⟨"http://sms", "key", none⟩) ∧
      ∀ t, let again := nursery.carryOut (Server.seed "vigil.toml" "seed.json") (course.2.1, t)
        again.2.1.rules = course.2.1.rules ∧ again.2.1.smsSettings = course.2.1.smsSettings := by
  have hconfigText : nursery.files "vigil.toml" = .ok "[database]\ndata_dir = \"data\"\n" := rfl
  obtain ⟨config, hconfig⟩ :
      ∃ config, Config.ofToml? "[database]\ndata_dir = \"data\"\n" = some config :=
    Option.isSome_iff_exists.mp (by decide +kernel)
  have hseedText : nursery.files "seed.json" = .ok nurserySeed := rfl
  have hids : nursery.ids (Server.seed "vigil.toml" "seed.json") (nurseryStore, 0) =
      ["r0", "r1"] := by decide +kernel
  have hsms : (Json.Reader.ofText Seed.reader nurserySeed).toOption.map (·.sms) =
      some (some ⟨"http://sms", "key", none⟩) := by decide +kernel
  obtain ⟨seed, hseed⟩ : ∃ seed, Json.Reader.ofText Seed.reader nurserySeed = .ok seed := by
    cases hresult : Json.Reader.ofText Seed.reader nurserySeed with
    | ok seed => exact ⟨seed, rfl⟩
    | error fault =>
        rw [hresult] at hsms
        cases hsms
  rw [hseed] at hsms
  obtain ⟨hok, -, -, hlater, hagain⟩ :=
    (seeded_rules hconfigText hconfig hseedText nurseryStore 0 (hids ▸ by decide)
      (hids ▸ by decide)).2 seed hseed
  refine ⟨hok, by decide +kernel, ?_, fun t => ⟨(hagain t).2.1, (hagain t).2.2.2⟩⟩
  have hsms : seed.sms = some ⟨"http://sms", "key", none⟩ := Option.some.inj hsms
  rw [hlater, hsms]
  rfl

end World

end Alerting.Server
