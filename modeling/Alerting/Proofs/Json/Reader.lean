import Alerting.Json.Reader
/-!
# Reading sound documents

What readers make of documents that have a value.  A document of this kind holds no halt, so what a
reader says depends only on the shape of the document and on the values in it.
-/

namespace Alerting.Json

/-! ## Results -/

section Results

variable {ε ε' α β : Type}

theorem exists_of_bind_eq_ok {result : Except ε α} {next : α → Except ε β} {b : β}
    (h : (result >>= next) = .ok b) : ∃ a, result = .ok a ∧ next a = .ok b := by
  cases result with
  | error e => cases h
  | ok a => exact ⟨a, rfl, h⟩

theorem exists_of_map_eq_ok {result : Except ε α} {f : α → β} {b : β}
    (h : result.map f = .ok b) : ∃ a, result = .ok a ∧ f a = b := by
  cases result with
  | error e => cases h
  | ok a => exact ⟨a, rfl, Except.ok.inj h⟩

theorem of_mapError_eq_ok {result : Except ε α} {f : ε → ε'} {a : α}
    (h : result.mapError f = .ok a) : result = .ok a := by
  cases result with
  | error e => cases h
  | ok b => exact congrArg Except.ok (Except.ok.inj h)

theorem exists_of_mem_mapM {f : α → Except ε β} {l : List α} {results : List β} {b : β}
    (h : l.mapM f = .ok results) (hb : b ∈ results) : ∃ a ∈ l, f a = .ok b := by
  induction l generalizing results with
  | nil =>
      cases h
      cases hb
  | cons a l ih =>
      rw [List.mapM_cons] at h
      obtain ⟨first, hfirst, h⟩ := exists_of_bind_eq_ok h
      obtain ⟨rest, hrest, h⟩ := exists_of_bind_eq_ok h
      cases h
      rcases List.mem_cons.mp hb with rfl | hb
      · exact ⟨a, List.mem_cons_self, hfirst⟩
      · obtain ⟨a', ha', hb'⟩ := ih hrest hb
        exact ⟨a', List.mem_cons_of_mem _ ha', hb'⟩

theorem map_eq_of_mapM {γ : Type} {f : α → Except ε β} {l : List α} {results : List β} {g : β → γ}
    {g' : α → γ} (h : l.mapM f = .ok results) (hf : ∀ a b, f a = .ok b → g b = g' a) :
    results.map g = l.map g' := by
  induction l generalizing results with
  | nil =>
      cases h
      rfl
  | cons a l ih =>
      rw [List.mapM_cons] at h
      obtain ⟨first, hfirst, h⟩ := exists_of_bind_eq_ok h
      obtain ⟨rest, hrest, h⟩ := exists_of_bind_eq_ok h
      cases h
      rw [List.map_cons, List.map_cons, hf a first hfirst, ih hrest]

theorem exists_of_seal_eq_ok {ending : Ending} {a b : α} (h : ending.seal a = .ok b) :
    ∃ after, ending = .closed after ∧ a = b := by
  cases ending with
  | closed after => exact ⟨after, rfl, Except.ok.inj h⟩
  | broken halt skipped => cases h

end Results

/-! ## Parts of sound documents -/

namespace Document

theorem mismatch_ne_ok {α : Type} (wanted : String) (d : Document) (a : α) :
    d.mismatch wanted ≠ .ok a := by
  cases d with
  | tooDeep inner => cases inner <;> exact nofun
  | _ => exact nofun

theorem value_array {start : List Char} {items : List Document} {ending : Ending} {v : Json}
    (h : (array start items ending).value = .ok v) :
    ∃ values after, itemValues items = .ok values ∧ ending = .closed after ∧ v = .array values := by
  rw [value] at h
  cases hitems : itemValues items with
  | error e =>
      rw [hitems] at h
      cases h
  | ok values =>
      rw [hitems] at h
      cases ending with
      | broken halt skipped => cases h
      | closed after =>
          cases h
          exact ⟨values, after, rfl, rfl, rfl⟩

theorem value_object {start : List Char} {fields : List (Key × Document)} {ending : Ending}
    {v : Json} (h : (object start fields ending).value = .ok v) :
    ∃ entries after, fieldValues fields = .ok entries ∧ ending = .closed after ∧
      v = .ofFields entries := by
  rw [value] at h
  cases hfields : fieldValues fields with
  | error e =>
      rw [hfields] at h
      cases h
  | ok entries =>
      rw [hfields] at h
      cases ending with
      | broken halt skipped => cases h
      | closed after =>
          cases h
          exact ⟨entries, after, rfl, rfl, rfl⟩

theorem itemValues_nil {values : List Json} (h : itemValues [] = .ok values) : values = [] := by
  cases h
  rfl

theorem itemValues_cons {d : Document} {ds : List Document} {values : List Json}
    (h : itemValues (d :: ds) = .ok values) :
    ∃ v vs, values = v :: vs ∧ d.value = .ok v ∧ itemValues ds = .ok vs := by
  rw [itemValues] at h
  cases hd : d.value with
  | error e =>
      rw [hd] at h
      cases h
  | ok v =>
      rw [hd] at h
      cases hds : itemValues ds with
      | error e =>
          rw [hds] at h
          cases h
      | ok vs =>
          rw [hds] at h
          cases h
          exact ⟨v, vs, rfl, rfl, rfl⟩

theorem length_of_itemValues {ds : List Document} {values : List Json}
    (h : itemValues ds = .ok values) : ds.length = values.length := by
  induction ds generalizing values with
  | nil =>
      cases itemValues_nil h
      rfl
  | cons d ds ih =>
      obtain ⟨v, vs, rfl, -, hds⟩ := itemValues_cons h
      rw [List.length_cons, List.length_cons, ih hds]

theorem fieldValues_nil {entries : List (String × Json)} (h : fieldValues [] = .ok entries) :
    entries = [] := by
  cases h
  rfl

theorem fieldValues_cons {key : Key} {d : Document} {fields : List (Key × Document)}
    {entries : List (String × Json)} (h : fieldValues ((key, d) :: fields) = .ok entries) :
    ∃ name v rest, entries = (name, v) :: rest ∧ key.name = .ok name ∧ d.value = .ok v ∧
      fieldValues fields = .ok rest := by
  rw [fieldValues] at h
  cases hname : key.name with
  | error e =>
      rw [hname] at h
      cases h
  | ok name =>
      rw [hname] at h
      cases hd : d.value with
      | error e =>
          rw [hd] at h
          cases h
      | ok v =>
          rw [hd] at h
          cases hfields : fieldValues fields with
          | error e =>
              rw [hfields] at h
              cases h
          | ok rest =>
              rw [hfields] at h
              cases h
              exact ⟨name, v, rest, rfl, rfl, rfl, rfl⟩

theorem value_closed_array (start after : List Char) {items : List Document} {values : List Json}
    (h : itemValues items = .ok values) :
    (array start items (.closed after)).value = .ok (.array values) := by
  rw [value, h]
  rfl

theorem value_closed_object (start after : List Char) {fields : List (Key × Document)}
    {entries : List (String × Json)} (h : fieldValues fields = .ok entries) :
    (object start fields (.closed after)).value = .ok (.ofFields entries) := by
  rw [value, h]
  rfl

theorem exists_null_of_value {d : Document} (h : d.value = .ok .null) :
    ∃ start after, d = .scalar start after .null := by
  cases d with
  | scalar start after s =>
      cases s with
      | null => exact ⟨start, after, rfl⟩
      | _ => cases h
  | array start items ending =>
      obtain ⟨values, after, -, -, heq⟩ := value_array h
      cases heq
  | object start fields ending =>
      obtain ⟨entries, after, -, -, heq⟩ := value_object h
      cases heq
  | tooDeep inner => cases h
  | bad start halt skipped => cases h

theorem exists_array_of_value {d : Document} {values : List Json}
    (h : d.value = .ok (.array values)) :
    ∃ start items after, d = .array start items (.closed after) ∧
      itemValues items = .ok values := by
  cases d with
  | scalar start after s => cases s <;> cases h
  | array start items ending =>
      obtain ⟨values', after, hitems, rfl, heq⟩ := value_array h
      cases heq
      exact ⟨start, items, after, rfl, hitems⟩
  | object start fields ending =>
      obtain ⟨entries, after, -, -, heq⟩ := value_object h
      cases heq
  | tooDeep inner => cases h
  | bad start halt skipped => cases h

theorem exists_object_of_value {d : Document} {sorted : List (String × Json)}
    (h : d.value = .ok (.object sorted)) :
    ∃ start fields after entries, d = .object start fields (.closed after) ∧
      fieldValues fields = .ok entries ∧ .ofFields entries = Json.object sorted := by
  cases d with
  | scalar start after s => cases s <;> cases h
  | array start items ending =>
      obtain ⟨values, after, -, -, heq⟩ := value_array h
      cases heq
  | object start fields ending =>
      obtain ⟨entries, after, hfields, rfl, heq⟩ := value_object h
      exact ⟨start, fields, after, entries, rfl, hfields, heq.symm⟩
  | tooDeep inner => cases h
  | bad start halt skipped => cases h

/-- A value holds the fields that were put into it. -/
theorem lookup_of_ofFields {entries sorted : List (String × Json)}
    (h : Json.ofFields entries = .object sorted) (hnodup : (entries.map (·.1)).Nodup)
    (key : String) : sorted.lookup key = entries.lookup key := by
  rw [← Json.object.inj h, Dict.lookup_foldl_insertEntry hnodup]
  exact Option.or_none

def HasDistinctKeys : Document → Prop
  | object _ fields _ => (fields.map (·.1.name)).Nodup
  | _ => True

theorem names_of_fieldValues {fields : List (Key × Document)} {entries : List (String × Json)}
    (h : fieldValues fields = .ok entries) :
    fields.map (·.1.name) = entries.map fun e => .ok e.1 := by
  induction fields generalizing entries with
  | nil =>
      cases fieldValues_nil h
      rfl
  | cons first rest ih =>
      obtain ⟨key, d⟩ := first
      obtain ⟨name, v, others, rfl, hname, -, hrest⟩ := fieldValues_cons h
      rw [List.map_cons, List.map_cons, ih hrest]
      exact congrArg (· :: _) hname

theorem nodup_of_fieldValues {fields : List (Key × Document)} {entries : List (String × Json)}
    (h : fieldValues fields = .ok entries) (hnodup : (fields.map (·.1.name)).Nodup) :
    (entries.map (·.1)).Nodup := by
  rw [names_of_fieldValues h] at hnodup
  rw [List.nodup_iff_pairwise_ne, List.pairwise_map] at hnodup ⊢
  exact hnodup.imp fun hne heq => hne (congrArg Except.ok heq)

end Document

namespace Reader

open Document

variable {α σ : Type} {source : Source}

/-! ## Choices -/

theorem keep_of_value (read : Reader α) {d : Document} {v : Json} (hd : d.value = .ok v) :
    keep read source d = (read .kept d).mapError Halt.unplaced := by
  unfold keep
  rw [hd]
  cases source <;> rfl

theorem firstOf_cons_ok (title : String) {read : Reader α} (others : List (Reader α))
    {d : Document} {v : Json} {a : α} (hd : d.value = .ok v) (h : read .kept d = .ok a) :
    firstOf title (read :: others) source d = .ok a := by
  unfold firstOf
  rw [keep_of_value _ hd, List.findSome?_cons, h]
  rfl

theorem firstOf_cons_error (title : String) {read : Reader α} (others : List (Reader α))
    {d : Document} {v : Json} {halt : Halt} (hd : d.value = .ok v)
    (h : read .kept d = .error halt) :
    firstOf title (read :: others) source d = firstOf title others source d := by
  unfold firstOf
  rw [keep_of_value _ hd, keep_of_value _ hd, List.findSome?_cons, h]
  rfl

theorem of_keep_eq_ok {read : Reader α} {d : Document} {a : α} (h : keep read source d = .ok a) :
    read .kept d = .ok a := by
  unfold keep at h
  dsimp only at h
  split at h
  · obtain ⟨-, -, hread⟩ := exists_of_bind_eq_ok h
    exact of_mapError_eq_ok hread
  · exact of_mapError_eq_ok h

theorem findSome?_of_firstOf {title : String} {readers : List (Reader α)} {d : Document} {a : α}
    (h : firstOf title readers source d = .ok a) :
    (readers.findSome? fun read => (read .kept d).toOption) = some a := by
  have hkept := of_keep_eq_ok h
  split at hkept
  · next hfound =>
    cases hkept
    exact hfound
  · cases hkept

/-! ## Any value -/

def present? : Json → Option Json
  | .null => none
  | v => some v

theorem optional_json {d : Document} {v : Json} (hd : d.value = .ok v) :
    optional json source d = .ok (present? v) := by
  cases d with
  | scalar start after s =>
      cases hd
      cases s <;> rfl
  | array start items ending =>
      obtain ⟨values, after, -, -, rfl⟩ := value_array hd
      change (Document.value _).map some = _
      rw [hd]
      rfl
  | object start fields ending =>
      obtain ⟨entries, after, -, -, rfl⟩ := value_object hd
      change (Document.value _).map some = _
      rw [hd]
      rfl
  | tooDeep inner => cases hd
  | bad start halt skipped => cases hd

theorem mapM_json {ds : List Document} {values : List Json} (h : itemValues ds = .ok values) :
    (ds.mapM fun d => inArray d (json source d)) = .ok values := by
  induction ds generalizing values with
  | nil =>
      cases itemValues_nil h
      rfl
  | cons d ds ih =>
      obtain ⟨v, vs, rfl, hd, hds⟩ := itemValues_cons h
      rw [List.mapM_cons, ih hds]
      unfold json
      rw [hd]
      rfl

theorem list_json {start : List Char} {items : List Document} {after : List Char}
    {values : List Json} (h : itemValues items = .ok values) :
    list json source (.array start items (.closed after)) = .ok values := by
  rw [list, mapM_json h]
  rfl

/-- What is read as a list of values is an array of them. -/
theorem value_of_list_json {d : Document} {values : List Json}
    (h : list json source d = .ok values) : d.value = .ok (.array values) := by
  unfold list at h
  split at h
  · next start items ending =>
    obtain ⟨values', hvalues, hend⟩ := exists_of_bind_eq_ok h
    obtain ⟨after, rfl, rfl⟩ := exists_of_seal_eq_ok hend
    refine value_closed_array start after ?_
    clear h hend
    induction items generalizing values' with
    | nil =>
        cases hvalues
        rfl
    | cons d ds ih =>
        rw [List.mapM_cons] at hvalues
        obtain ⟨v, hv, hvalues⟩ := exists_of_bind_eq_ok hvalues
        obtain ⟨vs, hvs, hvalues⟩ := exists_of_bind_eq_ok hvalues
        cases hvalues
        have hd : d.value = .ok v := of_mapError_eq_ok hv
        rw [itemValues, hd, ih vs hvs]
        rfl
  · cases h
  · exact absurd h (mismatch_ne_ok _ d _)

/-! ## Named values -/

theorem mapM_named {read : Reader α}
    (htotal : ∀ d v, d.value = .ok v → ∃ a, read source d = .ok a) {fields : List (Key × Document)}
    {entries : List (String × Json)} (h : fieldValues fields = .ok entries) :
    ∃ l, (fields.mapM fun (key, d) => do
        return (← key.name, ← inObject d.after (read source d)) : Except Halt (List (String × α))) =
        .ok l ∧
      l.map (·.1) = entries.map (·.1) ∧
      ∀ name v, entries.lookup name = some v →
        ∃ d a, d.value = .ok v ∧ read source d = .ok a ∧ l.lookup name = some a := by
  induction fields generalizing entries with
  | nil =>
      cases fieldValues_nil h
      exact ⟨[], rfl, rfl, fun _ _ hlookup => nomatch hlookup⟩
  | cons first rest ih =>
      obtain ⟨key, d⟩ := first
      obtain ⟨name, v, others, rfl, hname, hd, hrest⟩ := fieldValues_cons h
      obtain ⟨a, ha⟩ := htotal d v hd
      obtain ⟨l, hl, hnames, hlookups⟩ := ih hrest
      refine ⟨(name, a) :: l, ?_, ?_, ?_⟩
      · rw [List.mapM_cons, hl]
        dsimp only
        rw [hname, ha]
        rfl
      · rw [List.map_cons, List.map_cons, hnames]
      · intro other w hlookup
        rw [List.lookup_cons] at hlookup ⊢
        cases hother : other == name with
        | true =>
            rw [hother] at hlookup
            cases hlookup
            exact ⟨d, a, hd, ha, rfl⟩
        | false =>
            rw [hother] at hlookup
            exact hlookups other w hlookup

theorem named_of_value (source : Source) {read : Reader α}
    (htotal : ∀ d v, d.value = .ok v → ∃ a, read source d = .ok a) (start after : List Char)
    {fields : List (Key × Document)} {entries : List (String × Json)}
    (h : fieldValues fields = .ok entries) :
    ∃ l, named read source (.object start fields (.closed after)) = .ok l ∧
      l.map (·.1) = entries.map (·.1) ∧
      ∀ name v, entries.lookup name = some v →
        ∃ d a, d.value = .ok v ∧ read source d = .ok a ∧ l.lookup name = some a := by
  obtain ⟨l, hl, hnames, hlookups⟩ := mapM_named htotal h
  refine ⟨l, ?_, hnames, hlookups⟩
  rw [named, hl]
  rfl

/-! ## Filling records -/

theorem fill_optional {read : Reader α} {d : Document} {a : α} (h : read source d = .ok a)
    (name : String) (set : α → σ → σ) (r : σ) :
    (Field.optional name read set).fill source d r = .ok (set a r) := by
  unfold Field.optional
  dsimp only
  rw [h]
  rfl

theorem fillListed_nil_right (fields : List (Field σ)) (after : List Char) (r : σ) :
    fillListed source fields [] after r = .ok (fields, [], after, r) := by
  cases fields <;> rfl

theorem fillListed_cons {field : Field σ} {d : Document} {r r' : σ}
    (h : field.fill source d r = .ok r') (fields : List (Field σ)) (ds : List Document)
    (after : List Char) :
    fillListed source (field :: fields) (d :: ds) after r =
      fillListed source fields ds d.after r' := by
  rw [fillListed, h]
  rfl

theorem fillNamed_cons_known {fields : List (Field σ)} {isOpen : Bool} {key : Key} {d : Document}
    {seen : List String} {name : String} {field : Field σ} {r r' : σ} (hname : key.name = .ok name)
    (hfield : fields.find? (·.name = name) = some field) (hseen : seen.contains name = false)
    (hfill : field.fill source d r = .ok r') (rest : List (Key × Document)) :
    fillNamed fields isOpen source ((key, d) :: rest) seen r =
      fillNamed fields isOpen source rest (name :: seen) r' := by
  rw [fillNamed, hname]
  dsimp only [bind, Except.bind]
  rw [hfield]
  dsimp only
  rw [hseen, hfill]
  rfl

theorem fillNamed_cons_seen {fields : List (Field σ)} {isOpen : Bool} {key : Key} {d : Document}
    {seen : List String} {name : String} {field : Field σ} {r : σ} (hname : key.name = .ok name)
    (hfield : fields.find? (·.name = name) = some field) (hseen : seen.contains name = true)
    (rest : List (Key × Document)) :
    ∃ halt, fillNamed fields isOpen source ((key, d) :: rest) seen r = .error halt := by
  rw [fillNamed, hname]
  dsimp only [bind, Except.bind]
  rw [hfield]
  dsimp only
  rw [hseen]
  exact ⟨_, rfl⟩

theorem fillNamed_cons_unknown {fields : List (Field σ)} {key : Key} {d : Document}
    {seen : List String} {name : String} {r : σ} (hname : key.name = .ok name)
    (hfield : fields.find? (·.name = name) = none) (rest : List (Key × Document)) :
    ∃ halt, fillNamed fields false source ((key, d) :: rest) seen r = .error halt := by
  rw [fillNamed, hname]
  dsimp only [bind, Except.bind]
  rw [hfield]
  exact ⟨_, rfl⟩

/-! ## Records without required fields -/

variable {title : String} {fields : List (Field σ)} {blank r : σ} {isOpen : Bool}

theorem record_object {start after : List Char} {entries : List (Key × Document)}
    {seen : List String} (hfill : fillNamed fields isOpen source entries [] blank = .ok (seen, r))
    (hoptional : ∀ field ∈ fields, field.required = false) :
    record title fields blank isOpen source (.object start entries (.closed after)) = .ok r := by
  have hmissing :
      fields.find? (fun field => field.required && !seen.contains field.name) = none := by
    rw [List.find?_eq_none]
    intro field hfield
    rw [hoptional field hfield]
    simp
  rw [record, hfill]
  dsimp only [bind, Except.bind]
  rw [hmissing]
  rfl

theorem record_object_error {start : List Char} {entries : List (Key × Document)} {ending : Ending}
    {halt : Halt} (hfill : fillNamed fields isOpen source entries [] blank = .error halt) :
    record title fields blank isOpen source (.object start entries ending) = .error halt := by
  rw [record, hfill]
  rfl

theorem record_array {start after rest : List Char} {items : List Document}
    {missing : List (Field σ)} {surplus : List Document}
    (hfill : fillListed source fields items start.tail blank = .ok (missing, surplus, rest, r))
    (hmissing : missing ≠ []) (hoptional : ∀ field ∈ missing, field.required = false) :
    record title fields blank isOpen source (.array start items (.closed after)) = .ok r := by
  have hfirst : missing.findIdx? (·.required) = none := by
    rw [List.findIdx?_eq_none_iff]
    exact hoptional
  rw [record, hfill]
  dsimp only [bind, Except.bind]
  rw [hfirst, if_neg (by simpa using hmissing)]
  rfl

/-- An array that fills a record must not have more items, once it has been kept aside. -/
theorem record_array_full {start after rest : List Char} {items surplus : List Document}
    (hfill : fillListed .kept fields items start.tail blank = .ok ([], surplus, rest, r)) :
    record title fields blank isOpen .kept (.array start items (.closed after)) =
      if surplus.isEmpty then .ok r
      else stop (.wrongLength (fields.length + surplus.length)
        (elements fields.length ++ " in sequence")) := by
  rw [record, hfill]
  cases surplus <;> rfl

end Reader

end Alerting.Json
