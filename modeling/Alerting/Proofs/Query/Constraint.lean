import Alerting.Proofs.Json.Reader
import Alerting.Query.Request
/-!
# How constraints are read

Bounds are a record with four fields, and a record may be written as the array of its fields.  So an
array of at most four items is read as the bounds that it lists, and only a longer one as a list of
members.  Everything else is read as it looks.
-/

namespace Alerting.Query

open Json Json.Document Json.Reader

/-! ## Bounds by name -/

namespace Bounds

def names : List String := ["gte", "gt", "lt", "lte"]

def put (name : String) (bound : Option Json) (b : Bounds) : Bounds :=
  match name with
  | "gte" => { b with gte := bound }
  | "gt" => { b with gt := bound }
  | "lt" => { b with lt := bound }
  | "lte" => { b with lte := bound }
  | _ => b

def get? (name : String) (b : Bounds) : Option Json :=
  match name with
  | "gte" => b.gte
  | "gt" => b.gt
  | "lt" => b.lt
  | "lte" => b.lte
  | _ => none

def field (name : String) : Reader.Field Bounds :=
  .optional name (optional json) (put name)

theorem reader_eq : reader = record "struct RangeBounds" (names.map field) {} false := rfl

theorem get?_put_self {name : String} (hname : name ∈ names) (bound : Option Json) (b : Bounds) :
    (b.put name bound).get? name = bound := by
  simp only [names, List.mem_cons, List.not_mem_nil, or_false] at hname
  rcases hname with rfl | rfl | rfl | rfl <;> rfl

theorem get?_put_of_ne {name other : String} (hname : name ∈ names) (hne : other ≠ name)
    (bound : Option Json) (b : Bounds) : (b.put name bound).get? other = b.get? other := by
  simp only [names, List.mem_cons, List.not_mem_nil, or_false] at hname
  rcases hname with rfl | rfl | rfl | rfl <;> unfold get? <;> split <;> first | rfl | contradiction

def putAll (entries : List (String × Json)) (b : Bounds) : Bounds :=
  entries.foldl (fun b e => b.put e.1 (present? e.2)) b

def ofFields (entries : List (String × Json)) : Bounds where
  gte := (entries.lookup "gte").bind present?
  gt := (entries.lookup "gt").bind present?
  lt := (entries.lookup "lt").bind present?
  lte := (entries.lookup "lte").bind present?

theorem get?_ofFields {name : String} (hname : name ∈ names) (entries : List (String × Json)) :
    (ofFields entries).get? name = (entries.lookup name).bind present? := by
  simp only [names, List.mem_cons, List.not_mem_nil, or_false] at hname
  rcases hname with rfl | rfl | rfl | rfl <;> rfl

theorem ext_get? {b b' : Bounds} (h : ∀ name ∈ names, b.get? name = b'.get? name) : b = b' := by
  cases b
  cases b'
  have hgte := h "gte" (by simp [names])
  have hgt := h "gt" (by simp [names])
  have hlt := h "lt" (by simp [names])
  have hlte := h "lte" (by simp [names])
  exact (Bounds.mk.injEq ..).mpr ⟨hgte, hgt, hlt, hlte⟩

theorem get?_putAll {entries : List (String × Json)} (hnames : ∀ e ∈ entries, e.1 ∈ names)
    (hnodup : (entries.map (·.1)).Nodup) (b : Bounds) (name : String) :
    (b.putAll entries).get? name =
      match entries.lookup name with
      | some v => present? v
      | none => b.get? name := by
  -- of two fields with one name the last would be set, and the first one found
  induction entries generalizing b with
  | nil => rfl
  | cons head rest ih =>
      obtain ⟨key, v⟩ := head
      rw [List.forall_mem_cons] at hnames
      rw [List.map_cons, List.nodup_cons] at hnodup
      change ((b.put key (present? v)).putAll rest).get? name = _
      rw [ih hnames.2 hnodup.2]
      by_cases heq : name = key
      · subst heq
        rw [Dict.lookup_eq_none_of_not_mem hnodup.1, List.lookup_cons_self]
        exact get?_put_self hnames.1 _ b
      · rw [get?_put_of_ne hnames.1 heq, List.lookup_cons, beq_eq_false_iff_ne.mpr heq]

theorem putAll_eq_ofFields {entries : List (String × Json)} (hnames : ∀ e ∈ entries, e.1 ∈ names)
    (hnodup : (entries.map (·.1)).Nodup) : putAll entries {} = ofFields entries := by
  apply ext_get?
  intro name hname
  rw [get?_putAll hnames hnodup, get?_ofFields hname]
  cases entries.lookup name with
  | none =>
      simp only [names, List.mem_cons, List.not_mem_nil, or_false] at hname
      rcases hname with rfl | rfl | rfl | rfl <;> rfl
  | some v => rfl

/-! ## Reading bounds -/

theorem find?_field (name : String) :
    (names.map field).find? (·.name = name) = if name ∈ names then some (field name) else none := by
  rw [List.find?_map]
  change (names.find? (fun other => decide (other = name))).map field = _
  by_cases hname : name ∈ names
  · rw [if_pos hname]
    cases hfind : names.find? (fun other => decide (other = name)) with
    | none => exact absurd (decide_eq_true rfl) (List.find?_eq_none.mp hfind name hname)
    | some other =>
        have hother := List.find?_some hfind
        rw [decide_eq_true_iff] at hother
        rw [hother]
        rfl
  · have hfind : names.find? (fun other => decide (other = name)) = none := by
      rw [List.find?_eq_none]
      intro other hother hdecide
      rw [decide_eq_true_iff] at hdecide
      exact hname (hdecide ▸ hother)
    rw [if_neg hname, hfind]
    rfl

theorem required_field {f : Reader.Field Bounds} {l : List String} (hf : f ∈ l.map field) :
    f.required = false := by
  obtain ⟨name, -, rfl⟩ := List.mem_map.mp hf
  rfl

theorem fill_field {source : Source} {d : Document} {v : Json} (hd : d.value = .ok v)
    (name : String) (b : Bounds) : (field name).fill source d b = .ok (b.put name (present? v)) :=
  fill_optional (optional_json hd) name (put name) b

theorem fillNamed_bounds (source : Source) (isOpen : Bool) {fs : List (Key × Document)}
    {entries : List (String × Json)} (h : fieldValues fs = .ok entries)
    (hnames : ∀ e ∈ entries, e.1 ∈ names) (hnodup : (entries.map (·.1)).Nodup)
    (seen : List String) (hseen : ∀ e ∈ entries, e.1 ∉ seen) (b : Bounds) :
    ∃ seen', fillNamed (names.map field) isOpen source fs seen b =
      .ok (seen', b.putAll entries) := by
  induction fs generalizing entries seen b with
  | nil =>
      cases fieldValues_nil h
      exact ⟨seen, rfl⟩
  | cons first rest ih =>
      obtain ⟨key, d⟩ := first
      obtain ⟨name, v, others, rfl, hname, hd, hrest⟩ := fieldValues_cons h
      rw [List.forall_mem_cons] at hnames hseen
      rw [List.map_cons, List.nodup_cons] at hnodup
      have hfield : (names.map field).find? (·.name = name) = some (field name) := by
        rw [find?_field, if_pos hnames.1]
      have hunseen : seen.contains name = false := by
        rw [List.contains_eq_mem, decide_eq_false_iff_not]
        exact hseen.1
      have hothers : ∀ e ∈ others, e.1 ∉ name :: seen := by
        intro e he hmem
        rcases List.mem_cons.mp hmem with heq | hmem
        · exact hnodup.1 (List.mem_map.mpr ⟨e, he, heq⟩)
        · exact hseen.2 e he hmem
      rw [fillNamed_cons_known hname hfield hunseen (fill_field hd name b)]
      exact ih hrest hnames.2 hnodup.2 _ hothers _

theorem fillNamed_unknown (source : Source) {fs : List (Key × Document)}
    {entries : List (String × Json)} (h : fieldValues fs = .ok entries)
    (hunknown : ∃ e ∈ entries, e.1 ∉ names) (seen : List String) (b : Bounds) :
    ∃ halt, fillNamed (names.map field) false source fs seen b = .error halt := by
  induction fs generalizing entries seen b with
  | nil =>
      cases fieldValues_nil h
      obtain ⟨e, he, -⟩ := hunknown
      cases he
  | cons first rest ih =>
      obtain ⟨key, d⟩ := first
      obtain ⟨name, v, others, rfl, hname, hd, hrest⟩ := fieldValues_cons h
      by_cases hknown : name ∈ names
      · have hfield : (names.map field).find? (·.name = name) = some (field name) := by
          rw [find?_field, if_pos hknown]
        have hothers : ∃ e ∈ others, e.1 ∉ names := by
          obtain ⟨e, he, hne⟩ := hunknown
          rcases List.mem_cons.mp he with rfl | he
          · exact absurd hknown hne
          · exact ⟨e, he, hne⟩
        cases hseen : seen.contains name with
        | true => exact fillNamed_cons_seen hname hfield hseen rest
        | false =>
            rw [fillNamed_cons_known hname hfield hseen (fill_field hd name b)]
            exact ih hrest hothers _ _
      · have hfield : (names.map field).find? (·.name = name) = none := by
          rw [find?_field, if_neg hknown]
        exact fillNamed_cons_unknown hname hfield rest

/-- The items of an array are the bounds in the order of their names. -/
theorem fillListed_bounds (source : Source) {items : List Document} {values : List Json}
    (h : itemValues items = .ok values) (l : List String) (after : List Char) (b : Bounds) :
    ∃ rest, fillListed source (l.map field) items after b =
      .ok ((l.drop items.length).map field, items.drop l.length, rest,
        b.putAll (l.zip values)) := by
  induction l generalizing items values after b with
  | nil =>
      refine ⟨after, ?_⟩
      cases items <;> rfl
  | cons name l ih =>
      cases items with
      | nil =>
          cases itemValues_nil h
          exact ⟨after, fillListed_nil_right _ after b⟩
      | cons d ds =>
          obtain ⟨v, vs, rfl, hd, hds⟩ := itemValues_cons h
          rw [List.map_cons, fillListed_cons (fill_field hd name b)]
          exact ih hds d.after _

theorem reader_object {source : Source} {start after : List Char} {fs : List (Key × Document)}
    {entries : List (String × Json)} (h : fieldValues fs = .ok entries)
    (hnames : ∀ e ∈ entries, e.1 ∈ names) (hnodup : (entries.map (·.1)).Nodup) :
    reader source (.object start fs (.closed after)) = .ok (ofFields entries) := by
  obtain ⟨seen, hfill⟩ := fillNamed_bounds source false h hnames hnodup []
    (fun _ _ => List.not_mem_nil) {}
  rw [putAll_eq_ofFields hnames hnodup] at hfill
  rw [reader_eq]
  exact record_object hfill fun _ => required_field

theorem reader_object_unknown (source : Source) (start : List Char) {fs : List (Key × Document)}
    (ending : Ending) {entries : List (String × Json)} (h : fieldValues fs = .ok entries)
    (hunknown : ∃ e ∈ entries, e.1 ∉ names) :
    ∃ halt, reader source (.object start fs ending) = .error halt := by
  obtain ⟨halt, hfill⟩ := fillNamed_unknown source h hunknown [] {}
  rw [reader_eq]
  exact ⟨halt, record_object_error hfill⟩

theorem nodup_zip {l : List String} (hl : l.Nodup) (values : List Json) :
    ((l.zip values).map (·.1)).Nodup := by
  induction l generalizing values with
  | nil => exact .nil
  | cons name l ih =>
      cases values with
      | nil => exact .nil
      | cons v values =>
          rw [List.nodup_cons] at hl
          rw [List.zip_cons_cons, List.map_cons, List.nodup_cons]
          refine ⟨fun hmem => ?_, ih hl.2 values⟩
          obtain ⟨e, he, heq⟩ := List.mem_map.mp hmem
          have hname := (List.of_mem_zip he).1
          rw [show e.1 = name from heq] at hname
          exact hl.1 hname

theorem putAll_zip (values : List Json) :
    putAll (names.zip values) {} = ofFields (names.zip values) :=
  putAll_eq_ofFields (fun _ he => (List.of_mem_zip he).1) (nodup_zip (by decide) values)

/-- So many items as there are bounds, or fewer, are read as bounds. -/
theorem reader_array {start after : List Char} {items : List Document} {values : List Json}
    (h : itemValues items = .ok values) (hshort : values.length ≤ 4) :
    reader .kept (.array start items (.closed after)) = .ok (ofFields (names.zip values)) := by
  have hlength := length_of_itemValues h
  obtain ⟨rest, hfill⟩ := fillListed_bounds .kept h names start.tail {}
  rw [putAll_zip] at hfill
  rw [reader_eq]
  by_cases hfull : values.length = 4
  · have hmissing : names.drop items.length = [] := by
      apply List.drop_eq_nil_of_le
      change 4 ≤ items.length
      omega
    have hsurplus : items.drop names.length = [] := by
      apply List.drop_eq_nil_of_le
      change items.length ≤ 4
      omega
    rw [hmissing, hsurplus] at hfill
    rw [record_array_full hfill]
    rfl
  · apply record_array hfill
    · intro hnil
      have hdrop := congrArg List.length hnil
      rw [List.length_map, List.length_drop, hlength, List.length_nil] at hdrop
      change 4 - values.length = 0 at hdrop
      omega
    · exact fun _ => required_field

theorem reader_array_long (start after : List Char) {items : List Document} {values : List Json}
    (h : itemValues items = .ok values) (hlong : 4 < values.length) :
    ∃ halt, reader .kept (.array start items (.closed after)) = .error halt := by
  have hlength := length_of_itemValues h
  obtain ⟨rest, hfill⟩ := fillListed_bounds .kept h names start.tail {}
  have hmissing : names.drop items.length = [] := by
    apply List.drop_eq_nil_of_le
    change 4 ≤ items.length
    omega
  have hsurplus : (items.drop names.length).isEmpty = false := by
    rw [List.isEmpty_eq_false_iff, ← List.length_pos_iff, List.length_drop]
    change 0 < items.length - 4
    omega
  rw [hmissing] at hfill
  rw [reader_eq, record_array_full hfill, hsurplus]
  exact ⟨_, rfl⟩

/-- Bounds do not depend on the order of the fields. -/
theorem ofFields_congr {l l' : List (String × Json)} (h : ∀ key, l.lookup key = l'.lookup key) :
    ofFields l = ofFields l' := by
  unfold ofFields
  rw [h, h, h, h]

end Bounds

/-! ## Constraints -/

namespace Constraint

/-- The constraint that a value looks like: an object of bounds is a range, an array is a list of
members, and anything else is a single value. -/
def ofValue : Json → Constraint
  | .object fields =>
    if fields.all (·.1 ∈ Bounds.names) then .range (.ofFields fields) else .scalar (.object fields)
  | .array items => .list items
  | v => .scalar v

variable {source : Source}

theorem reader_of_no_bounds {d : Document} {v : Json} {halt : Halt} (hd : d.value = .ok v)
    (h : Bounds.reader .kept d = .error halt) :
    reader source d =
      firstOf "FilterValue" [fun s d => .list <$> Json.Reader.list json s d,
        fun s d => .scalar <$> json s d] source d := by
  apply firstOf_cons_error _ _ hd
  rw [h]
  rfl

theorem reader_of_bounds {d : Document} {v : Json} {b : Bounds} (hd : d.value = .ok v)
    (h : Bounds.reader .kept d = .ok b) : reader source d = .ok (.range b) := by
  apply firstOf_cons_ok _ _ hd
  rw [h]
  rfl

theorem reader_of_neither {d : Document} {v : Json} {halt halt' : Halt} (hd : d.value = .ok v)
    (hbounds : Bounds.reader .kept d = .error halt)
    (hlist : Json.Reader.list json .kept d = .error halt') :
    reader source d = .ok (.scalar v) := by
  rw [reader_of_no_bounds hd hbounds, firstOf_cons_error _ _ hd (by rw [hlist]; rfl)]
  apply firstOf_cons_ok _ _ hd
  unfold json
  rw [hd]
  rfl

theorem reader_scalar (start after : List Char) (s : Scalar) :
    reader source (.scalar start after s) = .ok (ofValue s.value) := by
  have hscalar : ofValue s.value = .scalar s.value := by
    cases s <;> rfl
  rw [hscalar]
  exact reader_of_neither rfl rfl rfl

theorem reader_object {start after : List Char} {fields : List (Key × Document)}
    {entries : List (String × Json)} (h : fieldValues fields = .ok entries)
    (hkeys : (fields.map (·.1.name)).Nodup) :
    reader source (.object start fields (.closed after)) = .ok (ofValue (.ofFields entries)) := by
  have hd := value_closed_object start after h
  have hnodup := nodup_of_fieldValues h hkeys
  obtain ⟨sorted, hsorted⟩ : ∃ sorted, Json.ofFields entries = .object sorted := ⟨_, rfl⟩
  have hlookup := lookup_of_ofFields hsorted hnodup
  rw [hsorted] at hd ⊢
  rw [ofValue]
  by_cases hunknown : ∃ e ∈ entries, e.1 ∉ Bounds.names
  · have hother : ¬ sorted.all (·.1 ∈ Bounds.names) = true := by
      intro hall
      rw [List.all_eq_true] at hall
      obtain ⟨e, he, hne⟩ := hunknown
      apply hne
      exact Dict.forall_key_of_lookup_eq hlookup (fun e he => of_decide_eq_true (hall e he)) e he
    obtain ⟨halt, hbounds⟩ := Bounds.reader_object_unknown .kept start (.closed after) h hunknown
    rw [if_neg hother]
    exact reader_of_neither hd hbounds rfl
  · have hnames : ∀ e ∈ entries, e.1 ∈ Bounds.names :=
      fun e he => Decidable.by_contra fun hne => hunknown ⟨e, he, hne⟩
    have hall : sorted.all (·.1 ∈ Bounds.names) = true := by
      rw [List.all_eq_true]
      exact fun e he => decide_eq_true
        (Dict.forall_key_of_lookup_eq (fun key => (hlookup key).symm) hnames e he)
    rw [if_pos hall, Bounds.ofFields_congr hlookup]
    exact reader_of_bounds hd (Bounds.reader_object h hnames hnodup)

/-- An array is read as the bounds that it lists, unless there are too many. -/
theorem reader_array {start after : List Char} {items : List Document} {values : List Json}
    (h : itemValues items = .ok values) :
    reader source (.array start items (.closed after)) =
      .ok (if values.length ≤ 4 then .range (.ofFields (Bounds.names.zip values))
        else .list values) := by
  have hd := value_closed_array start after h
  by_cases hshort : values.length ≤ 4
  · rw [if_pos hshort]
    exact reader_of_bounds hd (Bounds.reader_array h hshort)
  · obtain ⟨halt, hbounds⟩ := Bounds.reader_array_long start after h (Nat.lt_of_not_le hshort)
    rw [if_neg hshort, reader_of_no_bounds hd hbounds]
    apply firstOf_cons_ok _ _ hd
    rw [list_json h]
    rfl

/-- Every sound document is read as some constraint. -/
theorem exists_reader (d : Document) (v : Json) (hd : d.value = .ok v) :
    ∃ c, reader source d = .ok c := by
  cases hbounds : Bounds.reader .kept d with
  | ok b => exact ⟨_, reader_of_bounds hd hbounds⟩
  | error halt =>
      cases hlist : Json.Reader.list json .kept d with
      | error halt' => exact ⟨_, reader_of_neither hd hbounds hlist⟩
      | ok items =>
          refine ⟨.list items, ?_⟩
          rw [reader_of_no_bounds hd hbounds]
          apply firstOf_cons_ok _ _ hd
          rw [hlist]
          rfl

/-- A constraint is read as it looks, unless it is an array that is short enough to list bounds. -/
theorem reader_of_value {d : Document} {v : Json} (hd : d.value = .ok v)
    (hkeys : d.HasDistinctKeys) (hlong : ∀ items, v = .array items → 4 < items.length) :
    reader source d = .ok (ofValue v) := by
  cases d with
  | scalar start after s =>
      cases hd
      exact reader_scalar start after s
  | array start items ending =>
      obtain ⟨values, after, hvalues, rfl, rfl⟩ := value_array hd
      rw [reader_array hvalues, if_neg (Nat.not_le_of_lt (hlong values rfl))]
      rfl
  | object start fields ending =>
      obtain ⟨entries, after, hentries, rfl, rfl⟩ := value_object hd
      exact reader_object hentries hkeys
  | tooDeep inner => cases hd
  | bad start halt skipped => cases hd

theorem reader_of_short_array {d : Document} {items : List Json} (hd : d.value = .ok (.array items))
    (hshort : items.length ≤ 4) :
    reader source d = .ok (.range (.ofFields (Bounds.names.zip items))) := by
  obtain ⟨start, ds, after, rfl, hitems⟩ := exists_array_of_value hd
  rw [reader_array hitems, if_pos hshort]

theorem reader_of_long_array {d : Document} {items : List Json} (hd : d.value = .ok (.array items))
    (hlong : 4 < items.length) : reader source d = .ok (.list items) := by
  obtain ⟨start, ds, after, rfl, hitems⟩ := exists_array_of_value hd
  rw [reader_array hitems, if_neg (Nat.not_le_of_lt hlong)]

/-- What is read from an array is written as that array if it is a list of members. -/
theorem toJson_of_array {d : Document} {items : List Json} {c : Constraint}
    (hd : d.value = .ok (.array items)) (hc : reader source d = .ok c) :
    c.toJson = .array items ↔ 4 < items.length := by
  by_cases hshort : items.length ≤ 4
  · rw [reader_of_short_array hd hshort] at hc
    cases hc
    refine iff_of_false (fun h => ?_) (Nat.not_lt_of_le hshort)
    cases h
  · have hlong := Nat.lt_of_not_le hshort
    rw [reader_of_long_array hd hlong] at hc
    cases hc
    exact iff_of_true rfl hlong

end Constraint

/-! ## Requests -/

theorem lookup_fieldIf (present : Bool) (name key : String) (value : Json) :
    (fieldIf present name value).lookup key =
      if present && key == name then some value else none := by
  unfold fieldIf
  cases present with
  | false => rfl
  | true =>
      rw [if_pos rfl, List.lookup_cons]
      cases key == name <;> rfl

theorem Aggregation.get?_where (a : Aggregation) :
    a.toJson.get? "where" = if a.filter.isEmpty then none else some a.filter.toJson := by
  unfold Aggregation.toJson Json.get?
  simp only [List.lookup_append, lookup_fieldIf]
  cases a.filter.isEmpty <;> simp [List.lookup_cons]

theorem Pivot.get?_where (p : Pivot) :
    p.toJson.get? "where" = if p.filter.isEmpty then none else some p.filter.toJson := by
  unfold Pivot.toJson Json.get?
  simp only [List.lookup_append, lookup_fieldIf]
  cases p.filter.isEmpty <;> simp [List.lookup_cons]

namespace Filter

theorem lookup_map_toJson (l : List (String × Constraint)) (field : String) :
    (l.map fun (field, constraint) => (field, constraint.toJson)).lookup field =
      (l.lookup field).map Constraint.toJson := by
  induction l with
  | nil => rfl
  | cons head rest ih =>
      obtain ⟨other, c⟩ := head
      rw [List.map_cons, List.lookup_cons, List.lookup_cons]
      cases field == other with
      | true => rfl
      | false => exact ih

theorem get?_toJson (filter : Filter) (field : String) :
    filter.toJson.get? field = (filter.get? field).map Constraint.toJson :=
  lookup_map_toJson filter.entries field

theorem exists_reader (source : Source) (start after : List Char) {fields : List (Key × Document)}
    {entries : List (String × Json)} (h : fieldValues fields = .ok entries)
    (hkeys : (fields.map (·.1.name)).Nodup) :
    ∃ filter : Filter, reader source (.object start fields (.closed after)) = .ok filter ∧
      ∀ field v, entries.lookup field = some v →
        ∃ d c, d.value = .ok v ∧ Constraint.reader source d = .ok c ∧
          filter.get? field = some c := by
  obtain ⟨l, hl, hnames, hlookups⟩ :=
    named_of_value source Constraint.exists_reader start after h
  refine ⟨.ofList l, ?_, ?_⟩
  · unfold reader
    rw [hl]
    rfl
  · intro field v hv
    obtain ⟨d, c, hd, hc, hlookup⟩ := hlookups field v hv
    have hnodup : (l.map (·.1)).Nodup := hnames ▸ nodup_of_fieldValues h hkeys
    rw [← Dict.get?_ofList hnodup] at hlookup
    exact ⟨d, c, hd, hc, hlookup⟩

end Filter

/-- What a request says of a field in its `where` entry. -/
def whereEntry (body : Json) (field : String) : Option Json :=
  (body.get? "where").bind (·.get? field)

theorem whereEntry_filter (filter : Filter) (field : String) :
    (if filter.isEmpty then none else some filter.toJson).bind (·.get? field) =
      (filter.get? field).map Constraint.toJson := by
  cases hempty : filter.isEmpty with
  | false => exact Filter.get?_toJson filter field
  | true =>
      have hentries : filter.entries = [] := List.isEmpty_iff.mp hempty
      unfold Dict.get?
      rw [hentries]
      rfl

theorem whereEntry_aggregation (a : Aggregation) (field : String) :
    whereEntry a.toJson field = (a.filter.get? field).map Constraint.toJson := by
  unfold whereEntry
  rw [a.get?_where, whereEntry_filter]

theorem whereEntry_pivot (p : Pivot) (field : String) :
    whereEntry p.toJson field = (p.filter.get? field).map Constraint.toJson := by
  unfold whereEntry
  rw [p.get?_where, whereEntry_filter]

/-! ## What is read and what is asked -/

/-- A constraint is read as it looks, and asked for as it was written, unless it is an array of at
most four items: that one is read as the bounds that it lists. -/
theorem reader_eq_ofValue_iff (source : Source) :
    (∀ (d : Document) (v : Json), d.value = .ok v → d.HasDistinctKeys →
      (Constraint.reader source d = .ok (.ofValue v) ↔
        ∀ items, v = .array items → 4 < items.length)) ∧
    (∀ (d : Document) (items : List Json), d.value = .ok (.array items) → items.length ≤ 4 →
      Constraint.reader source d = .ok (.range (.ofFields (Bounds.names.zip items)))) ∧
    ∀ (d : Document) (fields : List (String × Json)), d.value = .ok (.object fields) →
      d.HasDistinctKeys →
      ∃ filter, Filter.reader source d = .ok filter ∧
        ∀ field items, fields.lookup field = some (.array items) →
          (∀ a : Aggregation, a.filter = filter →
            (whereEntry a.toJson field = some (.array items) ↔ 4 < items.length)) ∧
          ∀ p : Pivot, p.filter = filter →
            (whereEntry p.toJson field = some (.array items) ↔ 4 < items.length) := by
  refine ⟨?_, fun d items => Constraint.reader_of_short_array, ?_⟩
  · intro d v hd hkeys
    refine ⟨fun h items hv => ?_, Constraint.reader_of_value hd hkeys⟩
    subst hv
    exact (Constraint.toJson_of_array hd h).mp rfl
  · intro d fields hd hkeys
    obtain ⟨start, fs, after, entries, rfl, hentries, hfields⟩ := exists_object_of_value hd
    have hlookup := lookup_of_ofFields hfields (nodup_of_fieldValues hentries hkeys)
    obtain ⟨filter, hfilter, hread⟩ := Filter.exists_reader source start after hentries hkeys
    refine ⟨filter, hfilter, fun field items hitems => ?_⟩
    rw [hlookup] at hitems
    obtain ⟨d, c, hd, hc, hget⟩ := hread field (.array items) hitems
    have hwritten : (filter.get? field).map Constraint.toJson = some (.array items) ↔
        4 < items.length := by
      rw [hget, ← Constraint.toJson_of_array hd hc]
      exact Option.some_inj
    constructor
    · rintro a rfl
      rw [whereEntry_aggregation]
      exact hwritten
    · rintro p rfl
      rw [whereEntry_pivot]
      exact hwritten

theorem reader_east_west :
    (Document.ofJson (.array [.string "east", .string "west"])).value =
        .ok (.array [.string "east", .string "west"]) ∧
      Constraint.reader .value (Document.ofJson (.array [.string "east", .string "west"])) =
        .ok (.range { gte := some (.string "east"), gt := some (.string "west") }) := by
  have hvalue : (Document.ofJson (.array [.string "east", .string "west"])).value =
      .ok (.array [.string "east", .string "west"]) := rfl
  exact ⟨hvalue, (reader_eq_ofValue_iff .value).2.1 _ _ hvalue (by decide)⟩

/-- A list of two members is read as a range. -/
theorem not_forall_reader_eq_ofValue :
    ¬ ∀ (source : Source) (d : Document) (v : Json), d.value = .ok v → d.HasDistinctKeys →
      Constraint.reader source d = .ok (.ofValue v) := by
  intro h
  have hvalue : (Document.ofJson (.array [.string "east", .string "west"])).value =
      .ok (.array [.string "east", .string "west"]) := rfl
  have hlist := h .value _ _ hvalue trivial
  rw [Constraint.reader_of_short_array hvalue (by decide)] at hlist
  cases hlist

end Alerting.Query
