import Alerting.Proofs.Json.Numeral
/-!
# Values that fit a text

A text nests arrays and objects only so deep, its integers fit 64 bits, and the fields of what it
says are put in the order of their names.  All this holds of the value of every document that was
found in a text.
-/

namespace Alerting.Json

/-- Whether a literal can stand for the number, as far as integers go. -/
def Number.InRange : Number → Prop
  | .int n => Numeral.Fits64 n
  | .float _ => True

/-! ## Values -/

/-- The value nests at most so many arrays and objects, and all its numbers have the property. -/
inductive Fits (p : Number → Prop) : Nat → Json → Prop
  | null {n : Nat} : Fits p n .null
  | bool {n : Nat} (b : Bool) : Fits p n (.bool b)
  | number {n : Nat} {x : Number} (hx : p x) : Fits p n (.number x)
  | string {n : Nat} (s : String) : Fits p n (.string s)
  | array {n : Nat} {items : List Json} (hitems : ∀ j ∈ items, Fits p n j) :
      Fits p (n + 1) (.array items)
  | object {n : Nat} {fields : List (String × Json)} (hfields : ∀ e ∈ fields, Fits p n e.2) :
      Fits p (n + 1) (.object fields)

/-- The fields of every object in the value are in the order of their names. -/
inductive IsSorted : Json → Prop
  | null : IsSorted .null
  | bool (b : Bool) : IsSorted (.bool b)
  | number (x : Number) : IsSorted (.number x)
  | string (s : String) : IsSorted (.string s)
  | array {items : List Json} (hitems : ∀ j ∈ items, IsSorted j) : IsSorted (.array items)
  | object {fields : List (String × Json)} (hfields : ∀ e ∈ fields, IsSorted e.2)
      (hascending : fields.Pairwise fun e e' => e.1 < e'.1) : IsSorted (.object fields)

mutual

def numbers : Json → List Number
  | .number x => [x]
  | .array items => itemNumbers items
  | .object fields => fieldNumbers fields
  | _ => []

def itemNumbers : List Json → List Number
  | [] => []
  | item :: rest => numbers item ++ itemNumbers rest

def fieldNumbers : List (String × Json) → List Number
  | [] => []
  | (_, field) :: rest => numbers field ++ fieldNumbers rest

end

section Values

variable {p q : Number → Prop} {n : Nat} {j : Json}

theorem numbers_subset_itemNumbers {items : List Json} (hj : j ∈ items) :
    numbers j ⊆ itemNumbers items := by
  induction items with
  | nil => cases hj
  | cons item rest ih =>
      rw [itemNumbers]
      rcases List.mem_cons.mp hj with rfl | hj
      · exact List.subset_append_left _ _
      · exact List.subset_append_of_subset_right _ (ih hj)

theorem numbers_subset_fieldNumbers {fields : List (String × Json)} {e : String × Json}
    (he : e ∈ fields) : numbers e.2 ⊆ fieldNumbers fields := by
  induction fields with
  | nil => cases he
  | cons field rest ih =>
      rw [fieldNumbers]
      rcases List.mem_cons.mp he with rfl | he
      · exact List.subset_append_left _ _
      · exact List.subset_append_of_subset_right _ (ih he)

theorem fits_elim {α : Type} {found : Option α} {write : α → Json}
    (h : ∀ a ∈ found, (write a).Fits p n) : (found.elim .null write).Fits p n := by
  cases found with
  | none => exact .null
  | some a => exact h a rfl

theorem fits_ofString? (s : Option String) : (ofString? s).Fits p n :=
  fits_elim fun text _ => .string text

theorem fits_ofStrings (l : List String) : (ofStrings l).Fits p (n + 1) :=
  .array (List.forall_mem_map.mpr fun s _ => .string s)

theorem Fits.of_numbers (h : Fits p n j) (hnumbers : ∀ x ∈ j.numbers, p x → q x) : Fits q n j := by
  induction h with
  | null => exact .null
  | bool b => exact .bool b
  | number hx => exact .number (hnumbers _ List.mem_cons_self hx)
  | string s => exact .string s
  | array _ ih =>
      exact .array fun j hj =>
        ih j hj fun x hx => hnumbers x (numbers_subset_itemNumbers hj hx)
  | object _ ih =>
      exact .object fun e he =>
        ih e he fun x hx => hnumbers x (numbers_subset_fieldNumbers he hx)

theorem ofFields_of_ascending {fields : List (String × Json)}
    (h : fields.Pairwise fun e e' => e.1 < e'.1) : ofFields fields = .object fields :=
  congrArg Json.object (Dict.foldl_insertEntry_of_ascending h)

end Values

/-! ## Documents -/

namespace Document

inductive Fits (p : Number → Prop) : Nat → Document → Prop
  | scalar {n : Nat} (start after : List Char) {s : Scalar} (hs : ∀ x, s = .number x → p x) :
      Fits p n (.scalar start after s)
  | array {n : Nat} (start : List Char) {items : List Document} (ending : Ending)
      (hitems : ∀ d ∈ items, Fits p n d) : Fits p (n + 1) (.array start items ending)
  | object {n : Nat} (start : List Char) {fields : List (Key × Document)} (ending : Ending)
      (hfields : ∀ e ∈ fields, Fits p n e.2) : Fits p (n + 1) (.object start fields ending)
  | tooDeep {n : Nat} (inner : Document) : Fits p n (.tooDeep inner)
  | bad {n : Nat} (start : List Char) (halt : Halt) (skipped : Option Halt) :
      Fits p n (.bad start halt skipped)

def fieldNames (fields : List (Key × Document)) : List String :=
  fields.filterMap (·.1.name.toOption)

mutual

/-- Whether no object in the document has two fields with one name. -/
def hasUniqueKeys : Document → Bool
  | .array _ items _ => itemsHaveUniqueKeys items
  | .object _ fields _ => decide (fieldNames fields).Nodup && fieldsHaveUniqueKeys fields
  | .tooDeep inner => hasUniqueKeys inner
  | _ => true

def itemsHaveUniqueKeys : List Document → Bool
  | [] => true
  | item :: rest => hasUniqueKeys item && itemsHaveUniqueKeys rest

def fieldsHaveUniqueKeys : List (Key × Document) → Bool
  | [] => true
  | (_, field) :: rest => hasUniqueKeys field && fieldsHaveUniqueKeys rest

end

theorem itemsHaveUniqueKeys_iff {items : List Document} :
    itemsHaveUniqueKeys items = true ↔ ∀ d ∈ items, d.hasUniqueKeys = true := by
  induction items with
  | nil => simp [itemsHaveUniqueKeys]
  | cons d ds ih => simp [itemsHaveUniqueKeys, ih]

theorem fieldsHaveUniqueKeys_iff {fields : List (Key × Document)} :
    fieldsHaveUniqueKeys fields = true ↔ ∀ e ∈ fields, e.2.hasUniqueKeys = true := by
  induction fields with
  | nil => simp [fieldsHaveUniqueKeys]
  | cons e rest ih => simp [fieldsHaveUniqueKeys, ih]

/-! ## Values of documents -/

section Values

variable {p : Number → Prop} {n : Nat}

theorem exists_of_mem_itemValues {items : List Document} {values : List Json} {v : Json}
    (h : itemValues items = .ok values) (hv : v ∈ values) : ∃ d ∈ items, d.value = .ok v := by
  induction items generalizing values with
  | nil =>
      cases itemValues_nil h
      cases hv
  | cons d ds ih =>
      obtain ⟨first, rest, rfl, hd, hds⟩ := itemValues_cons h
      rcases List.mem_cons.mp hv with rfl | hv
      · exact ⟨d, List.mem_cons_self, hd⟩
      · obtain ⟨other, hother, hvalue⟩ := ih hds hv
        exact ⟨other, List.mem_cons_of_mem _ hother, hvalue⟩

theorem exists_of_mem_fieldValues {fields : List (Key × Document)} {entries : List (String × Json)}
    {e : String × Json} (h : fieldValues fields = .ok entries) (he : e ∈ entries) :
    ∃ field ∈ fields, field.2.value = .ok e.2 := by
  induction fields generalizing entries with
  | nil =>
      cases fieldValues_nil h
      cases he
  | cons field fields ih =>
      obtain ⟨name, v, rest, rfl, -, hd, hrest⟩ := fieldValues_cons h
      rcases List.mem_cons.mp he with rfl | he
      · exact ⟨field, List.mem_cons_self, hd⟩
      · obtain ⟨other, hother, hvalue⟩ := ih hrest he
        exact ⟨other, List.mem_cons_of_mem _ hother, hvalue⟩

theorem Fits.of_value {d : Document} {v : Json} (h : d.Fits p n) (hv : d.value = .ok v) :
    v.Fits p n ∧ v.IsSorted := by
  induction h generalizing v with
  | @scalar n start after s hs =>
      cases hv
      cases s with
      | null => exact ⟨.null, .null⟩
      | bool b => exact ⟨.bool b, .bool b⟩
      | number x => exact ⟨.number (hs x rfl), .number x⟩
      | string t => exact ⟨.string t, .string t⟩
  | @array n start items ending _ ih =>
      obtain ⟨values, -, hvalues, -, rfl⟩ := value_array hv
      have hparts : ∀ j ∈ values, j.Fits p n ∧ j.IsSorted := by
        intro j hj
        obtain ⟨d, hd, hdj⟩ := exists_of_mem_itemValues hvalues hj
        exact ih d hd hdj
      exact ⟨.array fun j hj => (hparts j hj).1, .array fun j hj => (hparts j hj).2⟩
  | @object n start fields ending _ ih =>
      obtain ⟨entries, -, hentries, -, rfl⟩ := value_object hv
      have hparts : ∀ e ∈ entries.foldl (fun sorted e => Dict.insertEntry e.1 e.2 sorted) [],
          e.2.Fits p n ∧ e.2.IsSorted := by
        intro e he
        have he' := (Dict.mem_of_mem_foldl_insertEntry he).resolve_right List.not_mem_nil
        obtain ⟨field, hfield, hvalue⟩ := exists_of_mem_fieldValues hentries he'
        exact ih field hfield hvalue
      exact ⟨.object fun e he => (hparts e he).1,
        .object (fun e he => (hparts e he).2) (Dict.pairwise_foldl_insertEntry entries .nil)⟩
  | tooDeep inner => cases hv
  | bad start halt skipped => cases hv

end Values

/-! ## Documents in a text -/

theorem fits_nest_array {p : Number → Prop} {depth : Nat} {start : List Char}
    {items : List Document} {ending : Ending}
    (hitems : ∀ d ∈ items, d.Fits p (maxDepth - (depth + 1))) :
    (nest depth (.array start items ending)).Fits p (maxDepth - depth) := by
  unfold nest
  split
  · next hdepth =>
    have hsucc : maxDepth - depth = maxDepth - (depth + 1) + 1 := by omega
    rw [hsucc]
    exact .array start ending hitems
  · exact .tooDeep _

theorem fits_nest_object {p : Number → Prop} {depth : Nat} {start : List Char}
    {fields : List (Key × Document)} {ending : Ending}
    (hfields : ∀ e ∈ fields, e.2.Fits p (maxDepth - (depth + 1))) :
    (nest depth (.object start fields ending)).Fits p (maxDepth - depth) := by
  unfold nest
  split
  · next hdepth =>
    have hsucc : maxDepth - depth = maxDepth - (depth + 1) + 1 := by omega
    rw [hsucc]
    exact .object start ending hfields
  · exact .tooDeep _

theorem fits_scanWord {p : Number → Prop} {n : Nat} {s : Scalar} (hs : ∀ x, s ≠ .number x)
    (start word cs : List Char) : (scanWord start word s cs).found.Fits p n := by
  induction word generalizing cs with
  | nil => exact .scalar start cs fun x hx => absurd hx (hs x)
  | cons w word ih =>
      cases cs with
      | nil => exact .bad start _ _
      | cons c cs =>
          rw [scanWord]
          split
          · exact ih cs
          · exact .bad start _ _

theorem fits_scanNumber (n : Nat) (start : List Char) :
    (scanNumber start).found.Fits Number.InRange n := by
  unfold scanNumber
  split
  · exact .bad start _ _
  · next lit rest _ =>
    split
    · next x hx =>
      refine .scalar start rest fun y hy => ?_
      cases hy
      cases x with
      | int k => exact Numeral.fits64_of_value? hx
      | float f => trivial
    · exact .bad start _ _

/-- What has been found in a text fits it, however far the text can be followed. -/
theorem fits_scans (fuel : Nat) :
    (∀ depth cs, (scanValue fuel depth cs).found.Fits Number.InRange (maxDepth - depth)) ∧
    (∀ depth cs, ∀ d ∈ (scanItems fuel depth cs).found.1,
      d.Fits Number.InRange (maxDepth - depth)) ∧
    ∀ depth atEnd cs, ∀ e ∈ (scanFields fuel depth atEnd cs).found.1,
      e.2.Fits Number.InRange (maxDepth - depth) := by
  induction fuel with
  | zero =>
      refine ⟨fun depth cs => .bad cs _ _, fun depth cs d hd => ?_, fun depth atEnd cs e he => ?_⟩
      · cases hd
      · cases he
  | succ fuel ih =>
      obtain ⟨ihvalue, ihitems, ihfields⟩ := ih
      refine ⟨fun depth cs => ?_, fun depth cs => ?_, fun depth atEnd cs => ?_⟩
      · rw [scanValue]
        split
        · exact .bad [] _ _
        · exact fits_scanWord (by simp) _ _ _
        · exact fits_scanWord (by simp) _ _ _
        · exact fits_scanWord (by simp) _ _ _
        · dsimp only
          split
          · exact .scalar _ _ nofun
          all_goals exact .bad _ _ _
        · apply fits_nest_array
          split
          · exact nofun
          · exact nofun
          · exact ihitems (depth + 1) _
        · apply fits_nest_object
          split
          · exact nofun
          · exact ihfields (depth + 1) _ _
        · split
          · exact fits_scanNumber _ _
          · exact .bad _ _ _
      · have hitem := List.forall_mem_singleton.mpr (ihvalue depth cs)
        rw [scanItems]
        dsimp only
        split
        · exact hitem
        · exact hitem
        · exact hitem
        · split
          · exact hitem
          · exact hitem
          · exact List.forall_mem_cons.mpr ⟨ihvalue depth cs, ihitems depth _⟩
        · exact hitem
      · rw [scanFields]
        split
        · exact nofun
        · dsimp only
          split
          · exact nofun
          · split
            · exact List.forall_mem_singleton.mpr (.bad _ _ _)
            · next rest _ =>
              have hvalue := ihvalue depth rest
              split
              · exact List.forall_mem_singleton.mpr hvalue
              · exact List.forall_mem_singleton.mpr hvalue
              · exact List.forall_mem_singleton.mpr hvalue
              · exact List.forall_mem_cons.mpr ⟨hvalue, ihfields depth _ _⟩
              · exact List.forall_mem_singleton.mpr hvalue
            · exact List.forall_mem_singleton.mpr (.bad _ _ _)
        · exact nofun
        · exact nofun

theorem fits_scan (cs : List Char) : (scan cs).found.Fits Number.InRange maxDepth :=
  (fits_scans _).1 0 cs

/-! ## Names of fields -/

theorem fieldNames_of_fieldValues {fields : List (Key × Document)}
    {entries : List (String × Json)} (h : fieldValues fields = .ok entries) :
    fieldNames fields = entries.map (·.1) := by
  have hnames : fieldNames fields = (fields.map (·.1.name)).filterMap Except.toOption := by
    rw [List.filterMap_map]
    rfl
  rw [hnames, names_of_fieldValues h, List.filterMap_map]
  exact congrFun List.filterMap_eq_map entries

theorem nodup_names_of_fieldValues {fields : List (Key × Document)}
    {entries : List (String × Json)} (h : fieldValues fields = .ok entries)
    (hnodup : (entries.map (·.1)).Nodup) : (fields.map (·.1.name)).Nodup := by
  rw [names_of_fieldValues h]
  rw [List.nodup_iff_pairwise_ne, List.pairwise_map] at hnodup ⊢
  exact hnodup.imp fun hne heq => hne (Except.ok.inj heq)

theorem hasDistinctKeys_of_unique {d : Document} {v : Json} (h : d.hasUniqueKeys = true)
    (hv : d.value = .ok v) : d.HasDistinctKeys := by
  cases d with
  | object start fields ending =>
      obtain ⟨entries, after, hentries, -, -⟩ := value_object hv
      rw [hasUniqueKeys, Bool.and_eq_true, decide_eq_true_iff,
        fieldNames_of_fieldValues hentries] at h
      exact nodup_names_of_fieldValues hentries h.1
  | _ => trivial

end Document

end Alerting.Json
