import Alerting.Proofs.Json.Writing
import Alerting.Proofs.Json.Yield
import Alerting.Proofs.Query.Constraint
/-!
# Settled filters

What was read is settled: written down, it is read again as it is.  For a constraint this needs an
argument, since it is written without a sign of its kind, and the bounds of a range come before
everything else: no list of members is short enough to be taken for bounds, and no single value
looks like bounds or a list.
-/

namespace Alerting.Query

open Json Json.Document Json.Reader

/-! ## Bounds -/

namespace Bounds

def entries (b : Bounds) : List (String × Json) :=
  names.filterMap fun name => (b.get? name).map (name, ·)

theorem toJson_eq (b : Bounds) : b.toJson = .object b.entries := rfl

def IsSettled (n : Nat) (b : Bounds) : Prop :=
  ∀ name ∈ names, IsFound n (b.get? name)

theorem yields_reader (n : Nat) : Yields (Document.IsRegular (n + 1)) reader (IsSettled n) := by
  rw [reader_eq]
  refine .record (fun d hd => hd.parts) ?_ (List.forall_mem_map.mpr fun name hname => ?_) _ _
  · intro name _ v hv
    unfold get? at hv
    split at hv <;> cases hv
  · refine .optional (yields_optional_json n) (fun found b hfound hb other hother => ?_) name
    by_cases heq : other = name
    · subst heq
      rw [get?_put_self hname]
      exact hfound
    · rw [get?_put_of_ne hname heq]
      exact hb other hother

variable {n : Nat} {b : Bounds}

theorem exists_of_mem_entries {e : String × Json} (he : e ∈ b.entries) :
    e.1 ∈ names ∧ e.2 ∈ b.get? e.1 := by
  obtain ⟨name, hname, hbound⟩ := List.mem_filterMap.mp he
  obtain ⟨v, hv, rfl⟩ := Option.map_eq_some_iff.mp hbound
  exact ⟨hname, hv⟩

theorem nodup_entries (b : Bounds) : (b.entries.map (·.1)).Nodup := by
  have hnames : b.entries.map (·.1) = names.filter fun name => (b.get? name).isSome := by
    unfold entries
    rw [List.map_filterMap, ← List.filterMap_eq_filter]
    refine List.filterMap_congr fun name _ => ?_
    cases hv : b.get? name <;> simp [Option.guard, hv]
  have hnodup : names.Nodup := by decide
  rw [hnames]
  exact List.Pairwise.filter _ hnodup

theorem lookup_entries (b : Bounds) {name : String} (hname : name ∈ names) :
    b.entries.lookup name = b.get? name := by
  cases hv : b.get? name with
  | none =>
      refine Dict.lookup_eq_none_of_not_mem fun hmem => ?_
      obtain ⟨e, he, rfl⟩ := List.mem_map.mp hmem
      have hsome := (exists_of_mem_entries he).2
      rw [hv] at hsome
      cases hsome
  | some v =>
      have hmem : (name, v) ∈ b.entries :=
        List.mem_filterMap.mpr ⟨name, hname, by rw [hv]; rfl⟩
      exact Dict.lookup_of_mem b.nodup_entries hmem

theorem ofFields_entries (hb : b.IsSettled n) : ofFields b.entries = b := by
  refine ext_get? fun name hname => ?_
  rw [get?_ofFields hname, lookup_entries b hname]
  cases hv : b.get? name with
  | none => rfl
  | some v =>
      have hnull := (hb name hname v hv).1
      cases v <;> first | rfl | exact absurd rfl hnull

theorem fits_toJson (hb : b.IsSettled n) : b.toJson.Fits Number.InRange (n + 1) := by
  rw [toJson_eq]
  refine .object fun e he => ?_
  obtain ⟨hname, hv⟩ := exists_of_mem_entries he
  exact (hb _ hname _ hv).2.fits

theorem exists_fieldValues_of_written {d : Document} (hb : b.IsSettled n) (hd : Says d b.toJson) :
    ∃ start fields after, d = .object start fields (.closed after) ∧
      fieldValues fields = .ok b.entries := by
  rw [toJson_eq] at hd
  obtain ⟨start, fields, after, rfl, hfields⟩ := says_object_iff.mp hd
  obtain ⟨vs, hvs, hsame⟩ :=
    exists_fieldValues (hfields.imp fun _ _ hfield => ⟨hfield.1, hfield.2.isValued⟩)
  refine ⟨start, fields, after, rfl, ?_⟩
  rw [hvs, hsame]
  intro e he
  obtain ⟨hname, hv⟩ := exists_of_mem_entries he
  exact (hb _ hname _ hv).2.sorted

end Bounds

/-! ## Constraints -/

namespace Constraint

/-- The constraint cannot be taken for another one, and its values come from a text. -/
def IsSettled (n : Nat) : Constraint → Prop
  | range b => b.IsSettled n
  | list members => 4 < members.length ∧ ∀ v ∈ members, v.IsRegular n
  | scalar v => ofValue v = .scalar v ∧ v.IsRegular (n + 1)

variable {n : Nat}

theorem fits_toJson {c : Constraint} (hc : c.IsSettled n) :
    c.toJson.Fits Number.InRange (n + 1) := by
  cases c with
  | range b => exact Bounds.fits_toJson hc
  | list members => exact .array fun v hv => (hc.2 v hv).fits
  | scalar v => exact hc.2.fits

theorem yields_reader (n : Nat) : Yields (Document.IsRegular (n + 1)) reader (IsSettled n) := by
  intro source d c hd hc
  have hfind := findSome?_of_firstOf hc
  simp only [List.findSome?_cons] at hfind
  cases hbounds : Bounds.reader .kept d with
  | ok b =>
      rw [hbounds] at hfind
      cases hfind
      exact Bounds.yields_reader n hd hbounds
  | error halt =>
      rw [hbounds] at hfind
      cases hlist : Json.Reader.list json .kept d with
      | ok members =>
          rw [hlist] at hfind
          cases hfind
          refine ⟨Nat.lt_of_not_le fun hshort => ?_,
            Yields.list (fun d hd => hd.parts) (yields_json n) hd hlist⟩
          obtain ⟨start, items, after, rfl, hitems⟩ :=
            exists_array_of_value (value_of_list_json hlist)
          rw [Bounds.reader_array hitems hshort] at hbounds
          cases hbounds
      | error halt' =>
          rw [hlist] at hfind
          cases hvalue : d.value with
          | error halt =>
              have hjson : json .kept d = .error halt := hvalue
              rw [hjson] at hfind
              cases hfind
          | ok v =>
              have hjson : json .kept d = .ok v := hvalue
              rw [hjson] at hfind
              cases hfind
              have hsame : reader .kept d = .ok (.scalar v) :=
                reader_of_neither hvalue hbounds hlist
              rw [reader_of_value hvalue (hasDistinctKeys_of_unique hd.unique hvalue)] at hsame
              · exact ⟨Except.ok.inj hsame, hd.of_value hvalue⟩
              · rintro items rfl
                obtain ⟨start, items, after, rfl, hitems⟩ := exists_array_of_value hvalue
                rw [list_json hitems] at hlist
                cases hlist

theorem reads {c : Constraint} (hc : c.IsSettled n) : Reads reader c.toJson c := by
  intro source d hd
  cases c with
  | range b =>
      obtain ⟨start, fields, after, rfl, hfields⟩ := Bounds.exists_fieldValues_of_written hc hd
      have hnames : ∀ e ∈ b.entries, e.1 ∈ Bounds.names :=
        fun e he => (Bounds.exists_of_mem_entries he).1
      have hread : Bounds.reader .kept (.object start fields (.closed after)) = _ :=
        Bounds.reader_object hfields hnames b.nodup_entries
      rw [Bounds.ofFields_entries hc] at hread
      exact reader_of_bounds (value_closed_object start after hfields) hread
  | list members =>
      have hsorted : IsSorted (.array members) := .array fun v hv => (hc.2 v hv).sorted
      exact reader_of_long_array (hd.value hsorted) hc.1
  | scalar v =>
      have hv := hd.value hc.2.sorted
      have hlong : ∀ items, v = .array items → 4 < items.length := by
        rintro items rfl
        cases hc.1
      rw [reader_of_value hv (hd.hasDistinctKeys hc.2.sorted) hlong]
      exact congrArg Except.ok hc.1

end Constraint

/-! ## Filters -/

namespace Filter

def IsSettled (n : Nat) (filter : Filter) : Prop :=
  ∀ e ∈ filter.entries, e.2.IsSettled n

variable {n : Nat}

theorem isSettled_empty (n : Nat) : IsSettled n ∅ := nofun

theorem yields_reader (n : Nat) : Yields (Document.IsRegular (n + 2)) reader (IsSettled n) := by
  intro source d filter hd hfilter e he
  obtain ⟨l, hl, hfilter⟩ := exists_of_bind_eq_ok hfilter
  cases hfilter
  have hsettled := Yields.named (fun d hd => hd.parts) (Constraint.yields_reader n) hd hl
  rw [Dict.ofList, Dict.entries_foldl_insert] at he
  exact hsettled e ((Dict.mem_of_mem_foldl_insertEntry he).resolve_right List.not_mem_nil)

theorem reads {filter : Filter} (h : filter.IsSettled n) : Reads reader filter.toJson filter := by
  intro source d hd
  have hnamed : Json.Reader.named Constraint.reader source d = .ok filter.entries :=
    Reads.named (fun e he => Constraint.reads (h e he)) hd
  unfold reader
  rw [hnamed]
  exact congrArg Except.ok filter.ofList_entries

theorem fits_toJson {filter : Filter} (h : filter.IsSettled n) :
    filter.toJson.Fits Number.InRange (n + 2) := by
  refine .object (List.forall_mem_map.mpr fun e he => ?_)
  exact Constraint.fits_toJson (h e he)

end Filter

end Alerting.Query
