import Alerting.Proofs.Json.Fits
/-!
# What readers yield

A reader yields a property if everything that it reads has it.  This is proved along the way in
which a reader is put together: what holds of the parts of a document is asked of the readers of its
parts, and a record keeps what each of its fields keeps.
-/

namespace Alerting.Json

def Document.parts : Document → List Document
  | .array _ items _ => items
  | .object _ fields _ => fields.map (·.2)
  | _ => []

/-- The document nests at most so many arrays and objects, its integers fit 64 bits, and no object
in it has two fields with one name. -/
structure Document.IsRegular (n : Nat) (d : Document) : Prop where
  fits : d.Fits Number.InRange n
  unique : d.hasUniqueKeys = true

def Document.HasRegularParts (n : Nat) (d : Document) : Prop :=
  ∀ part ∈ d.parts, part.IsRegular n

/-- The value nests at most so many arrays and objects, its integers fit 64 bits, and the fields of
its objects are in order. -/
structure IsRegular (n : Nat) (v : Json) : Prop where
  fits : v.Fits Number.InRange n
  sorted : v.IsSorted

/-- What was looked for is a value from a text or is not there; null counts as not there. -/
def IsFound (n : Nat) (found : Option Json) : Prop :=
  ∀ v ∈ found, v ≠ .null ∧ v.IsRegular n

namespace Document.IsRegular

variable {n : Nat} {d : Document}

theorem parts (h : d.IsRegular (n + 1)) : d.HasRegularParts n := by
  obtain ⟨hfits, hunique⟩ := h
  cases hfits with
  | array start ending hitems =>
      rw [hasUniqueKeys, itemsHaveUniqueKeys_iff] at hunique
      exact fun part hpart => ⟨hitems part hpart, hunique part hpart⟩
  | object start ending hfields =>
      rw [hasUniqueKeys, Bool.and_eq_true, fieldsHaveUniqueKeys_iff] at hunique
      intro part hpart
      obtain ⟨field, hfield, rfl⟩ := List.mem_map.mp hpart
      exact ⟨hfields field hfield, hunique.2 field hfield⟩
  | _ =>
      intro part hpart
      cases hpart

theorem of_value {v : Json} (h : d.IsRegular n) (hv : d.value = .ok v) : v.IsRegular n :=
  ⟨(h.fits.of_value hv).1, (h.fits.of_value hv).2⟩

end Document.IsRegular

theorem isRegular_null (n : Nat) : IsRegular n .null := ⟨.null, .null⟩

theorem isFound_none (n : Nat) : IsFound n none := nofun

theorem IsFound.fits {n : Nat} {found : Option Json} (h : IsFound n found) :
    (found.getD .null).Fits Number.InRange n := by
  cases found with
  | none => exact .null
  | some v => exact (h v rfl).2.fits

namespace Reader

open Document

variable {α β σ : Type} {kind inner : Document → Prop} {p : α → Prop}

/-- Everything that is read from a document of this kind has the property. -/
def Yields (kind : Document → Prop) (read : Reader α) (p : α → Prop) : Prop :=
  ∀ ⦃source d a⦄, kind d → read source d = .ok a → p a

theorem yields_any (kind : Document → Prop) (read : Reader α) : Yields kind read fun _ => True :=
  fun _ _ _ _ _ => trivial

theorem Yields.of_kind {kind' : Document → Prop} {read : Reader α} (h : Yields kind read p)
    (hkind : ∀ d, kind' d → kind d) : Yields kind' read p :=
  fun _ d _ hd ha => h (hkind d hd) ha

theorem Yields.map {read : Reader α} {q : β → Prop} (h : Yields kind read p) {f : α → β}
    (hf : ∀ a, p a → q (f a)) : Yields kind (fun s d => f <$> read s d) q := by
  intro source d b hd hb
  obtain ⟨a, ha, rfl⟩ := exists_of_map_eq_ok hb
  exact hf a (h hd ha)

theorem Yields.optional {read : Reader α} (h : Yields kind read p) :
    Yields kind (optional read) fun found => ∀ a ∈ found, p a := by
  intro source d found hd hfound a ha
  unfold Reader.optional at hfound
  split at hfound
  · cases hfound
    cases ha
  · obtain ⟨b, hb, rfl⟩ := exists_of_map_eq_ok hfound
    cases ha
    exact h hd hb

theorem yields_natural (title : String) (bound : Nat) :
    Yields kind (natural title bound) (· < bound) := by
  intro source d n _ hn
  unfold natural at hn
  split at hn
  · split at hn
    · next hbounds =>
      cases hn
      exact (Int.toNat_lt hbounds.1).mpr hbounds.2
    · cases hn
  · exact absurd hn (mismatch_ne_ok _ d _)

theorem yields_bare {a : α} (ha : p a) (title : String) : Yields kind (bare title a) p := by
  intro source d b _ hb
  unfold bare at hb
  split at hb
  · cases hb
    exact ha
  · obtain ⟨-, -, hb⟩ := exists_of_bind_eq_ok hb
    cases hb
    exact ha
  · exact absurd hb (mismatch_ne_ok _ d _)

theorem yields_json (n : Nat) : Yields (Document.IsRegular n) json (Json.IsRegular n) :=
  fun _ _ _ hd hv => hd.of_value hv

theorem yields_optional_json (n : Nat) :
    Yields (Document.IsRegular n) (Reader.optional json) (IsFound n) := by
  intro source d found hd hfound v hv
  unfold Reader.optional at hfound
  split at hfound
  · cases hfound
    cases hv
  · next hscalar =>
    obtain ⟨w, hw, rfl⟩ := exists_of_map_eq_ok hfound
    cases hv
    refine ⟨?_, hd.of_value hw⟩
    rintro rfl
    obtain ⟨start, after, rfl⟩ := exists_null_of_value hw
    exact hscalar start after rfl

theorem of_ofText_eq_ok {read : Reader α} {text : String} {a : α} (h : ofText read text = .ok a) :
    read .text (scan text.toList).found = .ok a := by
  obtain ⟨b, hb, hend⟩ := exists_of_bind_eq_ok (of_mapError_eq_ok h)
  obtain ⟨-, -, hab⟩ := exists_of_bind_eq_ok hend
  cases hab
  exact hb

/-! ## Records -/

section Records

variable {keeps : σ → Prop} {fields : List (Field σ)} {blank : σ}

def Field.Keeps (kind : Document → Prop) (keeps : σ → Prop) (field : Field σ) : Prop :=
  ∀ ⦃source d r r'⦄, kind d → field.fill source d r = .ok r' → keeps r → keeps r'

theorem Field.Keeps.optional {read : Reader α} (h : Yields kind read p) {set : α → σ → σ}
    (hset : ∀ a r, p a → keeps r → keeps (set a r)) (name : String) :
    (Field.optional name read set).Keeps kind keeps := by
  intro source d r r' hd hfill hr
  obtain ⟨a, ha, hr'⟩ := exists_of_bind_eq_ok hfill
  cases hr'
  exact hset a r (h hd ha) hr

theorem Field.Keeps.mandatory {read : Reader α} (h : Yields kind read p) {set : α → σ → σ}
    (hset : ∀ a r, p a → keeps r → keeps (set a r)) (name : String) :
    (Field.mandatory name read set).Keeps kind keeps :=
  Field.Keeps.optional h hset name

theorem keeps_of_fillNamed (hfields : ∀ field ∈ fields, field.Keeps kind keeps) {isOpen : Bool}
    {source : Source} {entries : List (Key × Document)} (hentries : ∀ e ∈ entries, kind e.2)
    {seen : List String} {r : σ} {result : List String × σ}
    (hfill : fillNamed fields isOpen source entries seen r = .ok result) (hr : keeps r) :
    keeps result.2 := by
  induction entries generalizing seen r with
  | nil =>
      cases hfill
      exact hr
  | cons e rest ih =>
      obtain ⟨key, d⟩ := e
      rw [List.forall_mem_cons] at hentries
      rw [fillNamed] at hfill
      obtain ⟨name, -, hfill⟩ := exists_of_bind_eq_ok hfill
      split at hfill
      · -- nobody asks for the field: it is passed over or refused
        dsimp only at hfill
        split at hfill <;> obtain ⟨-, -, hfill⟩ := exists_of_bind_eq_ok hfill <;>
          exact ih hentries.2 hfill hr
      · next field hfield =>
        split at hfill
        · cases of_mapError_eq_ok hfill
        · obtain ⟨changed, hchanged, hfill⟩ := exists_of_bind_eq_ok hfill
          refine ih hentries.2 hfill ?_
          exact hfields field (List.mem_of_find?_eq_some hfield) hentries.1
            (of_mapError_eq_ok hchanged) hr

theorem keeps_of_fillListed (hfields : ∀ field ∈ fields, field.Keeps kind keeps) {source : Source}
    {items : List Document} (hitems : ∀ d ∈ items, kind d) {after : List Char} {r : σ}
    {result : List (Field σ) × List Document × List Char × σ}
    (hfill : fillListed source fields items after r = .ok result) (hr : keeps r) :
    keeps result.2.2.2 := by
  induction fields generalizing items after r with
  | nil =>
      cases hfill
      exact hr
  | cons field fields ih =>
      cases items with
      | nil =>
          cases hfill
          exact hr
      | cons d ds =>
          rw [List.forall_mem_cons] at hfields hitems
          obtain ⟨changed, hchanged, hfill⟩ := exists_of_bind_eq_ok hfill
          exact ih hfields.2 hitems.2 hfill
            (hfields.1 hitems.1 (of_mapError_eq_ok hchanged) hr)

/-- A record keeps what all its fields keep. -/
theorem Yields.record (hparts : ∀ d, kind d → ∀ part ∈ d.parts, inner part) (hblank : keeps blank)
    (hfields : ∀ field ∈ fields, field.Keeps inner keeps) (title : String) (isOpen : Bool) :
    Yields kind (record title fields blank isOpen) keeps := by
  intro source d r hd hr
  have hinner := hparts d hd
  unfold Reader.record at hr
  split at hr
  · obtain ⟨⟨seen, filled⟩, hfill, hr⟩ := exists_of_bind_eq_ok hr
    obtain ⟨after, -, hr⟩ := exists_of_bind_eq_ok hr
    have hkept := keeps_of_fillNamed hfields (List.forall_mem_map.mp hinner) hfill hblank
    split at hr
    · cases hr
    · cases hr
      exact hkept
  · obtain ⟨⟨missing, surplus, after, filled⟩, hfill, hr⟩ := exists_of_bind_eq_ok hr
    have hkept := keeps_of_fillListed hfields hinner hfill hblank
    dsimp only at hr
    split at hr
    · obtain ⟨-, -, hr⟩ := exists_of_bind_eq_ok hr
      cases hr
      exact hkept
    · obtain ⟨end', -, hend⟩ := exists_of_bind_eq_ok hr
      split at hend
      · cases hend
      · cases hend
        exact hkept
  · cases hr
  · exact absurd hr (mismatch_ne_ok _ d _)

end Records

/-! ## Arrays and objects of values -/

section Parts

variable {read : Reader α} (hparts : ∀ d, kind d → ∀ part ∈ d.parts, inner part)
  (h : Yields inner read p)

include hparts h

theorem Yields.list : Yields kind (list read) fun l => ∀ a ∈ l, p a := by
  intro source d l hd hl
  unfold Reader.list at hl
  split at hl
  · obtain ⟨l', hl', hend⟩ := exists_of_bind_eq_ok hl
    obtain ⟨-, -, hsame⟩ := exists_of_seal_eq_ok hend
    subst hsame
    intro a ha
    obtain ⟨part, hpart, hread⟩ := exists_of_mem_mapM hl' ha
    exact h (hparts _ hd part hpart) (of_mapError_eq_ok hread)
  · cases hl
  · exact absurd hl (mismatch_ne_ok _ d _)

theorem Yields.named : Yields kind (named read) fun l => ∀ e ∈ l, p e.2 := by
  intro source d l hd hl
  unfold Reader.named at hl
  split at hl
  · obtain ⟨l', hl', hend⟩ := exists_of_bind_eq_ok hl
    obtain ⟨-, -, hsame⟩ := exists_of_seal_eq_ok hend
    subst hsame
    intro e he
    obtain ⟨⟨key, part⟩, hpart, hread⟩ := exists_of_mem_mapM hl' he
    obtain ⟨name, -, hread⟩ := exists_of_bind_eq_ok hread
    obtain ⟨a, ha, hread⟩ := exists_of_bind_eq_ok hread
    cases hread
    exact h (hparts _ hd part (List.mem_map_of_mem hpart)) (of_mapError_eq_ok ha)
  · cases hl
  · exact absurd hl (mismatch_ne_ok _ d _)

end Parts

/-! ## Tagged choices -/

section Tagged

variable {cases : List (Case α)} {source : Source} {read : Reader α}

theorem exists_of_chosen {d : Document} (h : chosen cases source d = .ok read) :
    ∃ case ∈ cases, case.2 = read := by
  unfold chosen word at h
  split at h
  · have h' := of_mapError_eq_ok h
    split at h'
    · next hlookup =>
      cases h'
      obtain ⟨before, after, rfl, -⟩ := List.lookup_eq_some_iff.mp hlookup
      exact ⟨_, List.mem_append_right before List.mem_cons_self, rfl⟩
    · cases h'
  · split at h
    · cases h
    · split at h
      · next hget =>
        cases h
        exact ⟨_, List.mem_of_getElem? hget, rfl⟩
      · cases h
  · exact absurd h (mismatch_ne_ok _ d _)

theorem of_splitTag {tag : String} {fields : List (Key × Document)}
    {found result : Option (Reader α)} {others : List (Key × Document)}
    (h : splitTag tag cases source fields found = .ok (result, others))
    (hfound : ∀ read ∈ found, ∃ case ∈ cases, case.2 = read) :
    (∀ read ∈ result, ∃ case ∈ cases, case.2 = read) ∧ ∀ field ∈ others, field ∈ fields := by
  induction fields generalizing found others with
  | nil =>
      cases h
      exact ⟨hfound, nofun⟩
  | cons field fields ih =>
      obtain ⟨key, d⟩ := field
      rw [splitTag] at h
      obtain ⟨name, -, h⟩ := exists_of_bind_eq_ok h
      split at h
      · split at h
        · cases of_mapError_eq_ok h
        · obtain ⟨read, hread, h⟩ := exists_of_bind_eq_ok h
          have hchosen : ∀ read' ∈ some read, ∃ case ∈ cases, case.2 = read' := by
            rintro _ ⟨⟩
            exact exists_of_chosen hread
          obtain ⟨hresult, hothers⟩ := ih h hchosen
          exact ⟨hresult, fun field hfield => List.mem_cons_of_mem _ (hothers field hfield)⟩
      · obtain ⟨-, -, h⟩ := exists_of_bind_eq_ok h
        obtain ⟨⟨found', others'⟩, hrest, h⟩ := exists_of_bind_eq_ok h
        cases h
        obtain ⟨hresult, hothers⟩ := ih hrest hfound
        refine ⟨hresult, fun field hfield => ?_⟩
        rcases List.mem_cons.mp hfield with rfl | hfield
        · exact List.mem_cons_self
        · exact List.mem_cons_of_mem _ (hothers field hfield)

/-- A choice yields what all its cases yield of the parts that are left without the tag. -/
theorem Yields.tagged (hparts : ∀ d, kind d → ∀ part ∈ d.parts, inner part)
    (hcases : ∀ case ∈ cases, Yields (fun d => ∀ part ∈ d.parts, inner part) case.2 p)
    (title tag : String) : Yields kind (tagged title tag cases) p := by
  intro source d a hd ha
  have hinner := hparts d hd
  unfold Reader.tagged at ha
  split at ha
  · next start fields ending =>
    obtain ⟨⟨found, others⟩, hsplit, ha⟩ := exists_of_bind_eq_ok ha
    obtain ⟨hfound, hothers⟩ := of_splitTag hsplit nofun
    dsimp only at ha
    obtain ⟨after, -, ha⟩ := exists_of_bind_eq_ok ha
    cases found with
    | none => cases ha
    | some read =>
      obtain ⟨case, hcase, rfl⟩ := hfound read rfl
      refine hcases case hcase (fun part hpart => hinner part ?_) (of_mapError_eq_ok ha)
      obtain ⟨field, hfield, rfl⟩ := List.mem_map.mp hpart
      exact List.mem_map_of_mem (hothers field hfield)
  · next start items ending =>
    split at ha
    · obtain ⟨after, -, ha⟩ := exists_of_bind_eq_ok ha
      cases ha
    · next first others =>
      obtain ⟨read, hread, ha⟩ := exists_of_bind_eq_ok ha
      obtain ⟨-, -, ha⟩ := exists_of_bind_eq_ok ha
      obtain ⟨after, -, ha⟩ := exists_of_bind_eq_ok ha
      obtain ⟨case, hcase, rfl⟩ := exists_of_chosen hread
      have hothers : ∀ part ∈ (Document.array start others (.closed after)).parts, inner part :=
        fun part hpart => hinner part (List.mem_cons_of_mem _ hpart)
      exact hcases case hcase hothers (of_mapError_eq_ok ha)
  · cases ha
  · exact absurd ha (mismatch_ne_ok _ d _)

end Tagged

end Reader

end Alerting.Json
