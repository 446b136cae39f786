import Alerting.Proofs.Json.Printer
import Alerting.Proofs.Json.Yield
/-!
# Reading what was written

A reader reads a value as `a` if it makes `a` of every document that says the value.  This is proved
along the way in which the reader is put together, and it suffices for reading the value back from
its text.
-/

namespace Alerting.Json.Reader

open Document

variable {α β σ : Type} {read : Reader α} {j : Json} {a : α}

/-- Every document that says the value is read as `a`. -/
def Reads (read : Reader α) (j : Json) (a : α) : Prop :=
  ∀ ⦃source d⦄, Says d j → read source d = .ok a

theorem Reads.ofText (h : Reads read j a) (hj : j.Fits Number.IsLiteral maxDepth) :
    ofText read j.text = .ok a := by
  obtain ⟨d, hscan, hsaid⟩ := scan_text hj
  unfold Reader.ofText
  rw [hscan]
  dsimp only
  rw [h hsaid]
  rfl

/-! ## Plain values -/

theorem exists_scalar {d : Document} {s : Scalar} (h : Says d s.value) :
    ∃ start after, d = .scalar start after s := by
  cases s <;> cases h <;> rename_i s hs <;> cases s <;> cases hs <;> exact ⟨_, _, rfl⟩

theorem reads_string (s : String) : Reads string (.string s) s := by
  intro source d h
  obtain ⟨start, after, rfl⟩ := exists_scalar (s := .string s) h
  rfl

theorem reads_bool (b : Bool) : Reads bool (.bool b) b := by
  intro source d h
  obtain ⟨start, after, rfl⟩ := exists_scalar (s := .bool b) h
  rfl

theorem reads_natural (title : String) {bound n : Nat} (hn : n < bound) :
    Reads (natural title bound) (.int n) n := by
  intro source d h
  obtain ⟨start, after, rfl⟩ := exists_scalar (s := .number (.int n)) h
  have hbounds : 0 ≤ (n : Int) ∧ (n : Int) < bound := by omega
  exact (if_pos hbounds).trans (congrArg Except.ok (Int.toNat_natCast n))

theorem reads_json (hj : j.IsSorted) : Reads json j j := by
  intro source d h
  exact h.value hj

theorem Reads.optional {write : α → Json} {found : Option α}
    (h : ∀ a ∈ found, Reads read (write a) a ∧ write a ≠ .null) :
    Reads (optional read) (found.elim .null write) found := by
  intro source d hd
  cases found with
  | none =>
      obtain ⟨start, after, rfl⟩ := exists_scalar (s := .null) hd
      rfl
  | some a =>
      obtain ⟨hread, hnull⟩ := h a rfl
      unfold Reader.optional
      split
      · cases hd with
        | scalar start after hs => exact absurd hs.symm hnull
      · rw [hread hd]
        rfl

theorem reads_ofString? (s : Option String) : Reads (Reader.optional string) (.ofString? s) s :=
  .optional fun text _ => ⟨reads_string text, nofun⟩

theorem IsFound.reads {n : Nat} {found : Option Json} (h : IsFound n found) :
    Reads (Reader.optional json) (found.getD .null) found := by
  have hwrite : found.getD .null = found.elim .null id := by
    cases found <;> rfl
  rw [hwrite]
  exact .optional fun v hv => ⟨reads_json (h v hv).2.sorted, (h v hv).1⟩

theorem Reads.map (h : Reads read j a) (f : α → β) : Reads (fun s d => f <$> read s d) j (f a) := by
  intro source d hd
  dsimp only
  rw [h hd]
  rfl

theorem Reads.refine (h : Reads read j a) {test : α → Except String β} {b : β}
    (htest : test a = .ok b) : Reads (refine read test) j b := by
  intro source d hd
  unfold Reader.refine
  dsimp only
  rw [h hd]
  dsimp only [bind, Except.bind]
  rw [htest]
  rfl

theorem reads_keyword {table : List (String × α)} {s : String} (h : table.lookup s = .some a) :
    Reads (keyword table) (.string s) a := by
  intro source d hd
  obtain ⟨start, after, rfl⟩ := exists_scalar (s := .string s) hd
  have hkeyword : keyword table source (.scalar start after (.string s)) =
      (word table s).mapError (·.within after) := by
    cases source <;> rfl
  rw [hkeyword, word, h]
  rfl

theorem Reads.firstOf (h : Reads read j a) (title : String) (others : List (Reader α)) :
    Reads (firstOf title (read :: others)) j a := by
  intro source d hd
  obtain ⟨v, hv, -⟩ := hd.isValued
  exact firstOf_cons_ok title others hv (h hd)

theorem Reads.firstOf_cons {title : String} {others : List (Reader α)}
    (h : Reads (Reader.firstOf title others) j a)
    (hfirst : ∀ ⦃d⦄, Says d j → ∃ halt, read .kept d = .error halt) :
    Reads (Reader.firstOf title (read :: others)) j a := by
  intro source d hd
  obtain ⟨v, hv, -⟩ := hd.isValued
  obtain ⟨halt, hhalt⟩ := hfirst hd
  rw [firstOf_cons_error title others hv hhalt]
  exact h hd

/-! ## Arrays and objects of values -/

theorem forall₂_of_mem {γ δ : Type} {R S : γ → δ → Prop} {l : List γ} {l' : List δ}
    (h : List.Forall₂ R l l') (himp : ∀ x, ∀ y ∈ l', R x y → S x y) : List.Forall₂ S l l' := by
  induction h with
  | nil => exact .nil
  | cons hfirst _ ih =>
      rw [List.forall₂_cons]
      exact ⟨himp _ _ List.mem_cons_self hfirst,
        ih fun x y hy => himp x y (List.mem_cons_of_mem _ hy)⟩

theorem mapM_of_forall₂ {ε γ : Type} {f : γ → Except ε α} {l : List γ} (results : List α)
    (h : List.Forall₂ (fun x a => f x = .ok a) l results) : l.mapM f = .ok results := by
  induction h with
  | nil => rfl
  | cons hfirst _ ih =>
      rw [List.mapM_cons, hfirst, ih]
      rfl

theorem Reads.list {toJson : α → Json} {l : List α} (h : ∀ a ∈ l, Reads read (toJson a) a) :
    Reads (list read) (.array (l.map toJson)) l := by
  intro source d hd
  obtain ⟨start, items, after, rfl, hitems⟩ := says_array_iff.mp hd
  rw [List.forall₂_map_right_iff] at hitems
  rw [Reader.list, mapM_of_forall₂ l]
  · rfl
  · refine forall₂_of_mem hitems fun d a ha hd => ?_
    rw [h a ha hd]
    rfl

theorem Reads.named {toJson : α → Json} {l : List (String × α)}
    (h : ∀ e ∈ l, Reads read (toJson e.2) e.2) :
    Reads (named read) (.object (l.map fun e => (e.1, toJson e.2))) l := by
  intro source d hd
  obtain ⟨start, fields, after, rfl, hfields⟩ := says_object_iff.mp hd
  rw [List.forall₂_map_right_iff] at hfields
  rw [Reader.named, mapM_of_forall₂ l]
  · rfl
  · refine forall₂_of_mem hfields fun field e he hfield => ?_
    dsimp only
    rw [hfield.1, h e he hfield.2]
    rfl

/-! ## Records -/

/-- The named values fill the fields of a record one after another. -/
inductive Fills : List (Field σ) → List (String × Json) → σ → σ → Prop
  | nil (r : σ) : Fills [] [] r r
  | cons {field : Field σ} {fields : List (Field σ)} {name : String} {j : Json}
      {entries : List (String × Json)} {r r' r'' : σ} (hname : field.name = name)
      (hfill : ∀ ⦃source d⦄, Says d j → field.fill source d r = .ok r')
      (hrest : Fills fields entries r' r'') :
      Fills (field :: fields) ((name, j) :: entries) r r''

section Records

variable {name : String} {set : α → σ → σ} {fields : List (Field σ)}
  {entries : List (String × Json)} {r r' : σ}

theorem Fills.optional (h : Reads read j a) (hrest : Fills fields entries (set a r) r') :
    Fills (.optional name read set :: fields) ((name, j) :: entries) r r' := by
  refine .cons rfl (fun source d hd => ?_) hrest
  exact fill_optional (h hd) name set r

theorem Fills.mandatory (h : Reads read j a) (hrest : Fills fields entries (set a r) r') :
    Fills (.mandatory name read set :: fields) ((name, j) :: entries) r r' := by
  refine .cons rfl (fun source d hd => ?_) hrest
  exact fill_optional (h hd) name set r

theorem find?_field_of_nodup {before after : List (Field σ)} {field : Field σ}
    (h : ((before ++ field :: after).map (·.name)).Nodup) :
    (before ++ field :: after).find? (fun other => other.name = field.name) = some field := by
  rw [List.map_append, List.map_cons, List.nodup_append] at h
  have hbefore : before.find? (fun other => other.name = field.name) = .none := by
    rw [List.find?_eq_none]
    intro other hother hsame
    exact h.2.2 _ (List.mem_map_of_mem hother) _ List.mem_cons_self (of_decide_eq_true hsame)
  have hfield : decide (field.name = field.name) = true := decide_eq_true rfl
  rw [List.find?_append, hbefore, Option.none_or, List.find?_cons, hfield]

/-- All fields are filled, and all of them are seen. -/
theorem exists_fillNamed (before : List (Field σ)) (h : Fills fields entries r r')
    (hnames : ((before ++ fields).map (·.name)).Nodup) {documents : List (Key × Document)}
    (hsaid : List.Forall₂ SaysField documents entries) (seen : List String)
    (hseen : ∀ name, name ∈ seen ↔ name ∈ before.map (·.name)) (isOpen : Bool) (source : Source) :
    ∃ seen', fillNamed (before ++ fields) isOpen source documents seen r = .ok (seen', r') ∧
      ∀ name, name ∈ seen' ↔ name ∈ (before ++ fields).map (·.name) := by
  induction h generalizing before documents seen with
  | nil r =>
      cases hsaid
      rw [List.append_nil]
      exact ⟨seen, rfl, hseen⟩
  | @cons field fields name j entries r r₁ r₂ hname hfill _ ih =>
      subst hname
      cases hsaid with
      | @cons document _ documents _ hfirst hrest =>
          obtain ⟨key, d⟩ := document
          obtain ⟨hkey, hd⟩ := hfirst
          dsimp only at hkey hd
          have hunseen : seen.contains field.name = false := by
            rw [List.map_append, List.map_cons, List.nodup_append] at hnames
            rw [List.contains_eq_mem, decide_eq_false_iff_not, hseen]
            exact fun hmem => hnames.2.2 _ hmem _ List.mem_cons_self rfl
          have hseen' : ∀ name, name ∈ field.name :: seen ↔
              name ∈ (before ++ [field]).map (·.name) := by
            intro name
            simp [hseen, or_comm]
          rw [fillNamed_cons_known hkey (find?_field_of_nodup hnames) hunseen (hfill hd)]
          have hsplit : before ++ field :: fields = (before ++ [field]) ++ fields := by simp
          rw [hsplit] at hnames ⊢
          exact ih (before ++ [field]) hnames hrest _ hseen'

theorem Fills.reads {blank : σ} (h : Fills fields entries blank r)
    (hnames : (fields.map (·.name)).Nodup) (title : String) (isOpen : Bool) :
    Reads (record title fields blank isOpen) (.object entries) r := by
  intro source d hd
  obtain ⟨start, documents, after, rfl, hsaid⟩ := says_object_iff.mp hd
  obtain ⟨seen, hfill, hseen⟩ := exists_fillNamed [] h hnames hsaid []
    (fun name => Iff.rfl) isOpen source
  have hmissing :
      fields.find? (fun field => field.required && !seen.contains field.name) = .none := by
    rw [List.find?_eq_none]
    intro field hfield
    have hmem : field.name ∈ seen := (hseen field.name).mpr (List.mem_map_of_mem hfield)
    simp [hmem]
  rw [List.nil_append] at hfill
  rw [record, hfill]
  dsimp only [bind, Except.bind, Ending.after]
  rw [hmissing]
  rfl

end Records

/-! ## Tagged choices -/

theorem splitTag_others {tag : String} {cases : List (Case α)} {source : Source}
    {fields : List (Key × Document)} {entries : List (String × Json)}
    (h : List.Forall₂ SaysField fields entries) (hothers : ∀ e ∈ entries, e.1 ≠ tag)
    (found : Option (Reader α)) :
    splitTag tag cases source fields found = .ok (found, fields) := by
  induction h with
  | nil => rfl
  | @cons field e fields entries hfirst _ ih =>
      obtain ⟨key, d⟩ := field
      obtain ⟨hname, hd⟩ := hfirst
      dsimp only at hname hd
      obtain ⟨v, hv, -⟩ := hd.isValued
      rw [List.forall_mem_cons] at hothers
      rw [splitTag, hname]
      dsimp only [bind, Except.bind]
      rw [if_neg hothers.1, hv, ih hothers.2]
      rfl

/-- The tag comes first, and the case that it names reads the other fields. -/
theorem Reads.tagged {name tag : String} {cases : List (Case α)} {entries : List (String × Json)}
    (h : Reads read (.object entries) a) (hcase : cases.lookup name = .some read)
    (hothers : ∀ e ∈ entries, e.1 ≠ tag) (title : String) :
    Reads (tagged title tag cases) (.object ((tag, .string name) :: entries)) a := by
  intro source d hd
  obtain ⟨start, fields, after, rfl, hsaid⟩ := says_object_iff.mp hd
  cases hsaid with
  | @cons field _ fields _ hfirst hrest =>
      obtain ⟨key, d⟩ := field
      obtain ⟨hname, hvalue⟩ := hfirst
      dsimp only at hname hvalue
      obtain ⟨start', after', rfl⟩ := exists_scalar (s := .string name) hvalue
      have hchosen : chosen cases source (.scalar start' after' (.string name)) = .ok read := by
        have hword : chosen cases source (.scalar start' after' (.string name)) =
            (word cases name).mapError (·.within after') := by
          cases source <;> rfl
        rw [hword, word, hcase]
        rfl
      have hinner : Says (.object start fields (.closed after)) (.object entries) :=
        says_object_iff.mpr ⟨start, fields, after, rfl, hrest⟩
      rw [Reader.tagged, splitTag, hname]
      dsimp only [bind, Except.bind]
      rw [if_pos rfl, if_neg (by simp), hchosen]
      dsimp only
      rw [splitTag_others hrest hothers]
      dsimp only [Ending.after]
      rw [h hinner]
      rfl

theorem reads_bare (title : String) (a : α) (entries : List (String × Json)) :
    Reads (bare title a) (.object entries) a := by
  intro source d hd
  obtain ⟨start, fields, after, rfl, -⟩ := says_object_iff.mp hd
  rfl

end Alerting.Json.Reader
