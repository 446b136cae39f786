import Alerting.Proofs.Template
/-!
# Slots in their places

A template is read once from the left, and what is read is passed over; a slot could be missed if it
started inside another one.  Slots never overlap, whatever stray braces stand around them, so the
pieces of a template hold every slot at the place where it stands.
-/

namespace Alerting.Template

theorem isSlot_iff {name : String} {text : List Char} :
    IsSlot name text ↔ slotAt? text = some (.slot name text) := by
  constructor
  · intro h
    have hread := slotAt?_of_isSlot h []
    rwa [List.append_nil] at hread
  · intro h
    obtain ⟨_, _, _, hslot, heq, -⟩ := exists_of_slotAt? h
    cases heq
    exact hslot

instance (name : String) (text : List Char) : Decidable (IsSlot name text) :=
  decidable_of_iff _ isSlot_iff.symm

/-- Whether a slot stands at a position of a text. -/
def StandsAt (cs : List Char) (start : Nat) (name : String) (text : List Char) : Prop :=
  IsSlot name text ∧ text <+: cs.drop start

instance (cs : List Char) (start : Nat) (name : String) (text : List Char) :
    Decidable (StandsAt cs start name text) :=
  inferInstanceAs (Decidable (_ ∧ _))

/-! ## Slots apart -/

namespace StandsAt

variable {cs text text' : List Char} {start start' : Nat} {name name' : String}

theorem unique (h : StandsAt cs start name text) (h' : StandsAt cs start name' text') :
    name = name' ∧ text = text' := by
  obtain ⟨hslot, rest, hrest⟩ := h
  obtain ⟨hslot', rest', hrest'⟩ := h'
  have hread := slotAt?_of_isSlot hslot rest
  rw [hrest, ← hrest', slotAt?_of_isSlot hslot' rest'] at hread
  cases hread
  exact ⟨rfl, rfl⟩

theorem end_le (h : StandsAt cs start name text) (h' : StandsAt cs start' name' text')
    (hlt : start < start') : start + text.length ≤ start' := by
  obtain ⟨hslot, hstarts⟩ := h
  obtain ⟨hslot', rest, hrest⟩ := h'
  let between := (cs.drop start).take (start' - start)
  have hsplit : cs.drop start = between ++ (text' ++ rest) := by
    calc
      cs.drop start = between ++ (cs.drop start).drop (start' - start) :=
        (List.take_append_drop ..).symm
      _ = between ++ cs.drop start' := by
        rw [List.drop_drop, Nat.add_sub_cancel' (Nat.le_of_lt hlt)]
      _ = between ++ (text' ++ rest) := by rw [hrest]
  have hne : between ≠ [] := by
    obtain ⟨inner, rfl, -, -⟩ := hslot.exists_inner
    obtain ⟨after, hafter⟩ := hstarts
    have hpos : start' - start ≠ 0 := Nat.sub_ne_zero_of_lt hlt
    simp [between, ← hafter, hpos]
  have hinside : text <+: between :=
    hslot'.prefix_of_prefix_append hslot hne (hsplit ▸ hstarts)
  have hlength : between.length ≤ start' - start := List.length_take_le ..
  have hle := hinside.length_le
  omega

/-- Two slots are the same one, or one of them ends before the other starts. -/
theorem same_or_apart (h : StandsAt cs start name text) (h' : StandsAt cs start' name' text') :
    (start = start' ∧ name = name' ∧ text = text') ∨ start + text.length ≤ start' ∨
      start' + text'.length ≤ start := by
  rcases Nat.lt_trichotomy start start' with hlt | rfl | hlt
  · exact .inr (.inl (h.end_le h' hlt))
  · exact .inl ⟨rfl, h.unique h'⟩
  · exact .inr (.inr (h'.end_le h hlt))

end StandsAt

/-! ## Slots among the pieces -/

namespace Splits

variable {cs : List Char} {ps : List Piece}

theorem flatMap_text (h : Splits cs ps) : ps.flatMap Piece.text = cs := by
  induction h with
  | nil => rfl
  | slot hslot hrest ih => rw [List.flatMap_cons, ih, Piece.text]
  | char hnone hrest ih =>
      rw [List.flatMap_cons, ih]
      rfl

theorem isSlot_of_mem (h : Splits cs ps) {name : String} {text : List Char}
    (hmem : .slot name text ∈ ps) : IsSlot name text := by
  induction h with
  | nil => exact absurd hmem List.not_mem_nil
  | slot hslot hrest ih =>
      rcases List.mem_cons.mp hmem with heq | hmem
      · cases heq
        exact hslot
      · exact ih hmem
  | char hnone hrest ih =>
      rcases List.mem_cons.mp hmem with heq | hmem
      · cases heq
      · exact ih hmem

theorem standsAt_iff (h : Splits cs ps) {start : Nat} {name : String} {text : List Char} :
    StandsAt cs start name text ↔ ∃ before after, ps = before ++ .slot name text :: after ∧
      (before.flatMap Piece.text).length = start := by
  constructor
  · rintro ⟨hslot, rest, hrest⟩
    have hbefore := splits_piecesFrom (cs.take start)
    have hsplits := hbefore.append_slot hslot (splits_piecesFrom rest)
    rw [hrest, List.take_append_drop] at hsplits
    refine ⟨_, _, h.eq_piecesFrom.trans hsplits.eq_piecesFrom.symm, ?_⟩
    rw [hbefore.flatMap_text, List.length_take]
    obtain ⟨inner, rfl, -, -⟩ := hslot.exists_inner
    have hlength := congrArg List.length hrest
    simp only [List.cons_append, List.length_cons, List.length_drop] at hlength
    omega
  · rintro ⟨before, after, rfl, rfl⟩
    refine ⟨h.isSlot_of_mem (by simp), ?_⟩
    rw [← h.flatMap_text, List.flatMap_append, List.drop_left, List.flatMap_cons]
    exact List.prefix_append ..

end Splits

/-- Whether a slot with this name stands in a template. -/
def HasSlot (template name : String) : Prop :=
  ∃ text, IsSlot name text ∧ text <:+: template.toList

theorem hasSlot_iff_mem_pieces {template name : String} :
    HasSlot template name ↔ ∃ text, .slot name text ∈ pieces template := by
  have hsplits := splits_piecesFrom template.toList
  constructor
  · rintro ⟨text, hslot, hinfix⟩
    exact ⟨text, mem_pieces_of_infix hslot hinfix⟩
  · rintro ⟨text, hmem⟩
    refine ⟨text, hsplits.isSlot_of_mem hmem, ?_⟩
    rw [← hsplits.flatMap_text, List.flatMap_def]
    exact List.infix_of_mem_flatten (List.mem_map_of_mem hmem)

def Piece.isNamed (name : String) : Piece → Bool
  | char _ => false
  | slot other _ => other = name

theorem any_isNamed_iff {template name : String} :
    (pieces template).any (Piece.isNamed name) = true ↔ HasSlot template name := by
  rw [hasSlot_iff_mem_pieces, List.any_eq_true]
  constructor
  · rintro ⟨piece, hmem, hnamed⟩
    cases piece with
    | char c => cases hnamed
    | slot other text =>
        obtain rfl : other = name := of_decide_eq_true hnamed
        exact ⟨text, hmem⟩
  · rintro ⟨text, hmem⟩
    exact ⟨_, hmem, decide_eq_true rfl⟩

instance (template name : String) : Decidable (HasSlot template name) :=
  decidable_of_iff _ any_isNamed_iff

theorem HasSlot.mentions {template name : String} {word : List Char} (h : HasSlot template name)
    (hword : word <:+: name.toList) : Text.mentions word template.toList = true := by
  obtain ⟨text, ⟨-, before, after, -, -, rfl⟩, hinfix⟩ := h
  have hname : name.toList <:+: '{' :: '{' :: (before ++ (name.toList ++ (after ++ ['}', '}']))) :=
    ⟨'{' :: '{' :: before, after ++ ['}', '}'], by simp⟩
  exact Text.mentions_iff.mpr (hword.trans (hname.trans hinfix))

/-- Every slot of a template is one of its pieces, at its place, and the others are single
characters.  Filling puts the text under its name in for a slot that has one and leaves all else as
it is; which pieces there are does not depend on the texts that are put in. -/
theorem fill_replaces_slots (template : String) :
    (∀ start name text start' name' text',
      StandsAt template.toList start name text → StandsAt template.toList start' name' text' →
        (start = start' ∧ name = name' ∧ text = text') ∨ start + text.length ≤ start' ∨
          start' + text'.length ≤ start) ∧
    ∃ ps : List Piece, ps.flatMap Piece.text = template.toList ∧
      (∀ start name text, StandsAt template.toList start name text ↔
        ∃ before after, ps = before ++ .slot name text :: after ∧
          (before.flatMap Piece.text).length = start) ∧
      ∀ tokens : Tokens, (fill template tokens).toList = ps.flatMap fun
        | .char c => [c]
        | .slot name text => ((tokens.get? name).map String.toList).getD text := by
  have hsplits := splits_piecesFrom template.toList
  refine ⟨fun _ _ _ _ _ _ h h' => h.same_or_apart h', pieces template, hsplits.flatMap_text,
    fun _ _ _ => hsplits.standsAt_iff, fun tokens => ?_⟩
  rw [fill, String.toList_ofList]
  congr 1
  funext piece
  cases piece with
  | char c => rfl
  | slot name text =>
      dsimp only [Piece.fill]
      cases tokens.get? name <;> rfl

def strayBraces : String :=
  "\x7b" ++ slot "kpi" ++ "\x7b\x7ba" ++ slot " kpi\n"

theorem fill_replaces_slots_strayBraces :
    StandsAt strayBraces.toList 1 "kpi" (slot "kpi").toList ∧
      StandsAt strayBraces.toList 11 "kpi" (slot " kpi\n").toList ∧
      1 + (slot "kpi").toList.length ≤ 11 := by
  have hfirst : StandsAt strayBraces.toList 1 "kpi" (slot "kpi").toList := by decide +kernel
  have hsecond : StandsAt strayBraces.toList 11 "kpi" (slot " kpi\n").toList := by decide +kernel
  refine ⟨hfirst, hsecond, ?_⟩
  rcases (fill_replaces_slots strayBraces).1 _ _ _ _ _ _ hfirst hsecond with ⟨h, -⟩ | h | h
  · exact absurd h (by decide)
  · exact h
  · exact absurd (Nat.le_of_add_right_le h) (by decide)

example : fill strayBraces (.ofList [("kpi", "7")]) = "\x7b7\x7b\x7ba7" := by decide +kernel

end Alerting.Template
