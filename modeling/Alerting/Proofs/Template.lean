import Alerting.Proofs.Text.Search
import Alerting.Template
/-!
# What filling a template does

A template is read once, from the left.  `Splits` says how it falls into pieces: slots, and
characters at which no slot starts.  Slots do not overlap, so every slot in a template is one of its
pieces.  A text that is put in for a slot is never read: the filled template is that text between
others in which it has no part.
-/

namespace Alerting.Template

open Text

/-! ## Slots -/

/-- Whether a text can be the name in a slot. -/
def IsName (name : List Char) : Prop :=
  name.head?.any startsName = true ∧ ∀ c ∈ name, isNameChar c = true

def IsSlot (name : String) (text : List Char) : Prop :=
  IsName name.toList ∧
    ∃ before after, (∀ c ∈ before, isBlank c = true) ∧ (∀ c ∈ after, isBlank c = true) ∧
      text = '{' :: '{' :: (before ++ (name.toList ++ (after ++ ['}', '}'])))

theorem isNameChar_iff {c : Char} :
    isNameChar c = true ↔
      65 ≤ c.toNat ∧ c.toNat ≤ 90 ∨ 97 ≤ c.toNat ∧ c.toNat ≤ 122 ∨
        48 ≤ c.toNat ∧ c.toNat ≤ 57 ∨ c = '_' := by
  change (decide (65 ≤ c.val ∧ c.val ≤ 90) || (decide (97 ≤ c.val) && decide (c.val ≤ 122)) ||
    (decide (48 ≤ c.val) && decide (c.val ≤ 57)) || decide (c = '_')) = true ↔ _
  simp [UInt32.le_iff_toNat_le, or_assoc]

theorem isNameChar_of_isBlank {c : Char} (h : isBlank c = true) : isNameChar c = false := by
  simp only [isBlank, blankRanges, List.any_cons, List.any_nil, Bool.or_eq_true, Bool.and_eq_true,
    decide_eq_true_eq, Bool.or_false] at h
  rw [Bool.eq_false_iff]
  intro hname
  rcases isNameChar_iff.mp hname with hc | hc | hc | rfl
  · omega
  · omega
  · omega
  · revert h
    decide

theorem isBlank_of_isNameChar {c : Char} (h : isNameChar c = true) : isBlank c = false := by
  rw [Bool.eq_false_iff]
  intro hblank
  rw [isNameChar_of_isBlank hblank] at h
  cases h

theorem slotAt?_of_isSlot {name : String} {text : List Char} (h : IsSlot name text)
    (rest : List Char) : slotAt? (text ++ rest) = some (.slot name text) := by
  obtain ⟨⟨hstart, hname⟩, before, after, hbefore, hafter, htext⟩ := h
  have hrest : text ++ rest =
      '{' :: '{' :: (before ++ (name.toList ++ (after ++ '}' :: '}' :: rest))) := by
    simp [htext]
  have hhead : ∀ c ∈ (name.toList ++ (after ++ '}' :: '}' :: rest)).head?, isBlank c = false := by
    cases hcs : name.toList with
    | nil =>
        rw [hcs] at hstart
        cases hstart
    | cons c tail =>
        rintro _ ⟨⟩
        exact isBlank_of_isNameChar (hname c (hcs ▸ List.mem_cons_self))
  have hend : ∀ c ∈ (after ++ '}' :: '}' :: rest).head?, isNameChar c = false := by
    cases after with
    | nil =>
        rintro _ ⟨⟩
        decide
    | cons c after =>
        rintro _ ⟨⟩
        exact isNameChar_of_isBlank (hafter c List.mem_cons_self)
  have hclose : ∀ c ∈ ('}' :: '}' :: rest).head?, isBlank c = false := by
    rintro _ ⟨⟩
    decide
  rw [hrest, slotAt?]
  simp only [span_append hbefore hhead, span_append hname hend, span_append hafter hclose, hstart,
    if_true, String.ofList_toList, htext]
  simp

theorem exists_of_slotAt? {cs : List Char} {piece : Piece} (h : slotAt? cs = some piece) :
    ∃ name text rest, IsSlot name text ∧ piece = .slot name text ∧ cs = text ++ rest := by
  unfold slotAt? at h
  split at h
  · next cs =>
    let inner := cs.dropWhile isBlank
    let tail := inner.dropWhile isNameChar
    dsimp only at h
    split at h
    · next rest hrest =>
      split at h
      · next hstart =>
        cases h
        refine ⟨_, _, rest,
          ⟨⟨?_, ?_⟩, cs.takeWhile isBlank, tail.takeWhile isBlank, ?_, ?_, ?_⟩, rfl,
          ?_⟩
        · rw [String.toList_ofList]
          exact hstart
        · rw [String.toList_ofList]
          exact List.all_eq_true.mp List.all_takeWhile
        · exact List.all_eq_true.mp List.all_takeWhile
        · exact List.all_eq_true.mp List.all_takeWhile
        · simp [tail, inner]
        · have htail : tail.takeWhile isBlank ++ '}' :: '}' :: rest = tail := by
            rw [← hrest, List.takeWhile_append_dropWhile]
          have hcs : cs = cs.takeWhile isBlank ++
              (inner.takeWhile isNameChar ++ (tail.takeWhile isBlank ++ '}' :: '}' :: rest)) := by
            rw [htail, List.takeWhile_append_dropWhile, List.takeWhile_append_dropWhile]
          rw [List.append_assoc]
          simp only [List.cons_append, List.append_assoc, List.nil_append]
          exact congrArg ('{' :: '{' :: ·) hcs
      · cases h
    · cases h
  · cases h

theorem slotAt?_eq_none_iff {cs : List Char} :
    slotAt? cs = none ↔ ∀ name text, IsSlot name text → ¬text <+: cs := by
  constructor
  · rintro hnone name text hslot ⟨rest, rfl⟩
    rw [slotAt?_of_isSlot hslot] at hnone
    cases hnone
  · intro h
    cases hslot : slotAt? cs with
    | none => rfl
    | some piece =>
        obtain ⟨name, text, rest, htext, -, rfl⟩ := exists_of_slotAt? hslot
        exact absurd (List.prefix_append text rest) (h name text htext)

/-! ## Pieces -/

/-- How a template falls into pieces, read from the left. -/
inductive Splits : List Char → List Piece → Prop
  | nil : Splits [] []
  | slot {name : String} {text rest : List Char} {ps : List Piece} (h : IsSlot name text)
      (hrest : Splits rest ps) : Splits (text ++ rest) (.slot name text :: ps)
  | char {c : Char} {rest : List Char} {ps : List Piece}
      (h : ∀ name text, IsSlot name text → ¬text <+: c :: rest) (hrest : Splits rest ps) :
      Splits (c :: rest) (.char c :: ps)

theorem piecesFrom_eq_drop (passed : Nat) (cs : List Char) :
    piecesFrom passed cs = piecesFrom 0 (cs.drop passed) := by
  induction cs generalizing passed with
  | nil =>
      rw [List.drop_nil]
      cases passed <;> rfl
  | cons c cs ih =>
      cases passed with
      | zero => rfl
      | succ passed => exact ih passed

theorem piecesFrom_slot {name : String} {text : List Char} (h : IsSlot name text)
    (rest : List Char) : piecesFrom 0 (text ++ rest) = .slot name text :: piecesFrom 0 rest := by
  obtain ⟨c, inner, rfl⟩ : ∃ c inner, text = c :: inner := by
    obtain ⟨-, before, after, -, -, rfl⟩ := h
    exact ⟨_, _, rfl⟩
  have hslot : slotAt? (c :: (inner ++ rest)) = some (.slot name (c :: inner)) :=
    slotAt?_of_isSlot h rest
  rw [List.cons_append, piecesFrom, hslot]
  dsimp only [Piece.text]
  rw [piecesFrom_eq_drop, List.length_cons, Nat.add_sub_cancel, List.drop_left]

theorem piecesFrom_char {c : Char} {rest : List Char} (h : slotAt? (c :: rest) = none) :
    piecesFrom 0 (c :: rest) = .char c :: piecesFrom 0 rest := by
  rw [piecesFrom, h]

theorem splits_piecesFrom (cs : List Char) : Splits cs (piecesFrom 0 cs) := by
  induction hlength : cs.length using Nat.strongRecOn generalizing cs with
  | ind n ih =>
    cases cs with
    | nil => exact .nil
    | cons c cs =>
        cases hslot : slotAt? (c :: cs) with
        | none =>
            rw [piecesFrom_char hslot]
            exact .char (slotAt?_eq_none_iff.mp hslot) (ih _ (by simp [← hlength]) cs rfl)
        | some piece =>
            obtain ⟨name, text, rest, htext, rfl, hcs⟩ := exists_of_slotAt? hslot
            have hshort : rest.length < n := by
              obtain ⟨-, before, after, -, -, rfl⟩ := htext
              rw [← hlength, hcs]
              simp
              omega
            rw [hcs, piecesFrom_slot htext]
            exact .slot htext (ih _ hshort rest rfl)

theorem Splits.eq_piecesFrom {cs : List Char} {ps : List Piece} (h : Splits cs ps) :
    ps = piecesFrom 0 cs := by
  induction h with
  | nil => rfl
  | slot hslot hrest ih => rw [piecesFrom_slot hslot, ih]
  | char hnone hrest ih => rw [piecesFrom_char (slotAt?_eq_none_iff.mpr hnone), ih]

theorem splits_iff {template : String} {ps : List Piece} :
    Splits template.toList ps ↔ ps = pieces template :=
  ⟨Splits.eq_piecesFrom, fun h => h ▸ splits_piecesFrom template.toList⟩

/-! ## Slots apart from each other -/

theorem IsSlot.exists_inner {name : String} {text : List Char} (h : IsSlot name text) :
    ∃ inner, text = '{' :: '{' :: inner ∧ '{' ∉ inner ∧ inner ≠ [] := by
  obtain ⟨⟨-, hname⟩, before, after, hbefore, hafter, rfl⟩ := h
  refine ⟨_, rfl, ?_, by simp⟩
  have hbrace : isBlank '{' = false ∧ isNameChar '{' = false := by decide
  simp only [List.mem_append, List.mem_cons, List.not_mem_nil, or_false, not_or]
  refine ⟨fun h => ?_, fun h => ?_, fun h => ?_, by decide, by decide⟩
  · exact Bool.false_ne_true (hbrace.1.symm.trans (hbefore _ h))
  · exact Bool.false_ne_true (hbrace.2.symm.trans (hname _ h))
  · exact Bool.false_ne_true (hbrace.1.symm.trans (hafter _ h))

/-- A slot that starts before another one ends before it. -/
theorem IsSlot.prefix_of_prefix_append {name name' : String} {text text' l rest : List Char}
    (h : IsSlot name text) (h' : IsSlot name' text') (hl : l ≠ [])
    (hstarts : text' <+: l ++ (text ++ rest)) : text' <+: l := by
  obtain ⟨inner, rfl, -, -⟩ := h.exists_inner
  obtain ⟨inner', rfl, hbrace, hinner⟩ := h'.exists_inner
  rcases List.prefix_or_prefix_of_prefix hstarts (List.prefix_append l _) with hshort | hlong
  · exact hshort
  obtain ⟨overlap, hoverlap⟩ := hlong
  rw [← hoverlap, List.prefix_append_right_inj] at hstarts
  cases overlap with
  | nil =>
      rw [List.append_nil] at hoverlap
      exact hoverlap ▸ List.prefix_rfl
  | cons o overlap =>
      -- the second slot would have a brace of the first one inside
      exfalso
      obtain ⟨rfl, hnext⟩ := List.cons_prefix_cons.mp hstarts
      match l, hl with
      | [c], _ =>
          obtain ⟨-, rfl⟩ : c = '{' ∧ overlap = inner' := by simpa using hoverlap
          obtain ⟨d, inner', rfl⟩ := List.exists_cons_of_ne_nil hinner
          obtain ⟨rfl, -⟩ := List.cons_prefix_cons.mp hnext
          exact hbrace List.mem_cons_self
      | c :: d :: l, _ =>
          obtain ⟨-, -, rfl⟩ : c = '{' ∧ d = '{' ∧ l ++ '{' :: overlap = inner' := by
            simpa using hoverlap
          exact hbrace (List.mem_append_right l List.mem_cons_self)

/-- A slot in a template is one of its pieces, wherever it stands. -/
theorem Splits.append_slot {cs after : List Char} {ps qs : List Piece} {name : String}
    {text : List Char} (hcs : Splits cs ps) (h : IsSlot name text) (hafter : Splits after qs) :
    Splits (cs ++ (text ++ after)) (ps ++ .slot name text :: qs) := by
  induction hcs with
  | nil => exact .slot h hafter
  | slot hslot hrest ih =>
      rw [List.append_assoc]
      exact .slot hslot ih
  | char hnone hrest ih =>
      refine .char (fun name' text' hslot hstarts => ?_) ih
      exact hnone name' text' hslot (h.prefix_of_prefix_append hslot (List.cons_ne_nil _ _) hstarts)

theorem pieces_append_slot {template : String} {before text after : List Char} {name : String}
    (h : IsSlot name text) (htemplate : template.toList = before ++ (text ++ after)) :
    pieces template = piecesFrom 0 before ++ .slot name text :: piecesFrom 0 after := by
  rw [eq_comm, ← splits_iff, htemplate]
  exact (splits_piecesFrom before).append_slot h (splits_piecesFrom after)

theorem mem_pieces_of_infix {template name : String} {text : List Char} (h : IsSlot name text)
    (hfound : text <:+: template.toList) : .slot name text ∈ pieces template := by
  obtain ⟨before, after, htemplate⟩ := hfound
  rw [pieces_append_slot h (by rw [← htemplate, List.append_assoc])]
  exact List.mem_append_right _ List.mem_cons_self

/-! ## Filling -/

/-- Whether a text is what a template becomes with these tokens. -/
def Fills (tokens : Tokens) (template text : String) : Prop :=
  ∃ ps, Splits template.toList ps ∧ text.toList = ps.flatMap (Piece.fill tokens)

theorem fills_iff {tokens : Tokens} {template text : String} :
    Fills tokens template text ↔ text = fill template tokens := by
  unfold Fills fill
  simp only [splits_iff, exists_eq_left]
  rw [← String.toList_inj, String.toList_ofList]

theorem fill_eq_join (template : String) (tokens : Tokens) :
    fill template tokens =
      String.join ((pieces template).map fun piece => String.ofList (piece.fill tokens)) := by
  rw [← String.toList_inj, fill, String.toList_ofList, String.toList_join, List.flatMap_map]
  simp only [String.toList_ofList]

/-! ## Texts that are put in -/

def closeGaps (parts : List (Option String)) (text : String) : String :=
  String.join (parts.map (·.getD text))

/-- Whether a function does nothing with a text but put it into the gaps of another one. -/
def Copies (f : String → String) : Prop :=
  ∃ parts, ∀ text, f text = closeGaps parts text

namespace Copies

theorem const (s : String) : Copies fun _ => s :=
  ⟨[some s], fun text => by simp [closeGaps]⟩

theorem id : Copies fun text => text :=
  ⟨[none], fun text => by simp [closeGaps]⟩

theorem append {f g : String → String} (hf : Copies f) (hg : Copies g) :
    Copies fun text => f text ++ g text := by
  obtain ⟨parts, hparts⟩ := hf
  obtain ⟨parts', hparts'⟩ := hg
  refine ⟨parts ++ parts', fun text => ?_⟩
  dsimp only
  rw [hparts, hparts', closeGaps, closeGaps, closeGaps, List.map_append, String.join_append]

theorem join_map {ι : Type} {f : ι → String → String} (l : List ι) (h : ∀ i ∈ l, Copies (f i)) :
    Copies fun text => String.join (l.map fun i => f i text) := by
  induction l with
  | nil => exact const ""
  | cons i l ih =>
      rw [List.forall_mem_cons] at h
      simp only [List.map_cons, String.join_cons]
      exact h.1.append (ih h.2)

theorem comp {f g : String → String} (hf : Copies f) (hg : Copies g) :
    Copies fun text => f (g text) := by
  obtain ⟨parts, hparts⟩ := hf
  simp only [hparts, closeGaps]
  refine join_map parts fun part _ => ?_
  cases part with
  | none => exact hg
  | some s => exact const s

end Copies

/-- Whether tokens either stay the same, whatever the text is, or stand for the text. -/
def Passes (tokens : String → Tokens) : Prop :=
  ∀ name, (∃ value?, ∀ text, (tokens text).get? name = value?) ∨
    ∀ text, (tokens text).get? name = some text

namespace Passes

variable {tokens : String → Tokens}

theorem const (tokens : Tokens) : Passes fun _ => tokens :=
  fun name => .inl ⟨tokens.get? name, fun _ => rfl⟩

theorem insert (h : Passes tokens) (name value : String) :
    Passes fun text => (tokens text).insert name value := by
  intro other
  by_cases hother : other = name
  · subst hother
    exact .inl ⟨some value, fun text => Dict.get?_insert_self ..⟩
  · simp only [Dict.get?_insert_of_ne _ hother]
    exact h other

theorem insert_text (h : Passes tokens) (name : String) :
    Passes fun text => (tokens text).insert name text := by
  intro other
  by_cases hother : other = name
  · subst hother
    exact .inr fun text => Dict.get?_insert_self ..
  · simp only [Dict.get?_insert_of_ne _ hother]
    exact h other

theorem copies_fill_piece (h : Passes tokens) (piece : Piece) :
    Copies fun text => String.ofList (piece.fill (tokens text)) := by
  cases piece with
  | char c =>
      simp only [Piece.fill]
      exact .const _
  | slot name slotText =>
      simp only [Piece.fill]
      rcases h name with ⟨value?, hvalue⟩ | htext
      · simp only [hvalue]
        exact .const _
      · simp only [htext, String.ofList_toList]
        exact .id

theorem copies_fill (h : Passes tokens) (template : String) :
    Copies fun text => fill template (tokens text) := by
  simp only [fill_eq_join]
  exact .join_map _ fun piece _ => h.copies_fill_piece piece

end Passes

/-- What is put in for a slot of a template stands as it is between other texts. -/
theorem exists_fill_eq_append {name template : String} {slotText : List Char}
    (h : Piece.slot name slotText ∈ pieces template) (tokens : Tokens) :
    ∃ before after, Copies before ∧ Copies after ∧ ∀ text,
      fill template (tokens.insert name text) = before text ++ text ++ after text := by
  obtain ⟨ps, qs, hpieces⟩ := List.append_of_mem h
  have hpasses := (Passes.const tokens).insert_text name
  refine ⟨_, _, .join_map ps fun piece _ => hpasses.copies_fill_piece piece,
    .join_map qs fun piece _ => hpasses.copies_fill_piece piece, fun text => ?_⟩
  have hslot :
      String.ofList (Piece.fill (tokens.insert name text) (.slot name slotText)) = text := by
    rw [Piece.fill, Dict.get?_insert_self, String.ofList_toList]
  rw [fill_eq_join, hpieces, List.map_append, List.map_cons, hslot, String.join_append,
    String.join_cons, String.append_assoc]

end Alerting.Template
