import Alerting.Proofs.Breakdown.Groups
/-!
# Building with every access checked

A breakdown is built once more, where a row is asked for all labels after its first and the cards
for the one at their head.  Each of these accesses fails beyond the end of its list.  What fails is
a row without labels where parts are made (`ofRows_eq`), and nothing else.
-/

namespace Alerting.Breakdown.Checked

structure OutOfRange where
  position : Nat
  length : Nat
deriving DecidableEq, Repr

section Access

variable {ι : Type}

def sliceFrom (l : List ι) (position : Nat) : Except OutOfRange (List ι) :=
  if position ≤ l.length then .ok (l.drop position) else .error ⟨position, l.length⟩

def itemAt (l : List ι) (position : Nat) : Except OutOfRange ι :=
  match l[position]? with
  | some item => .ok item
  | none => .error ⟨position, l.length⟩

end Access

variable {α : Type} [Figure α]

/-! ## Building -/

def addToGroup (withParts : Bool) (row : GroupRow α) (g : Group α) :
    Except OutOfRange (Group α) :=
  if withParts then do
    let labels ← sliceFrom row.labels 1
    return { g with
      value := g.value + row.value
      parts := addPart (separator.intercalate labels) row.value g.parts }
  else return { g with value := g.value + row.value }

def addRow (withParts : Bool) (row : GroupRow α) :
    List (Group α) → Except OutOfRange (List (Group α))
  | [] => do return [← addToGroup withParts row ⟨categoryOf row, 0, []⟩]
  | g :: rest =>
    if g.category = categoryOf row then do return (← addToGroup withParts row g) :: rest
    else do return g :: (← addRow withParts row rest)

def select (cards : List (Card α)) : Except OutOfRange (Selection α) :=
  let matching := cards.filter (·.isMatch)
  match matching with
  | best :: _ => return .ofMatches best.category (Figure.total (matching.map (·.value)))
  | [] => do
    let top ← itemAt cards 0
    return .ofNoMatch top.category top.value

def ofRows (fields : List String) (rows : List (GroupRow α)) (threshold : Threshold α) :
    Except OutOfRange (Option (Breakdown α)) :=
  if rows.isEmpty then return none
  else do
    let groups ← rows.foldlM (fun gs row => addRow (2 ≤ fields.length) row gs) []
    let cards := (groups.map (Group.card threshold)).mergeSort fun a b =>
      precedes a.value a.category b.value b.category
    return some ⟨fields, cards, ← select cards⟩

/-! ## What fails -/

/-- Fails as the slice after the first label does where there is none. -/
def guardLabels {ι : Type} (fails : Bool) (x : ι) : Except OutOfRange ι :=
  if fails then .error ⟨1, 0⟩ else .ok x

theorem addToGroup_eq (withParts : Bool) (row : GroupRow α) (g : Group α) :
    addToGroup withParts row g =
      guardLabels (withParts && row.labels.isEmpty) (Group.add withParts row g) := by
  obtain ⟨labels, value⟩ := row
  cases withParts with
  | false => rfl
  | true =>
      cases labels with
      | nil => rfl
      | cons label labels => rfl

theorem addRow_eq (withParts : Bool) (row : GroupRow α) (gs : List (Group α)) :
    addRow withParts row gs =
      guardLabels (withParts && row.labels.isEmpty) (Breakdown.addRow withParts row gs) := by
  induction gs with
  | nil =>
      rw [addRow, addToGroup_eq]
      cases withParts && row.labels.isEmpty <;> rfl
  | cons g rest ih =>
      rw [addRow, Breakdown.addRow, addToGroup_eq, ih]
      split <;> cases withParts && row.labels.isEmpty <;> rfl

theorem foldlM_addRow (withParts : Bool) (rows : List (GroupRow α)) (gs : List (Group α)) :
    rows.foldlM (fun gs row => addRow withParts row gs) gs =
      guardLabels (withParts && rows.any (·.labels.isEmpty))
        (rows.foldl (fun gs row => Breakdown.addRow withParts row gs) gs) := by
  induction rows generalizing gs with
  | nil =>
      rw [List.any_nil, Bool.and_false]
      rfl
  | cons row rows ih =>
      rw [List.foldlM_cons, addRow_eq, List.any_cons, List.foldl_cons, Bool.and_or_distrib_left]
      cases withParts && row.labels.isEmpty with
      | true => rfl
      | false => exact ih _

theorem select_eq {cards : List (Card α)} {s : Selection α} (h : select? cards = some s) :
    select cards = .ok s := by
  unfold select? at h
  unfold select
  dsimp only at h ⊢
  cases hmatching : cards.filter (·.isMatch) with
  | cons best rest =>
      rw [hmatching] at h
      cases h
      rfl
  | nil =>
      rw [hmatching] at h
      obtain ⟨top, htop, rfl⟩ := Option.map_eq_some_iff.mp h
      rw [List.head?_eq_getElem?] at htop
      rw [itemAt, htop]
      rfl

/-- Building a breakdown fails exactly if there are parts and a row has no labels. -/
theorem ofRows_eq (fields : List String) (rows : List (GroupRow α)) (threshold : Threshold α) :
    ofRows fields rows threshold =
      guardLabels (2 ≤ fields.length && rows.any (·.labels.isEmpty))
        (ofRows? fields rows threshold) := by
  rw [ofRows, foldlM_addRow]
  split
  · next hnil =>
    obtain rfl := List.isEmpty_iff.mp hnil
    rw [ofRows?_eq_none_iff.mpr rfl, List.any_nil, Bool.and_false]
    rfl
  · next hrows =>
    cases decide (2 ≤ fields.length) && rows.any (·.labels.isEmpty) with
    | true => rfl
    | false =>
        have hcards : cardsOf fields rows threshold ≠ [] :=
          mt cardsOf_eq_nil_iff.mp (mt List.isEmpty_iff.mpr hrows)
        obtain ⟨s, hs⟩ := Option.ne_none_iff_exists'.mp (mt select?_eq_none_iff.mp hcards)
        rw [ofRows?, hs]
        change (select (cardsOf fields rows threshold)).bind _ = _
        rw [select_eq hs]
        rfl

theorem ofRows_of_labels {fields : List String} {rows : List (GroupRow α)}
    (h : ∀ row ∈ rows, row.labels.length = fields.length) (threshold : Threshold α) :
    ofRows fields rows threshold = .ok (ofRows? fields rows threshold) := by
  have hlabels : (decide (2 ≤ fields.length) && rows.any (·.labels.isEmpty)) = false := by
    rw [Bool.and_eq_false_iff, decide_eq_false_iff_not, List.any_eq_false]
    rcases Nat.lt_or_ge fields.length 2 with hfew | hmany
    · exact .inl (by omega)
    · refine .inr fun row hrow hnil => ?_
      have hlength := h row hrow
      rw [List.isEmpty_iff.mp hnil, List.length_nil] at hlength
      omega
  rw [ofRows_eq, hlabels]
  rfl

end Alerting.Breakdown.Checked
