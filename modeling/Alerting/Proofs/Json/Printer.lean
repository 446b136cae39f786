import Alerting.Json.Printer
import Alerting.Proofs.Json.Fits
import Mathlib.Data.List.Forall2
/-!
# Texts that read back

The text that is written for a value is found to say that value, with its fields in the order in
which they were written.  This needs no more than that the value fits a text and that the texts of
its numbers are literals of them.
-/

namespace Alerting.Json

open Document

/-! ## What a document says -/

/-- The document says the value, field by field in the order of the text. -/
inductive Says : Document → Json → Prop
  | scalar (start after : List Char) {s : Scalar} {j : Json} (hs : s.value = j) :
      Says (.scalar start after s) j
  | array (start after : List Char) {items : List Document} {values : List Json}
      (hlength : items.length = values.length) (hitems : ∀ e ∈ items.zip values, Says e.1 e.2) :
      Says (.array start items (.closed after)) (.array values)
  | object (start after : List Char) {fields : List (Key × Document)}
      {entries : List (String × Json)} (hlength : fields.length = entries.length)
      (hnames : ∀ e ∈ fields.zip entries, e.1.1.name = .ok e.2.1)
      (hfields : ∀ e ∈ fields.zip entries, Says e.1.2 e.2.2) :
      Says (.object start fields (.closed after)) (.object entries)

def SaysField (field : Key × Document) (entry : String × Json) : Prop :=
  field.1.name = .ok entry.1 ∧ Says field.2 entry.2

theorem says_array_iff {d : Document} {values : List Json} :
    Says d (.array values) ↔ ∃ start items after, d = .array start items (.closed after) ∧
      List.Forall₂ Says items values := by
  constructor
  · intro h
    cases h with
    | scalar start after hs => rename_i s; cases s <;> cases hs
    | array start after hlength hitems =>
        exact ⟨start, _, after, rfl, List.forall₂_iff_zip.mpr ⟨hlength, fun he => hitems _ he⟩⟩
  · rintro ⟨start, items, after, rfl, h⟩
    obtain ⟨hlength, hitems⟩ := List.forall₂_iff_zip.mp h
    exact .array start after hlength fun e he => hitems he

theorem says_object_iff {d : Document} {entries : List (String × Json)} :
    Says d (.object entries) ↔ ∃ start fields after, d = .object start fields (.closed after) ∧
      List.Forall₂ SaysField fields entries := by
  constructor
  · intro h
    cases h with
    | scalar start after hs => rename_i s; cases s <;> cases hs
    | object start after hlength hnames hfields =>
        exact ⟨start, _, after, rfl, List.forall₂_iff_zip.mpr
          ⟨hlength, fun he => ⟨hnames _ he, hfields _ he⟩⟩⟩
  · rintro ⟨start, fields, after, rfl, h⟩
    obtain ⟨hlength, hfields⟩ := List.forall₂_iff_zip.mp h
    exact .object start after hlength (fun e he => (hfields he).1) fun e he => (hfields he).2

/-- The document has a value: the one that it says, where that one is sorted. -/
def IsValued (d : Document) (j : Json) : Prop :=
  ∃ v, d.value = .ok v ∧ (j.IsSorted → v = j)

theorem exists_itemValues {items : List Document} {values : List Json}
    (h : List.Forall₂ IsValued items values) :
    ∃ vs, itemValues items = .ok vs ∧ ((∀ j ∈ values, j.IsSorted) → vs = values) := by
  induction h with
  | nil => exact ⟨[], rfl, fun _ => rfl⟩
  | cons hd _ ih =>
      obtain ⟨v, hv, hsame⟩ := hd
      obtain ⟨vs, hvs, hsames⟩ := ih
      refine ⟨v :: vs, ?_, fun hsorted => ?_⟩
      · rw [itemValues, hv, hvs]
        rfl
      · rw [List.forall_mem_cons] at hsorted
        rw [hsame hsorted.1, hsames hsorted.2]

theorem exists_fieldValues {fields : List (Key × Document)} {entries : List (String × Json)}
    (h : List.Forall₂ (fun field e => field.1.name = .ok e.1 ∧ IsValued field.2 e.2)
      fields entries) :
    ∃ vs, fieldValues fields = .ok vs ∧ ((∀ e ∈ entries, e.2.IsSorted) → vs = entries) := by
  induction h with
  | nil => exact ⟨[], rfl, fun _ => rfl⟩
  | @cons field e _ _ hd _ ih =>
      obtain ⟨key, d⟩ := field
      obtain ⟨hname, v, hv, hsame⟩ := hd
      obtain ⟨vs, hvs, hsames⟩ := ih
      refine ⟨(e.1, v) :: vs, ?_, fun hsorted => ?_⟩
      · dsimp only at hname hv
        rw [fieldValues, hname, hv, hvs]
        rfl
      · rw [List.forall_mem_cons] at hsorted
        rw [hsame hsorted.1, hsames hsorted.2]

theorem Says.isValued {d : Document} {j : Json} (h : Says d j) : IsValued d j := by
  induction h with
  | scalar start after hs => exact ⟨_, congrArg Except.ok hs, fun _ => rfl⟩
  | array start after hlength _ ih =>
      obtain ⟨vs, hvs, hsame⟩ :=
        exists_itemValues (List.forall₂_iff_zip.mpr ⟨hlength, fun he => ih _ he⟩)
      refine ⟨.array vs, value_closed_array start after hvs, fun hsorted => ?_⟩
      cases hsorted with
      | array hitems => rw [hsame hitems]
  | object start after hlength hnames _ ih =>
      obtain ⟨vs, hvs, hsame⟩ := exists_fieldValues
        (List.forall₂_iff_zip.mpr ⟨hlength, fun he => ⟨hnames _ he, ih _ he⟩⟩)
      refine ⟨.ofFields vs, value_closed_object start after hvs, fun hsorted => ?_⟩
      cases hsorted with
      | object hfields hascending =>
          rw [hsame hfields]
          exact ofFields_of_ascending hascending

theorem Says.value {d : Document} {j : Json} (h : Says d j) (hj : j.IsSorted) :
    d.value = .ok j := by
  obtain ⟨v, hv, hsame⟩ := h.isValued
  rw [hv, hsame hj]

theorem Says.hasDistinctKeys {d : Document} {j : Json} (h : Says d j) (hj : j.IsSorted) :
    d.HasDistinctKeys := by
  cases hj with
  | object hfields hascending =>
      obtain ⟨start, fields, after, rfl, hsaid⟩ := says_object_iff.mp h
      obtain ⟨vs, hvs, hsame⟩ :=
        exists_fieldValues (hsaid.imp fun _ _ hfield => ⟨hfield.1, hfield.2.isValued⟩)
      rw [hsame hfields] at hvs
      exact nodup_names_of_fieldValues hvs (Dict.nodup_keys ⟨_, hascending⟩)
  | array hitems =>
      obtain ⟨start, items, after, rfl, -⟩ := says_array_iff.mp h
      trivial
  | _ =>
      cases h
      trivial

/-! ## Strings -/

theorem hexDigit?_hexDigit {n : Nat} (hn : n < 16) : hexDigit? (hexDigit n) = some n := by
  revert n
  decide

/-- A character is read as the piece that was written for it. -/
theorem exists_piece (c : Char) (cs : List Char) :
    ∃ piece, pieces (escapeChar c ++ cs) = (piece :: (pieces cs).1, (pieces cs).2) ∧
      ∀ ps ending, joinPieces (piece :: ps) ending = (c :: ·) <$> joinPieces ps ending := by
  unfold escapeChar
  split
  · exact ⟨.char '"', rfl, fun _ _ => rfl⟩
  · exact ⟨.char '\\', rfl, fun _ _ => rfl⟩
  · exact ⟨.char '\n', rfl, fun _ _ => rfl⟩
  · exact ⟨.char '\r', rfl, fun _ _ => rfl⟩
  · exact ⟨.char '\t', rfl, fun _ _ => rfl⟩
  · exact ⟨.char '\x08', rfl, fun _ _ => rfl⟩
  · exact ⟨.char '\x0c', rfl, fun _ _ => rfl⟩
  · next hquote hslash _ _ _ _ _ =>
    split
    · next hcontrol =>
      have hunit : hexUnit? '0' '0' (hexDigit (c.toNat / 16)) (hexDigit (c.toNat % 16)) =
          some c.toNat := by
        have hzero : hexDigit? '0' = some 0 := rfl
        have hsum : 4096 * 0 + 256 * 0 + 16 * (c.toNat / 16) + c.toNat % 16 = c.toNat := by omega
        unfold hexUnit?
        rw [hzero, hexDigit?_hexDigit (by omega), hexDigit?_hexDigit (by omega)]
        exact congrArg some hsum
      refine ⟨.unit c.toNat cs, ?_, fun ps ending => ?_⟩
      · simp only [List.cons_append, List.nil_append]
        rw [pieces, hunit]
      · have hsmall : (decide (c.toNat < 0xD800) || decide (0xE000 ≤ c.toNat)) = true := by
          rw [decide_eq_true (by omega), Bool.true_or]
        rw [joinPieces.eq_def (.unit _ _ :: ps)]
        dsimp only
        rw [if_pos hsmall, Char.ofNat_toNat]
    · next hplain =>
      refine ⟨.char c, ?_, fun _ _ => rfl⟩
      rw [List.cons_append, List.nil_append, pieces, if_neg hplain]
      all_goals grind

theorem exists_pieces (cs rest : List Char) :
    ∃ ps, pieces (cs.flatMap escapeChar ++ '"' :: rest) = (ps, .ok rest) ∧
      joinPieces ps (.ok ()) = .ok cs := by
  induction cs with
  | nil => exact ⟨[], rfl, rfl⟩
  | cons c cs ih =>
      obtain ⟨ps, hps, hjoin⟩ := ih
      obtain ⟨piece, hpiece, hjoins⟩ := exists_piece c (cs.flatMap escapeChar ++ '"' :: rest)
      refine ⟨piece :: ps, ?_, ?_⟩
      · rw [List.flatMap_cons, List.append_assoc, hpiece, hps]
      · rw [hjoins, hjoin]
        rfl

theorem toList_quote (s : String) (rest : List Char) :
    (quote s).toList ++ rest = '"' :: (s.toList.flatMap escapeChar ++ '"' :: rest) := by
  simp [quote]

theorem scanString_quote (s : String) (rest : List Char) :
    scanString (s.toList.flatMap escapeChar ++ '"' :: rest) = ⟨.ok s, .ok rest⟩ := by
  obtain ⟨ps, hps, hjoin⟩ := exists_pieces s.toList rest
  have hending : discard (.ok rest : Except Halt (List Char)) = .ok () := rfl
  unfold scanString
  rw [hps]
  dsimp only
  rw [hending, hjoin]
  simp only [Except.map, Except.mapError, String.ofList_toList]

/-! ## Between brackets -/

def itemChars (items : List Json) : List Char :=
  (",".intercalate (itemTexts items)).toList

def fieldChars (fields : List (String × Json)) : List Char :=
  (",".intercalate (fieldTexts fields)).toList

theorem toList_text_array (items : List Json) (rest : List Char) :
    (text (.array items)).toList ++ rest = '[' :: (itemChars items ++ ']' :: rest) := by
  simp [text, itemChars]

theorem toList_text_object (fields : List (String × Json)) (rest : List Char) :
    (text (.object fields)).toList ++ rest = '\x7b' :: (fieldChars fields ++ '\x7d' :: rest) := by
  simp [text, fieldChars]

theorem itemChars_singleton (j : Json) : itemChars [j] = j.text.toList := by
  simp [itemChars, itemTexts]

theorem itemChars_cons_cons (j j' : Json) (items : List Json) :
    itemChars (j :: j' :: items) = j.text.toList ++ ',' :: itemChars (j' :: items) := by
  simp [itemChars, itemTexts, String.intercalate_cons_cons]

theorem fieldChars_singleton (name : String) (j : Json) :
    fieldChars [(name, j)] = (quote name).toList ++ ':' :: j.text.toList := by
  simp [fieldChars, fieldTexts]

theorem fieldChars_cons_cons (name : String) (j : Json) (e : String × Json)
    (fields : List (String × Json)) :
    fieldChars ((name, j) :: e :: fields) =
      (quote name).toList ++ ':' :: (j.text.toList ++ ',' :: fieldChars (e :: fields)) := by
  simp [fieldChars, fieldTexts, String.intercalate_cons_cons]

theorem exists_fieldChars_eq (e : String × Json) (fields : List (String × Json)) :
    ∃ tail, fieldChars (e :: fields) = '"' :: tail := by
  obtain ⟨name, j⟩ := e
  cases fields with
  | nil => exact ⟨_, (fieldChars_singleton name j).trans (toList_quote name _)⟩
  | cons e' fields => exact ⟨_, (fieldChars_cons_cons name j e' fields).trans (toList_quote name _)⟩

/-! ## Tokens -/

def StartsToken (cs : List Char) : Prop :=
  ∃ c tail, cs = c :: tail ∧ isSpace c = false ∧ c ≠ ']'

theorem StartsToken.append {cs : List Char} (h : StartsToken cs) (rest : List Char) :
    StartsToken (cs ++ rest) := by
  obtain ⟨c, tail, rfl, hspace, hend⟩ := h
  exact ⟨c, tail ++ rest, rfl, hspace, hend⟩

theorem dropWhile_of_token {c : Char} (hc : isSpace c = false) (cs : List Char) :
    (c :: cs).dropWhile isSpace = c :: cs := by
  rw [List.dropWhile_cons, hc]
  rfl

theorem startsToken_quote (s : String) : StartsToken (quote s).toList :=
  ⟨'"', _, (List.append_nil _).symm.trans (toList_quote s []), rfl, by decide⟩

theorem isSpace_of_numeral {c : Char} (hc : (c = '-' || c.isDigit) = true) : isSpace c = false := by
  rw [Bool.eq_false_iff]
  intro hspace
  simp only [isSpace, Bool.or_eq_true, decide_eq_true_iff] at hspace
  rcases hspace with ((rfl | rfl) | rfl) | rfl <;> exact absurd hc (by decide)

theorem startsToken_text {n : Nat} {j : Json} (h : j.Fits Number.IsLiteral n) :
    StartsToken j.text.toList := by
  cases h with
  | null => exact ⟨'n', _, rfl, rfl, by decide⟩
  | bool b =>
      cases b with
      | false => exact ⟨'f', _, rfl, rfl, by decide⟩
      | true => exact ⟨'t', _, rfl, rfl, by decide⟩
  | number hx =>
      obtain ⟨lit, hscan, -⟩ := hx
      obtain ⟨c, tail, htext, hc⟩ := Numeral.head_of_scan hscan
      refine ⟨c, tail, htext, isSpace_of_numeral hc, ?_⟩
      rintro rfl
      exact absurd hc (by decide)
  | string s => exact startsToken_quote s
  | @array n items _ =>
      have htext := toList_text_array items []
      rw [List.append_nil] at htext
      exact ⟨'[', _, htext, rfl, by decide⟩
  | @object n fields _ =>
      have htext := toList_text_object fields []
      rw [List.append_nil] at htext
      exact ⟨'\x7b', _, htext, rfl, by decide⟩

theorem scanNumber_text {x : Number} (hx : x.IsLiteral) {rest : List Char}
    (hrest : Numeral.EndsValue rest) :
    ∃ d, scanNumber (x.text.toList ++ rest) = ⟨d, some rest⟩ ∧ Says d (.number x) := by
  obtain ⟨lit, hscan, hvalue⟩ := hx
  refine ⟨.scalar (x.text.toList ++ rest) rest (.number x), ?_, .scalar _ _ rfl⟩
  unfold scanNumber
  rw [Numeral.scan_append hrest hscan]
  dsimp only [List.nil_append]
  rw [hvalue]

theorem scanValue_number {c : Char} (hc : (c = '-' || c.isDigit) = true) (fuel depth : Nat)
    (cs : List Char) : scanValue (fuel + 1) depth (c :: cs) = scanNumber (c :: cs) := by
  rw [scanValue]
  dsimp only
  rw [dropWhile_of_token (isSpace_of_numeral hc)]
  split
  · next heq => cases heq
  all_goals next heq =>
    obtain ⟨rfl, rfl⟩ := List.cons.inj heq
    first | exact absurd hc (by decide) | exact if_pos hc

/-! ## Arrays and objects -/

section Parts

variable {fuel depth : Nat} {cs rest : List Char} {d : Document} {ending : Ending}
  {after : Option (List Char)}

theorem scanItems_last (h : scanValue fuel depth cs = ⟨d, some (']' :: rest)⟩) :
    scanItems (fuel + 1) depth cs = ⟨([d], .closed rest), some rest⟩ := by
  rw [scanItems, h]
  rfl

theorem scanItems_more {ds : List Document} (h : scanValue fuel depth cs = ⟨d, some (',' :: rest)⟩)
    (hrest : StartsToken rest) (hmore : scanItems fuel depth rest = ⟨(ds, ending), after⟩) :
    scanItems (fuel + 1) depth cs = ⟨(d :: ds, ending), after⟩ := by
  obtain ⟨c, tail, rfl, hspace, hend⟩ := hrest
  have hcomma : (',' :: c :: tail).dropWhile isSpace = ',' :: c :: tail := rfl
  rw [scanItems, h]
  simp only [Option.map_some, hcomma, dropWhile_of_token hspace]
  split
  · next heq => exact absurd (List.cons.inj heq).1 hend
  · next heq => cases heq
  · rw [hmore]

theorem scanFields_last (name : String) (atEnd : Halt)
    (h : scanValue fuel depth cs = ⟨d, some ('\x7d' :: rest)⟩) :
    scanFields (fuel + 1) depth atEnd ((quote name).toList ++ ':' :: cs) =
      ⟨([(⟨.ok name, ':' :: cs⟩, d)], .closed rest), some rest⟩ := by
  have hclose : ('\x7d' :: rest).dropWhile isSpace = '\x7d' :: rest := rfl
  have hcolon : (':' :: cs).dropWhile isSpace = ':' :: cs := rfl
  rw [toList_quote, scanFields, dropWhile_of_token rfl]
  simp only [scanString_quote, hcolon, h, Option.map_some, hclose]

theorem scanFields_more (name : String) (atEnd : Halt) {fields : List (Key × Document)}
    (h : scanValue fuel depth cs = ⟨d, some (',' :: rest)⟩)
    (hmore : scanFields fuel depth (.atFlaw .endInValue []) rest = ⟨(fields, ending), after⟩) :
    scanFields (fuel + 1) depth atEnd ((quote name).toList ++ ':' :: cs) =
      ⟨((⟨.ok name, ':' :: cs⟩, d) :: fields, ending), after⟩ := by
  have hcomma : (',' :: rest).dropWhile isSpace = ',' :: rest := rfl
  have hcolon : (':' :: cs).dropWhile isSpace = ':' :: cs := rfl
  rw [toList_quote, scanFields, dropWhile_of_token rfl]
  simp only [scanString_quote, hcolon, h, Option.map_some, hcomma, hmore]

theorem nest_of_lt (hdepth : depth < maxDepth) (d : Document) : nest depth d = d :=
  if_pos hdepth

theorem scanValue_array_nil (fuel : Nat) (hdepth : depth < maxDepth) (rest : List Char) :
    scanValue (fuel + 1) depth ('[' :: ']' :: rest) =
      ⟨.array ('[' :: ']' :: rest) [] (.closed rest), some rest⟩ := by
  have hclose : (']' :: rest).dropWhile isSpace = ']' :: rest := rfl
  rw [scanValue, dropWhile_of_token rfl]
  simp only [hclose, nest_of_lt hdepth]

theorem scanValue_array {ds : List Document} (hdepth : depth < maxDepth) (hcs : StartsToken cs)
    (h : scanItems fuel (depth + 1) cs = ⟨(ds, ending), after⟩) :
    scanValue (fuel + 1) depth ('[' :: cs) = ⟨.array ('[' :: cs) ds ending, after⟩ := by
  obtain ⟨c, tail, rfl, hspace, hend⟩ := hcs
  rw [scanValue, dropWhile_of_token rfl]
  simp only [dropWhile_of_token hspace, nest_of_lt hdepth]
  split
  · next heq => exact absurd (List.cons.inj heq).1 hend
  · next heq => cases heq
  · rw [h]

theorem scanValue_object_nil (fuel : Nat) (hdepth : depth < maxDepth) (rest : List Char) :
    scanValue (fuel + 1) depth ('\x7b' :: '\x7d' :: rest) =
      ⟨.object ('\x7b' :: '\x7d' :: rest) [] (.closed rest), some rest⟩ := by
  have hclose : ('\x7d' :: rest).dropWhile isSpace = '\x7d' :: rest := rfl
  rw [scanValue, dropWhile_of_token rfl]
  simp only [hclose, nest_of_lt hdepth]

theorem scanValue_object {fields : List (Key × Document)} (hdepth : depth < maxDepth)
    (h : scanFields fuel (depth + 1) (.atFlaw .endInObject []) ('"' :: cs) =
      ⟨(fields, ending), after⟩) :
    scanValue (fuel + 1) depth ('\x7b' :: '"' :: cs) =
      ⟨.object ('\x7b' :: '"' :: cs) fields ending, after⟩ := by
  have hquote : ('"' :: cs).dropWhile isSpace = '"' :: cs := rfl
  rw [scanValue, dropWhile_of_token rfl]
  simp only [hquote, nest_of_lt hdepth]
  split
  · next heq => exact absurd (List.cons.inj heq).1 (by decide)
  · rw [h]

end Parts

/-! ## Values -/

/-- The text of the value is found to say it, with this many arrays and objects in it, wherever
nothing goes on with it. -/
def ScansBack (n : Nat) (j : Json) : Prop :=
  ∀ ⦃fuel depth : Nat⦄ ⦃rest : List Char⦄, depth + n ≤ maxDepth →
    2 * j.text.toList.length ≤ fuel → Numeral.EndsValue rest →
      ∃ d, scanValue (fuel + 1) depth (j.text.toList ++ rest) = ⟨d, some rest⟩ ∧ Says d j

theorem endsValue_cons {c : Char} (hc : c = ',' ∨ c = ']' ∨ c = '\x7d') (rest : List Char) :
    Numeral.EndsValue (c :: rest) := by
  rintro _ ⟨⟩
  exact hc

variable {n : Nat}

theorem scansBack_number {x : Number} (hx : x.IsLiteral) : ScansBack n (.number x) := by
  intro fuel depth rest _ _ hrest
  obtain ⟨d, hd, hsaid⟩ := scanNumber_text hx hrest
  obtain ⟨lit, hscan, -⟩ := hx
  obtain ⟨c, tail, htext, hc⟩ := Numeral.head_of_scan hscan
  refine ⟨d, ?_, hsaid⟩
  rw [htext] at hd
  rw [text, htext, List.cons_append, scanValue_number hc]
  exact hd

theorem scansBack_string (s : String) : ScansBack n (.string s) := by
  intro fuel depth rest _ _ _
  refine ⟨.scalar ((quote s).toList ++ rest) rest (.string s), ?_, .scalar _ _ rfl⟩
  rw [text, toList_quote, scanValue, dropWhile_of_token rfl]
  simp only [scanString_quote]

theorem startsToken_itemChars {j : Json} {items : List Json}
    (h : ∀ j' ∈ j :: items, StartsToken j'.text.toList) :
    StartsToken (itemChars (j :: items)) := by
  rw [List.forall_mem_cons] at h
  cases items with
  | nil =>
      rw [itemChars_singleton]
      exact h.1
  | cons j' items =>
      rw [itemChars_cons_cons]
      exact h.1.append _

section Parts

variable {fuel depth : Nat} (hdepth : depth + n ≤ maxDepth)

include hdepth

theorem exists_scanItems {items : List Json} (rest : List Char) (hitems : items ≠ [])
    (hback : ∀ j ∈ items, ScansBack n j) (htoken : ∀ j ∈ items, StartsToken j.text.toList)
    (hfuel : 2 * (itemChars items).length + 2 ≤ fuel) :
    ∃ ds, scanItems fuel depth (itemChars items ++ ']' :: rest) =
        ⟨(ds, .closed rest), some rest⟩ ∧ List.Forall₂ Says ds items := by
  induction items generalizing fuel with
  | nil => exact absurd rfl hitems
  | cons j items ih =>
      -- an item takes one step, and its value another
      obtain ⟨fuel, rfl⟩ : ∃ k, fuel = k + 2 := ⟨fuel - 2, by omega⟩
      rw [List.forall_mem_cons] at hback htoken
      cases items with
      | nil =>
          rw [itemChars_singleton] at hfuel ⊢
          have hroom : 2 * j.text.toList.length ≤ fuel := by omega
          obtain ⟨d, hd, hsaid⟩ :=
            hback.1 hdepth hroom (endsValue_cons (.inr (.inl rfl)) rest)
          exact ⟨[d], scanItems_last hd, .cons hsaid .nil⟩
      | cons j' items =>
          rw [itemChars_cons_cons] at hfuel ⊢
          rw [List.length_append, List.length_cons] at hfuel
          have hroom : 2 * j.text.toList.length ≤ fuel := by omega
          have hmore : 2 * (itemChars (j' :: items)).length + 2 ≤ fuel + 1 := by omega
          obtain ⟨ds, hds, hsaid⟩ := ih (List.cons_ne_nil j' items) hback.2 htoken.2 hmore
          obtain ⟨d, hd, hfirst⟩ := hback.1 hdepth hroom (endsValue_cons (.inl rfl) _)
          refine ⟨d :: ds, ?_, .cons hfirst hsaid⟩
          rw [List.append_assoc, List.cons_append]
          exact scanItems_more hd ((startsToken_itemChars htoken.2).append _) hds

theorem exists_scanFields {fields : List (String × Json)} (rest : List Char)
    (hfields : fields ≠ []) (hback : ∀ e ∈ fields, ScansBack n e.2) (atEnd : Halt)
    (hfuel : 2 * (fieldChars fields).length + 2 ≤ fuel) :
    ∃ fs, scanFields fuel depth atEnd (fieldChars fields ++ '\x7d' :: rest) =
        ⟨(fs, .closed rest), some rest⟩ ∧ List.Forall₂ SaysField fs fields := by
  induction fields generalizing fuel atEnd with
  | nil => exact absurd rfl hfields
  | cons e fields ih =>
      obtain ⟨name, j⟩ := e
      obtain ⟨fuel, rfl⟩ : ∃ k, fuel = k + 2 := ⟨fuel - 2, by omega⟩
      rw [List.forall_mem_cons] at hback
      dsimp only at hback
      cases fields with
      | nil =>
          rw [fieldChars_singleton] at hfuel ⊢
          rw [List.length_append, List.length_cons] at hfuel
          have hroom : 2 * j.text.toList.length ≤ fuel := by omega
          obtain ⟨d, hd, hsaid⟩ :=
            hback.1 hdepth hroom (endsValue_cons (.inr (.inr rfl)) rest)
          rw [List.append_assoc, List.cons_append]
          exact ⟨_, scanFields_last name atEnd hd, .cons ⟨rfl, hsaid⟩ .nil⟩
      | cons e' fields =>
          rw [fieldChars_cons_cons] at hfuel ⊢
          simp only [List.length_append, List.length_cons] at hfuel
          have hroom : 2 * j.text.toList.length ≤ fuel := by omega
          have hmore : 2 * (fieldChars (e' :: fields)).length + 2 ≤ fuel + 1 := by omega
          obtain ⟨fs, hfs, hsaid⟩ :=
            ih (List.cons_ne_nil e' fields) hback.2 (.atFlaw .endInValue []) hmore
          obtain ⟨d, hd, hfirst⟩ := hback.1 hdepth hroom (endsValue_cons (.inl rfl) _)
          simp only [List.append_assoc, List.cons_append]
          exact ⟨_, scanFields_more name atEnd hd hfs, .cons ⟨rfl, hfirst⟩ hsaid⟩

end Parts

theorem scansBack_array {items : List Json} (hback : ∀ j ∈ items, ScansBack n j)
    (htoken : ∀ j ∈ items, StartsToken j.text.toList) : ScansBack (n + 1) (.array items) := by
  intro fuel depth rest hdepth hfuel _
  have hlength := congrArg List.length (toList_text_array items [])
  simp only [List.length_append, List.length_cons, List.length_nil] at hlength
  rw [toList_text_array]
  cases items with
  | nil =>
      exact ⟨_, scanValue_array_nil fuel (by omega) rest,
        says_array_iff.mpr ⟨_, [], rest, rfl, .nil⟩⟩
  | cons j items =>
      have hinner : depth + 1 + n ≤ maxDepth := by omega
      have hroom : 2 * (itemChars (j :: items)).length + 2 ≤ fuel := by omega
      obtain ⟨ds, hds, hsaid⟩ :=
        exists_scanItems hinner rest (List.cons_ne_nil j items) hback htoken hroom
      exact ⟨_, scanValue_array (by omega) ((startsToken_itemChars htoken).append _) hds,
        says_array_iff.mpr ⟨_, ds, rest, rfl, hsaid⟩⟩

theorem scansBack_object {fields : List (String × Json)} (hback : ∀ e ∈ fields, ScansBack n e.2) :
    ScansBack (n + 1) (.object fields) := by
  intro fuel depth rest hdepth hfuel _
  have hlength := congrArg List.length (toList_text_object fields [])
  simp only [List.length_append, List.length_cons, List.length_nil] at hlength
  rw [toList_text_object]
  cases fields with
  | nil =>
      exact ⟨_, scanValue_object_nil fuel (by omega) rest,
        says_object_iff.mpr ⟨_, [], rest, rfl, .nil⟩⟩
  | cons e fields =>
      have hinner : depth + 1 + n ≤ maxDepth := by omega
      have hroom : 2 * (fieldChars (e :: fields)).length + 2 ≤ fuel := by omega
      obtain ⟨fs, hfs, hsaid⟩ := exists_scanFields hinner rest (List.cons_ne_nil e fields) hback
        (.atFlaw .endInObject []) hroom
      obtain ⟨tail, htail⟩ := exists_fieldChars_eq e fields
      rw [htail, List.cons_append] at hfs ⊢
      exact ⟨_, scanValue_object (by omega) hfs,
        says_object_iff.mpr ⟨_, fs, rest, rfl, hsaid⟩⟩

theorem scansBack {j : Json} (h : j.Fits Number.IsLiteral n) : ScansBack n j := by
  induction h with
  | null => exact fun fuel depth rest _ _ _ => ⟨_, rfl, .scalar _ _ rfl⟩
  | bool b => cases b <;> exact fun fuel depth rest _ _ _ => ⟨_, rfl, .scalar _ _ rfl⟩
  | number hx => exact scansBack_number hx
  | string s => exact scansBack_string s
  | array hitems ih => exact scansBack_array ih fun j hj => startsToken_text (hitems j hj)
  | object _ ih => exact scansBack_object ih

/-- The text of a value that fits it says that value, and nothing follows it. -/
theorem scan_text {j : Json} (h : j.Fits Number.IsLiteral maxDepth) :
    ∃ d, scan j.text.toList = ⟨d, some []⟩ ∧ Says d j := by
  have hdepth : 0 + maxDepth ≤ maxDepth := by omega
  have hfuel : 2 * j.text.toList.length ≤ 2 * j.text.toList.length + 1 := by omega
  have hrest : Numeral.EndsValue [] := nofun
  obtain ⟨d, hd, hsaid⟩ := scansBack h hdepth hfuel hrest
  rw [List.append_nil] at hd
  exact ⟨d, hd, hsaid⟩

end Alerting.Json
