import Alerting.Proofs.Text.Encoding
import Alerting.Text.Truncate
/-!
# Where texts are cut

A text is cut behind the last character that fits.  In its bytes this is a search: from the limit
it goes back to the nearest byte that starts a character, which is at most three bytes away since no
character has more than four.

* `isBoundary_encode_iff`: the byte at a position tells whether the text splits there;
* `searchBack_eq_some`: the search stops at the greatest boundary and does not pass the start;
* `truncate_cuts`: the part that is kept is the longest one that fits.
-/

namespace Alerting.Text

open Utf8

/-! ## Bytes of characters -/

def continues (b : UInt8) : Bool :=
  0x80 ≤ b && b < 0xC0

theorem continues_ofNat {n : Nat} (h : n < 256) :
    continues (.ofNat n) = decide (128 ≤ n ∧ n < 192) := by
  have hn : (UInt8.ofNat n).toNat = n := UInt8.toNat_ofNat_of_lt' h
  rw [Bool.eq_iff_iff, decide_eq_true_iff]
  unfold continues
  rw [Bool.and_eq_true, decide_eq_true_iff, decide_eq_true_iff, UInt8.le_iff_toNat_le,
    UInt8.lt_iff_toNat_lt, hn]
  rfl

/-- All bytes of a character but the first continue it. -/
theorem exists_utf8EncodeChar (c : Char) :
    ∃ first rest, String.utf8EncodeChar c = first :: rest ∧ continues first = false ∧
      ∀ b ∈ rest, continues b = true := by
  have hmax : c.val.toNat < 0x110000 := by
    have hvalid := c.valid
    simp only [UInt32.isValidChar, Nat.isValidChar] at hvalid
    omega
  have hfirst : ∀ n < 256, n < 128 ∨ 192 ≤ n → continues (.ofNat n) = false := by
    intro n hn hapart
    rw [continues_ofNat hn, decide_eq_false_iff_not]
    omega
  have hrest : ∀ n, continues (.ofNat (n % 64 + 128)) = true := by
    intro n
    rw [continues_ofNat (by omega), decide_eq_true_iff]
    omega
  unfold String.utf8EncodeChar
  generalize c.val.toNat = n at hmax
  dsimp only
  split
  · exact ⟨_, _, rfl, hfirst n (by omega) (by omega), nofun⟩
  split
  · refine ⟨_, _, rfl, hfirst _ (by omega) (by omega), ?_⟩
    simp only [List.forall_mem_cons, hrest, true_and]
    nofun
  split
  · refine ⟨_, _, rfl, hfirst _ (by omega) (by omega), ?_⟩
    simp only [List.forall_mem_cons, hrest, true_and]
    nofun
  · refine ⟨_, _, rfl, hfirst _ (by omega) (by omega), ?_⟩
    simp only [List.forall_mem_cons, hrest, true_and]
    nofun

/-! ## Boundaries -/

/-- Whether a position in the bytes of a text lies between two characters, or at an end. -/
def isBoundary (bytes : List UInt8) (position : Nat) : Bool :=
  position = 0 || match bytes[position]? with
    | some b => !continues b
    | none => position = bytes.length

theorem isBoundary_nil (n : Nat) : isBoundary [] n = decide (n = 0) := by
  simp [isBoundary]

theorem isBoundary_append {bytes rest : List UInt8} (hne : bytes ≠ [])
    (hrest : ∀ b ∈ rest.head?, continues b = false) (n : Nat) :
    isBoundary (bytes ++ rest) (bytes.length + n) = isBoundary rest n := by
  have hpos : bytes.length + n ≠ 0 := by
    have hlength := List.length_pos_iff.mpr hne
    omega
  unfold isBoundary
  rw [List.getElem?_append_right (Nat.le_add_right _ _), Nat.add_sub_cancel_left,
    decide_eq_false hpos, Bool.false_or]
  cases n with
  | zero =>
      rw [decide_eq_true rfl, Bool.true_or]
      cases rest with
      | nil => simp
      | cons b rest => simp [hrest b rfl]
  | succ n =>
      rw [decide_eq_false (Nat.succ_ne_zero n), Bool.false_or]
      cases hb : rest[n + 1]? with
      | some b => rfl
      | none => simp

theorem head?_flatMap_utf8EncodeChar (cs : List Char) :
    ∀ b ∈ (cs.flatMap String.utf8EncodeChar).head?, continues b = false := by
  cases cs with
  | nil => nofun
  | cons c cs =>
      obtain ⟨first, rest, hc, hfirst, -⟩ := exists_utf8EncodeChar c
      rw [List.flatMap_cons, hc]
      rintro _ ⟨⟩
      exact hfirst

theorem length_flatMap_utf8EncodeChar (cs : List Char) :
    (cs.flatMap String.utf8EncodeChar).length = byteCount cs := by
  induction cs with
  | nil => rfl
  | cons c cs ih =>
      rw [List.flatMap_cons, List.length_append, ih, String.length_utf8EncodeChar, byteCount]

theorem isBoundary_inside (c : Char) (bytes : List UInt8) {n : Nat} (hne : n ≠ 0)
    (hlt : n < c.utf8Size) : isBoundary (String.utf8EncodeChar c ++ bytes) n = false := by
  rw [← String.length_utf8EncodeChar] at hlt
  have hbyte : continues (String.utf8EncodeChar c)[n] = true := by
    obtain ⟨first, rest, hc, -, hrest⟩ := exists_utf8EncodeChar c
    obtain ⟨m, rfl⟩ := Nat.exists_eq_succ_of_ne_zero hne
    simp only [hc, List.getElem_cons_succ]
    exact hrest _ (List.getElem_mem _)
  unfold isBoundary
  rw [List.getElem?_append_left hlt, List.getElem?_eq_getElem hlt]
  dsimp only
  rw [hbyte, decide_eq_false hne]
  rfl

theorem isBoundary_flatMap_iff {cs : List Char} {n : Nat} :
    isBoundary (cs.flatMap String.utf8EncodeChar) n = true ↔
      ∃ front back, cs = front ++ back ∧ byteCount front = n := by
  induction cs generalizing n with
  | nil =>
      rw [List.flatMap_nil, isBoundary_nil, decide_eq_true_iff]
      constructor
      · rintro rfl
        exact ⟨[], [], rfl, rfl⟩
      · rintro ⟨front, back, hsplit, rfl⟩
        rw [(List.append_eq_nil_iff.mp hsplit.symm).1, byteCount]
  | cons c cs ih =>
      rw [List.flatMap_cons]
      by_cases hne : n = 0
      · subst hne
        exact iff_of_true rfl ⟨[], c :: cs, rfl, rfl⟩
      -- a longer front has the first character, and the split is one of the others
      have hfront : (∃ front back, c :: cs = front ++ back ∧ byteCount front = n) ↔
          c.utf8Size ≤ n ∧
            ∃ front back, cs = front ++ back ∧ byteCount front = n - c.utf8Size := by
        constructor
        · rintro ⟨front, back, hsplit, rfl⟩
          rcases List.cons_eq_append_iff.mp hsplit with ⟨rfl, -⟩ | ⟨tail, rfl, hcs⟩
          · exact absurd rfl hne
          · exact ⟨Nat.le_add_right _ _, tail, back, hcs, (Nat.add_sub_cancel_left _ _).symm⟩
        · rintro ⟨hle, front, back, rfl, hcount⟩
          exact ⟨c :: front, back, rfl, by rw [byteCount, hcount, Nat.add_sub_cancel' hle]⟩
      rw [hfront]
      rcases Nat.lt_or_ge n c.utf8Size with hlt | hle
      · rw [isBoundary_inside c _ hne hlt]
        exact iff_of_false Bool.false_ne_true fun h => Nat.not_le_of_lt hlt h.1
      · have hbytes : String.utf8EncodeChar c ≠ [] := by
          obtain ⟨first, rest, hc, -, -⟩ := exists_utf8EncodeChar c
          rw [hc]
          exact List.cons_ne_nil _ _
        obtain ⟨m, rfl⟩ := Nat.exists_eq_add_of_le hle
        have hmove := isBoundary_append hbytes (head?_flatMap_utf8EncodeChar cs) m
        rw [String.length_utf8EncodeChar] at hmove
        rw [hmove, ih, Nat.add_sub_cancel_left]
        exact (and_iff_right hle).symm

theorem length_encode (s : String) : (encode s).length = s.utf8ByteSize := by
  rw [encode_eq]
  rfl

theorem byteCount_toList (s : String) : byteCount s.toList = s.utf8ByteSize := by
  rw [← length_flatMap_utf8EncodeChar, ← encode_ofList, String.ofList_toList, length_encode]

/-- The byte at a position tells whether a text is split there into two texts. -/
theorem isBoundary_encode_iff {s : String} {n : Nat} :
    isBoundary (encode s) n = true ↔
      ∃ front back : String, s = front ++ back ∧ front.utf8ByteSize = n := by
  have hchars : isBoundary (s.toList.flatMap String.utf8EncodeChar) n = true ↔ _ :=
    isBoundary_flatMap_iff
  rw [← encode_ofList, String.ofList_toList] at hchars
  rw [hchars]
  constructor
  · rintro ⟨front, back, hsplit, hcount⟩
    refine ⟨.ofList front, .ofList back, ?_, ?_⟩
    · rw [← String.ofList_append, ← hsplit, String.ofList_toList]
    · rw [← byteCount_toList, String.toList_ofList, hcount]
  · rintro ⟨front, back, rfl, hsize⟩
    exact ⟨front.toList, back.toList, String.toList_append, by rw [byteCount_toList, hsize]⟩

/-! ## Searching and cutting -/

/-- Goes back from a position to a boundary; there is no result if it would pass the start. -/
def searchBack (bytes : List UInt8) : Nat → Option Nat
  | 0 => if isBoundary bytes 0 then some 0 else none
  | n + 1 => if isBoundary bytes (n + 1) then some (n + 1) else searchBack bytes n

theorem searchBack_eq_some {bytes : List UInt8} {cut limit : Nat} (hle : cut ≤ limit)
    (hcut : isBoundary bytes cut = true)
    (hmax : ∀ n ≤ limit, isBoundary bytes n = true → n ≤ cut) :
    searchBack bytes limit = some cut := by
  induction limit with
  | zero =>
      obtain rfl := Nat.le_zero.mp hle
      exact if_pos hcut
  | succ limit ih =>
      rw [searchBack]
      split
      · next hhere =>
        rw [Nat.le_antisymm hle (hmax _ (Nat.le_refl _) hhere)]
      · next hhere =>
        have hne : cut ≠ limit + 1 := fun heq => hhere (heq ▸ hcut)
        exact ih (by omega) fun n hn => hmax n (by omega)

/-- The text cut in its bytes.  There is no result if the search for the place passes the start, or
if the bytes before that place are no text. -/
def cutBytes? (s : String) (limit : Nat) : Option String :=
  if (encode s).length ≤ limit then some s
  else do
    let cut ← searchBack (encode s) limit
    let kept ← (decode ((encode s).take cut)).toOption
    return kept ++ truncationMark

theorem decode_take_encode (front back : String) :
    decode ((encode (front ++ back)).take front.utf8ByteSize) = .ok front := by
  rw [encode_append, ← length_encode, List.take_left, decode_encode]

theorem exists_kept {s : String} {limit : Nat} (h : limit < s.utf8ByteSize) :
    ∃ kept rest : String, s = kept ++ rest ∧ truncate s limit = kept ++ truncationMark ∧
      kept.utf8ByteSize ≤ limit ∧ limit < kept.utf8ByteSize + 4 ∧
      ∀ front back : String, s = front ++ back → front.utf8ByteSize ≤ limit →
        front.utf8ByteSize ≤ kept.utf8ByteSize := by
  obtain ⟨rest, hrest⟩ := exists_takeBytes_append limit s.toList
  have hsize : (String.ofList (takeBytes limit s.toList)).utf8ByteSize =
      byteCount (takeBytes limit s.toList) := by
    rw [← byteCount_toList, String.toList_ofList]
  refine ⟨.ofList (takeBytes limit s.toList), .ofList rest, ?_, ?_, ?_, ?_, ?_⟩
  · rw [← String.ofList_append, ← hrest, String.ofList_toList]
  · exact if_neg (Nat.not_le_of_lt h)
  · rw [hsize]
    exact byteCount_takeBytes_le limit s.toList
  · rw [← byteCount_toList] at h
    rw [hsize]
    exact lt_byteCount_takeBytes_add h
  · rintro front back rfl hfits
    rw [← byteCount_toList] at hfits
    rw [hsize, String.toList_append, ← byteCount_toList]
    exact le_byteCount_takeBytes hfits

theorem searchBack_encode {s kept rest : String} {limit : Nat} (hsplit : s = kept ++ rest)
    (hle : kept.utf8ByteSize ≤ limit)
    (hmax : ∀ front back : String, s = front ++ back → front.utf8ByteSize ≤ limit →
      front.utf8ByteSize ≤ kept.utf8ByteSize) :
    searchBack (encode s) limit = some kept.utf8ByteSize := by
  refine searchBack_eq_some hle (isBoundary_encode_iff.mpr ⟨kept, rest, hsplit, rfl⟩) ?_
  intro n hn hboundary
  obtain ⟨front, back, hfront, rfl⟩ := isBoundary_encode_iff.mp hboundary
  exact hmax front back hfront hn

/-- A text within the limit stays as it is.  Of any other the longest initial part that fits is
kept, with a mark behind it.  Going back byte by byte from the limit one finds its end after three
steps at most, without passing the start, and what stands before that place is a text. -/
theorem truncate_cuts (s : String) (limit : Nat) :
    cutBytes? s limit = some (truncate s limit) ∧
      (s.utf8ByteSize ≤ limit → truncate s limit = s) ∧
      (limit < s.utf8ByteSize → ∃ kept rest : String, s = kept ++ rest ∧
        truncate s limit = kept ++ truncationMark ∧ kept.utf8ByteSize ≤ limit ∧
        (∀ front back : String, s = front ++ back → front.utf8ByteSize ≤ limit →
          front.utf8ByteSize ≤ kept.utf8ByteSize) ∧
        searchBack (encode s) limit = some kept.utf8ByteSize ∧
        limit ≤ kept.utf8ByteSize + 3) := by
  have hshort : s.utf8ByteSize ≤ limit → truncate s limit = s := fun hfits => if_pos hfits
  unfold cutBytes?
  rw [length_encode]
  rcases Nat.lt_or_ge limit s.utf8ByteSize with hlong | hfits
  · obtain ⟨kept, rest, hsplit, htruncate, hle, hnear, hmax⟩ := exists_kept hlong
    have hsearch := searchBack_encode hsplit hle hmax
    refine ⟨?_, hshort, fun _ =>
      ⟨kept, rest, hsplit, htruncate, hle, hmax, hsearch, Nat.le_of_lt_succ hnear⟩⟩
    rw [if_neg (Nat.not_le_of_lt hlong), hsearch, htruncate, hsplit]
    simp only [Option.bind_eq_bind, Option.bind_some, decode_take_encode]
    rfl
  · refine ⟨?_, hshort, fun hlong => absurd hfits (Nat.not_le_of_lt hlong)⟩
    rw [if_pos hfits, hshort hfits]

theorem truncate_cuts_accents :
    truncate "short" 10 = "short" ∧
      ∃ kept rest : String, "ééé" = kept ++ rest ∧
        truncate "ééé" 3 = kept ++ truncationMark ∧ kept.utf8ByteSize ≤ 3 ∧
        (∀ front back : String, "ééé" = front ++ back → front.utf8ByteSize ≤ 3 →
          front.utf8ByteSize ≤ kept.utf8ByteSize) ∧
        searchBack (encode "ééé") 3 = some kept.utf8ByteSize ∧ 3 ≤ kept.utf8ByteSize + 3 :=
  ⟨(truncate_cuts "short" 10).2.1 (by decide), (truncate_cuts "ééé" 3).2.2 (by decide)⟩

/-- A first character that is too long leaves nothing but the mark. -/
example : truncate "€uro" 2 = "... [truncated]" := by decide

end Alerting.Text
