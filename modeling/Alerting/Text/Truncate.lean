import Alerting.Text.Utf8
/-!
# Truncation

Texts are cut to a number of bytes of their UTF-8 form, never inside a character, and a cut text
says so at its end.
-/

namespace Alerting.Text

open Utf8

/-- The longest initial part that fits into a number of bytes. -/
def takeBytes : Nat → List Char → List Char
  | _, [] => []
  | budget, c :: cs => if c.utf8Size ≤ budget then c :: takeBytes (budget - c.utf8Size) cs else []

def truncationMark : String := "... [truncated]"

/-- The text, or as much of it as fits into a number of bytes with a mark behind it. -/
def truncate (s : String) (limit : Nat) : String :=
  if s.utf8ByteSize ≤ limit then s
  else String.ofList (takeBytes limit s.toList) ++ truncationMark

/-! ## Characters that fit -/

theorem exists_takeBytes_append (limit : Nat) (cs : List Char) :
    ∃ rest, cs = takeBytes limit cs ++ rest := by
  induction cs generalizing limit with
  | nil => exact ⟨[], rfl⟩
  | cons c cs ih =>
      rw [takeBytes]
      split
      · obtain ⟨rest, hrest⟩ := ih (limit - c.utf8Size)
        exact ⟨rest, congrArg (c :: ·) hrest⟩
      · exact ⟨c :: cs, rfl⟩

theorem byteCount_takeBytes_le (limit : Nat) (cs : List Char) :
    byteCount (takeBytes limit cs) ≤ limit := by
  induction cs generalizing limit with
  | nil => exact Nat.zero_le _
  | cons c cs ih =>
      rw [takeBytes]
      split
      · have hrest := ih (limit - c.utf8Size)
        rw [byteCount]
        omega
      · exact Nat.zero_le _

/-- No initial part that fits is longer than the one that is taken. -/
theorem le_byteCount_takeBytes {limit : Nat} {front back : List Char}
    (hfits : byteCount front ≤ limit) :
    byteCount front ≤ byteCount (takeBytes limit (front ++ back)) := by
  induction front generalizing limit with
  | nil => exact Nat.zero_le _
  | cons c front ih =>
      rw [byteCount] at hfits
      have hrest : byteCount front ≤ byteCount (takeBytes (limit - c.utf8Size) (front ++ back)) :=
        ih (by omega)
      rw [List.cons_append, takeBytes, if_pos (by omega), byteCount, byteCount]
      omega

/-- The first character that does not fit has at most four bytes. -/
theorem lt_byteCount_takeBytes_add {limit : Nat} {cs : List Char} (h : limit < byteCount cs) :
    limit < byteCount (takeBytes limit cs) + 4 := by
  induction cs generalizing limit with
  | nil => exact absurd h (Nat.not_lt_zero _)
  | cons c cs ih =>
      rw [byteCount] at h
      rw [takeBytes]
      split
      · have hrest : limit - c.utf8Size < byteCount (takeBytes (limit - c.utf8Size) cs) + 4 :=
          ih (by omega)
        rw [byteCount]
        omega
      · have hsize := c.utf8Size_le_four
        omega

end Alerting.Text
