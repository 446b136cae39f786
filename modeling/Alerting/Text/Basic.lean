/-!
# Texts

White space, letter case, words in texts, and texts between quotation marks as they are shown to
whoever looks after the program.

The characters that are white space are those with the Unicode property White_Space; the ranges are
those of Unicode 15 and have not changed since Unicode 6.3.  Lower case goes as far as words of the
letters `a` to `z` can tell: besides the capital letters only the Kelvin sign has such a letter as
its lower case, and every other character stays as it is, which no comparison with such a word can
notice.
-/

namespace Alerting.Text

/-! ## White space -/

/-- Closed ranges of code points, ascending and apart. -/
def blankRanges : List (Nat × Nat) :=
  [(0x09, 0x0D), (0x20, 0x20), (0x85, 0x85), (0xA0, 0xA0), (0x1680, 0x1680), (0x2000, 0x200A),
   (0x2028, 0x2029), (0x202F, 0x202F), (0x205F, 0x205F), (0x3000, 0x3000)]

def isBlank (c : Char) : Bool :=
  blankRanges.any fun range => range.1 ≤ c.toNat && c.toNat ≤ range.2

def dropBlank (cs : List Char) : List Char :=
  cs.dropWhile isBlank

def trimChars (cs : List Char) : List Char :=
  (dropBlank (dropBlank cs).reverse).reverse

def trim (s : String) : String :=
  String.ofList (trimChars s.toList)

theorem dropBlank_of_head {cs : List Char} (h : ∀ c ∈ cs.head?, isBlank c = false) :
    dropBlank cs = cs := by
  cases cs with
  | nil => rfl
  | cons c cs => rw [dropBlank, List.dropWhile_cons_of_neg (by rw [h c rfl]; decide)]

theorem isBlank_head_dropBlank (cs : List Char) :
    ∀ c ∈ (dropBlank cs).head?, isBlank c = false := by
  intro c hc
  have hhead := List.head?_dropWhile_not isBlank cs
  rw [dropBlank] at hc
  rw [hc] at hhead
  exact hhead

theorem trimChars_trimChars (cs : List Char) : trimChars (trimChars cs) = trimChars cs := by
  have hhead : ∀ c ∈ (trimChars cs).head?, isBlank c = false := by
    intro c hc
    obtain ⟨tail, htail⟩ : ∃ tail, trimChars cs = c :: tail := List.head?_eq_some_iff.mp hc
    -- what is left at the end starts as the text without leading white space does
    obtain ⟨dropped, hdropped⟩ : trimChars cs <+: dropBlank cs := by
      rw [← List.reverse_suffix, trimChars, List.reverse_reverse]
      exact List.dropWhile_suffix _
    rw [htail] at hdropped
    refine isBlank_head_dropBlank cs c ?_
    rw [← hdropped]
    rfl
  have hlast : dropBlank (trimChars cs).reverse = (trimChars cs).reverse := by
    refine dropBlank_of_head ?_
    rw [trimChars, List.reverse_reverse]
    exact isBlank_head_dropBlank _
  rw [trimChars.eq_def (trimChars cs), dropBlank_of_head hhead, hlast, List.reverse_reverse]

theorem trim_trim (s : String) : trim (trim s) = trim s := by
  unfold trim
  rw [String.toList_ofList, trimChars_trimChars]

def isBlankText (s : String) : Bool :=
  s.toList.all isBlank

/-- The words of a text: its maximal runs of characters that are not white space. -/
def words (cs : List Char) : List (List Char) :=
  cs.splitBy (fun a b => isBlank a == isBlank b) |>.filter fun run => !run.any isBlank

/-! ## Letter case -/

/-- The lower case letter of a capital letter or of the Kelvin sign. -/
def lowerChar (c : Char) : Char :=
  if c = '\u212a' then 'k' else c.toLower

def lower (s : String) : String :=
  s.map lowerChar

/-! ## Searching -/

def mentions (word : List Char) : List Char → Bool
  | [] => word.isEmpty
  | c :: cs => word.isPrefixOf (c :: cs) || mentions word cs

/-- Replaces every occurrence of a word, from the left; the first argument counts the characters of
an occurrence that are still to be passed over. -/
def replaceFrom (word replacement : List Char) : Nat → List Char → List Char
  | _, [] => []
  | passed + 1, _ :: cs => replaceFrom word replacement passed cs
  | 0, c :: cs =>
    if word.isPrefixOf (c :: cs) then
      replacement ++ replaceFrom word replacement (word.length - 1) cs
    else c :: replaceFrom word replacement 0 cs

def replaceAll (word replacement : String) (cs : List Char) : List Char :=
  replaceFrom word.toList replacement.toList 0 cs

/-! ## Quotation marks -/

/-- Characters that cannot be seen or that change their neighbours: controls, blanks other than the
space, format characters, combining marks, variation selectors and private characters. -/
def invisibleRanges : List (Nat × Nat) :=
  [(0x00, 0x1F), (0x7F, 0xA0), (0xAD, 0xAD), (0x300, 0x36F), (0x483, 0x489), (0x591, 0x5BD),
   (0x600, 0x605), (0x61C, 0x61C), (0x64B, 0x65F), (0x1680, 0x1680), (0x180E, 0x180E),
   (0x1AB0, 0x1ACE), (0x1DC0, 0x1DFF), (0x2000, 0x200F), (0x2028, 0x202F), (0x205F, 0x206F),
   (0x20D0, 0x20F0), (0x3000, 0x3000), (0xE000, 0xF8FF), (0xFE00, 0xFE0F), (0xFE20, 0xFE2F),
   (0xFEFF, 0xFEFF), (0xFFF0, 0xFFFB), (0xFFFE, 0xFFFF), (0xE0000, 0x10FFFF)]

def isInvisible (c : Char) : Bool :=
  invisibleRanges.any fun range => range.1 ≤ c.toNat && c.toNat ≤ range.2

def quoteChar (c : Char) : List Char :=
  match c with
  | '"' => ['\\', '"']
  | '\\' => ['\\', '\\']
  | '\n' => ['\\', 'n']
  | '\r' => ['\\', 'r']
  | '\t' => ['\\', 't']
  | '\x00' => ['\\', '0']
  | c =>
    if isInvisible c then ['\\', 'u', '{'] ++ Nat.toDigits 16 c.toNat ++ ['}'] else [c]

def quoted (s : String) : String :=
  String.ofList ('"' :: s.toList.flatMap quoteChar ++ ['"'])

end Alerting.Text
