import Alerting.Text.PlainText
/-!
# HTML as runs of text and tags

Where no tag opens in a run of text, and none opens or ends in a tag, the HTML that is put together
from them is read as them again, whatever a reader makes of each character and each tag.
-/

namespace Alerting.Text.Markup

inductive Fragment where
  | text (run : List Char)
  /-- A tag, with what stands between its angle brackets. -/
  | tag (body : List Char)
deriving DecidableEq

namespace Fragment

/-- Whether the fragment is read as what it is: no tag opens in a text, and none opens or ends in a
tag. -/
def IsSound : Fragment → Prop
  | text run => '<' ∉ run
  | tag body => '<' ∉ body ∧ '>' ∉ body

instance : DecidablePred IsSound
  | text _ => inferInstanceAs (Decidable (_ ∉ _))
  | tag _ => inferInstanceAs (Decidable (_ ∧ _))

def html : Fragment → List Char
  | text run => run
  | tag body => '<' :: (body ++ ['>'])

end Fragment

def html (fs : List Fragment) : String :=
  String.ofList (fs.flatMap Fragment.html)

theorem html_cons (f : Fragment) (fs : List Fragment) :
    html (f :: fs) = String.ofList f.html ++ html fs :=
  String.ofList_append

theorem html_append (fs gs : List Fragment) : html (fs ++ gs) = html fs ++ html gs := by
  rw [html, List.flatMap_append, String.ofList_append]
  rfl

/-! ## Readers -/

section Reader

variable {σ : Type} (char : Char → σ → σ) (tag : List Char → σ → σ) (last : σ)

/-- What a reader makes of HTML, given what it makes of a character of a text and of a tag in front
of what it has read, and of the end. -/
def readFrom : Place → List Char → σ
  | _, [] => last
  | _, '<' :: cs => readFrom (.tag []) cs
  | .tag said, '>' :: cs => tag said.reverse (readFrom .text cs)
  | .tag said, c :: cs => readFrom (.tag (c :: said)) cs
  | .text, c :: cs => char c (readFrom .text cs)

/-- What the reader makes of a fragment in front of what it has read. -/
def Fragment.read : Fragment → σ → σ
  | .text run, r => run.foldr char r
  | .tag body, r => tag body r

variable {char tag last}

theorem readFrom_run {run : List Char} (h : '<' ∉ run) (cs : List Char) :
    readFrom char tag last .text (run ++ cs) =
      run.foldr char (readFrom char tag last .text cs) := by
  induction run with
  | nil => rfl
  | cons c run ih =>
      rw [List.mem_cons, not_or] at h
      rw [List.cons_append, readFrom, ih h.2, List.foldr_cons]
      exact fun hopen => h.1 hopen.symm

theorem readFrom_said {body : List Char} (h : '<' ∉ body ∧ '>' ∉ body) (said cs : List Char) :
    readFrom char tag last (.tag said) (body ++ '>' :: cs) =
      tag (said.reverse ++ body) (readFrom char tag last .text cs) := by
  induction body generalizing said with
  | nil => rw [List.nil_append, readFrom, List.append_nil]
  | cons c body ih =>
      simp only [List.mem_cons, not_or] at h
      rw [List.cons_append, readFrom, ih ⟨h.1.2, h.2.2⟩, List.reverse_cons, List.append_assoc,
        List.singleton_append]
      · exact Ne.symm h.1.1
      · exact Ne.symm h.2.1

theorem readFrom_fragment {f : Fragment} (h : f.IsSound) (cs : List Char) :
    readFrom char tag last .text (f.html ++ cs) =
      f.read char tag (readFrom char tag last .text cs) := by
  cases f with
  | text run => exact readFrom_run h cs
  | tag body =>
      rw [Fragment.html, List.cons_append, List.append_assoc, List.singleton_append, readFrom,
        readFrom_said h]
      rfl

theorem readFrom_html {fs : List Fragment} (h : ∀ f ∈ fs, f.IsSound) :
    readFrom char tag last .text (html fs).toList = fs.foldr (Fragment.read char tag) last := by
  rw [html, String.toList_ofList]
  induction fs with
  | nil => rw [List.flatMap_nil, readFrom, List.foldr_nil]
  | cons f fs ih =>
      obtain ⟨hf, hfs⟩ := List.forall_mem_cons.mp h
      rw [List.flatMap_cons, readFrom_fragment hf, ih hfs, List.foldr_cons]

end Reader

/-! ## Stripping tags -/

def stripChar (c : Char) (rest : Bool → List Char) (inStyle : Bool) : List Char :=
  if inStyle then rest inStyle else c :: rest inStyle

def stripTag (body : List Char) (rest : Bool → List Char) (inStyle : Bool) : List Char :=
  (if breaksLine body then ['\n'] else []) ++ rest (inStyleAfter body inStyle)

theorem strip_eq_readFrom (place : Place) (inStyle : Bool) (cs : List Char) :
    strip place inStyle cs = readFrom stripChar stripTag (fun _ => []) place cs inStyle := by
  fun_induction strip place inStyle cs with
  | case1 => rw [readFrom]
  | case2 _ _ _ ih => rw [readFrom, ih]
  | case3 inStyle cs said rest hbreaks ih =>
      rw [readFrom, stripTag, if_pos hbreaks, ← ih]
      rfl
  | case4 inStyle cs said rest hbreaks ih =>
      rw [readFrom, stripTag, if_neg hbreaks, ← ih]
      rfl
  | case5 inStyle cs said c hopen hclose ih =>
      rw [readFrom, ih]
      · exact hopen
      · exact hclose
  | case6 c cs hopen ih =>
      rw [readFrom, stripChar, if_pos rfl, ih]
      exact hopen
  | case7 inStyle c cs hopen hstyle ih =>
      rw [readFrom, stripChar, if_neg hstyle, ih]
      exact hopen

namespace Fragment

def stripped (inStyle : Bool) : Fragment → List Char
  | text run => if inStyle then [] else run
  | tag body => if breaksLine body then ['\n'] else []

def inStyleAfter (inStyle : Bool) : Fragment → Bool
  | text _ => inStyle
  | tag body => Markup.inStyleAfter body inStyle

theorem read_strip (f : Fragment) (rest : Bool → List Char) (inStyle : Bool) :
    f.read stripChar stripTag rest inStyle =
      f.stripped inStyle ++ rest (f.inStyleAfter inStyle) := by
  cases f with
  | tag body => rfl
  | text run =>
      dsimp only [Fragment.read, stripped, inStyleAfter]
      induction run with
      | nil => cases inStyle <;> rfl
      | cons c run ih =>
          rw [List.foldr_cons, stripChar, ih]
          cases inStyle <;> rfl

end Fragment

theorem strip_fragment {f : Fragment} (h : f.IsSound) (inStyle : Bool) (cs : List Char) :
    strip .text inStyle (f.html ++ cs) =
      f.stripped inStyle ++ strip .text (f.inStyleAfter inStyle) cs := by
  rw [strip_eq_readFrom, readFrom_fragment h, Fragment.read_strip, ← strip_eq_readFrom]

theorem strip_append {fs : List Fragment} (h : ∀ f ∈ fs, f.IsSound) (inStyle : Bool)
    (cs : List Char) :
    strip .text inStyle (fs.flatMap Fragment.html ++ cs) =
      strip .text inStyle (fs.flatMap Fragment.html) ++
        strip .text (fs.foldl Fragment.inStyleAfter inStyle) cs := by
  induction fs generalizing inStyle with
  | nil => rw [List.flatMap_nil, strip, List.nil_append, List.nil_append, List.foldl_nil]
  | cons f fs ih =>
      obtain ⟨hf, hfs⟩ := List.forall_mem_cons.mp h
      rw [List.flatMap_cons, List.append_assoc, strip_fragment hf, ih hfs, strip_fragment hf,
        List.foldl_cons, List.append_assoc]

end Alerting.Text.Markup
