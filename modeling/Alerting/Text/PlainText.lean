import Alerting.Text.Basic
/-!
# Plain text and HTML

Text that is put into markup has the five characters that mean something there written as entities.
The plain text of markup is what a mail reader without HTML shows: tags and style sheets are
dropped, some tags break the line, the common entities are decoded, and white space is normalised.
-/

namespace Alerting.Text

/-! ## Escaping -/

def escapeHtmlChar (c : Char) : List Char :=
  match c with
  | '&' => "&amp;".toList
  | '<' => "&lt;".toList
  | '>' => "&gt;".toList
  | '"' => "&quot;".toList
  | '\'' => "&#39;".toList
  | c => [c]

def escapeHtml (s : String) : String :=
  String.ofList (s.toList.flatMap escapeHtmlChar)

/-! ## Plain text -/

inductive Markup.Place where
  | text
  /-- Inside a tag, with what it has said so far in reverse order. -/
  | tag (said : List Char)
deriving DecidableEq, Repr

namespace Markup

/-- The name of a tag in lower case: its first word, without the slashes in front. -/
def tagName (tag : List Char) : List Char :=
  let lowered := (tag.dropWhile (· = '/')).map lowerChar
  (dropBlank lowered).takeWhile (!isBlank ·)

def breaksLine (tag : List Char) : Bool :=
  ["br", "p", "div", "li", "tr", "h1", "h2", "h3"].contains (String.ofList (tagName tag))

def inStyleAfter (tag : List Char) (inStyle : Bool) : Bool :=
  if tagName tag = "style".toList then tag.head? != some '/' else inStyle

/-- The text outside tags and style sheets, with line breaks at the tags that ask for them. -/
def strip : Place → Bool → List Char → List Char
  | _, _, [] => []
  | _, inStyle, '<' :: cs => strip (.tag []) inStyle cs
  | .tag said, inStyle, '>' :: cs =>
    let rest := strip .text (inStyleAfter said.reverse inStyle) cs
    if breaksLine said.reverse then '\n' :: rest else rest
  | .tag said, inStyle, c :: cs => strip (.tag (c :: said)) inStyle cs
  | .text, inStyle, c :: cs =>
    if inStyle then strip .text inStyle cs else c :: strip .text inStyle cs

def entities : List (String × String) :=
  [("&nbsp;", " "), ("&middot;", "·"), ("&copy;", "©"), ("&lt;", "<"), ("&gt;", ">"),
   ("&quot;", "\""), ("&#39;", "'"), ("&amp;", "&")]

end Markup

/-- The text with its entities decoded, one kind after the other. -/
def decodeEntities (cs : List Char) : List Char :=
  Markup.entities.foldl (fun cs entity => replaceAll entity.1 entity.2 cs) cs

/-- The text with single spaces inside its lines and without blank lines. -/
def normalizeSpace (cs : List Char) : String :=
  let lines := (cs.splitOn '\n').map fun line =>
    String.ofList ([' '].intercalate (words line))
  "\n".intercalate (lines.filter (· ≠ ""))

def plainText (html : String) : String :=
  normalizeSpace (decodeEntities (Markup.strip .text false html.toList))

end Alerting.Text
