import Alerting.Template
import Alerting.Text.Basic
import Alerting.Text.PlainText
/-!
# The frame of mails

Every mail is put into a page with a header, a footer and a style sheet.  The page can be
configured; a page without a place for the content is not used.
-/

namespace Alerting.Email

open Text

/-! ## The built-in page -/

def styleRules : List (String × String) :=
  [("body",
    "margin: 0; padding: 0; background: #f4f5f7; color: #1f2933; "
      ++ "font-family: -apple-system, \"Segoe UI\", Roboto, Helvetica, Arial, "
      ++ "sans-serif;"),
   (".wrapper", "width: 100%; padding: 24px 0;"),
   (".container",
    "max-width: 640px; margin: 0 auto; background: #ffffff; "
      ++ "border-radius: 8px; overflow: hidden;"),
   (".header", "padding: 16px 24px; background: #1f2933; color: #ffffff;"),
   (".header .brand",
    "font-size: 18px; font-weight: 600; vertical-align: middle; "
      ++ "margin-left: 8px;"),
   (".brand-logo", "vertical-align: middle;"),
   (".content", "padding: 24px; font-size: 15px; line-height: 1.5;"),
   (".vigil-cards", "margin-top: 16px;"),
   (".vigil-card",
    "padding: 12px 16px; margin-bottom: 8px; border: 1px solid "
      ++ "#e4e7eb; border-radius: 6px;"),
   (".vigil-card-matched", "border-left: 4px solid #d64545;"),
   (".vigil-card-children", "margin: 8px 0 0; padding-left: 20px; color: #52606d;"),
   (".vigil-table", "border-collapse: collapse; width: 100%;"),
   (".vigil-table th, .vigil-table td",
    "border: 1px solid #e4e7eb; padding: 6px 8px; text-align: left;"),
   (".vigil-kpi",
    "padding: 16px; border-radius: 6px; background: #f0f4f8; "
      ++ "text-align: center;"),
   (".vigil-kpi .label", "font-size: 13px; color: #52606d;"),
   (".vigil-kpi .value", "font-size: 28px; font-weight: 700;"),
   (".footer", "padding: 16px 24px; font-size: 12px; color: #7b8794; text-align: center;")]

def darkStyleRules : List (String × String) :=
  [("body", "background: #111418; color: #e4e7eb;"),
   (".container", "background: #1c2128;"),
   (".header", "background: #0b0d10;"),
   (".vigil-card, .vigil-table th, .vigil-table td", "border-color: #323f4b;"),
   (".vigil-card-children", "color: #9aa5b1;"),
   (".vigil-kpi", "background: #252c35;"),
   (".vigil-kpi .label, .footer", "color: #9aa5b1;")]

def styleLine (indent : String) (rule : String × String) : String :=
  indent ++ rule.1 ++ " \x7b " ++ rule.2 ++ " \x7d"

def pageLines : List String :=
  ["<!DOCTYPE html>", "<html lang=\"en\">", "<head>", "<meta charset=\"utf-8\">",
   "<meta name=\"viewport\" content=\"width=device-width, initial-scale=1\">",
   "<meta name=\"color-scheme\" content=\"light dark\">",
   "<meta name=\"supported-color-schemes\" content=\"light dark\">",
   "<title>" ++ Template.slot "brand_name" ++ "</title>", "<style>"]
    ++ styleRules.map (styleLine "  ")
    ++ ["  @media (prefers-color-scheme: dark) \x7b"]
    ++ darkStyleRules.map (styleLine "    ")
    ++ ["  \x7d", "</style>", "</head>", "<body>", "<div class=\"wrapper\">",
        "  <div class=\"container\">",
        "    <div class=\"header\">" ++ Template.slot "logo" ++ "<span class=\"brand\">"
          ++ Template.slot "brand_name" ++ "</span></div>",
        "    <div class=\"content\">", Template.slot "content", "    </div>",
        "    <div class=\"footer\">" ++ Template.slot "footer" ++ " &middot; &copy; "
          ++ Template.slot "year" ++ "</div>",
        "  </div>", "</div>", "</body>", "</html>"]

def page : String :=
  String.join (pageLines.map (· ++ "\n"))

/-! ## Branding -/

/-- What the frame shows of the sender. -/
structure Branding where
  brandName : String
  /-- The address of the logo. -/
  logoSource : Option String
  footerText : Option String
  baseTemplate : Option String
deriving DecidableEq, Repr, Inhabited

namespace Branding

def defaultName : String := "Vigil"

def nameHtml (b : Branding) : String :=
  if isBlankText b.brandName then defaultName else escapeHtml b.brandName

def logoHtml (b : Branding) : String :=
  match b.logoSource with
  | none => ""
  | some source =>
    "<img src=\"" ++ escapeHtml source ++ "\" alt=\"" ++ b.nameHtml
      ++ "\" class=\"brand-logo\" height=\"32\">"

def footerHtml (b : Branding) : String :=
  match b.footerText with
  | some text => escapeHtml text
  | none => "Sent by " ++ b.nameHtml

/-- The spellings of the place for the content that a configured page is searched for. -/
def contentSlots : List String :=
  [Template.slot "content", Template.slot " content "]

def hasContentSlot (page : String) : Bool :=
  contentSlots.any fun slot => mentions slot.toList page.toList

def page (b : Branding) : String :=
  (b.baseTemplate.filter hasContentSlot).getD Email.page

def tokens (b : Branding) (year : Int) (content : String) : Tokens :=
  .ofList
    [("brand_name", b.nameHtml), ("logo", b.logoHtml), ("footer", b.footerHtml),
     ("year", toString year), ("content", content)]

def wrap (b : Branding) (year : Int) (content : String) : String :=
  Template.fill b.page (b.tokens year content)

end Branding

end Alerting.Email
