import Alerting.Delivery.Error
import Alerting.Email.EncodedWord
import Alerting.Message
import Alerting.Text.PlainText
/-!
# Letters

A mail that is ready to be sent.  Its content comes in two forms: as plain text, and as HTML
together with the pictures that it shows.
-/

namespace Alerting.Email

open Delivery

structure Picture where
  contentId : String
  mediaType : MediaType
  bytes : List UInt8
deriving DecidableEq, Repr, Inhabited

structure Letter where
  sender : Mailbox
  recipients : List Mailbox
  subject : String
  html : String
  pictures : List Picture
deriving DecidableEq, Repr, Inhabited

inductive Part where
  | text (subtype : String) (content : String)
  | picture (picture : Picture)
  | multipart (subtype : String) (parts : List Part)
deriving Inhabited

mutual

def Part.toJson : Part → Json
  | .text subtype content =>
    .object [("type", .string ("text/" ++ subtype)), ("text", .string content)]
  | .picture p =>
    .object
      [("type", .string p.mediaType.text), ("bytes", .string (Text.Base64.encodeText p.bytes)),
       ("content_id", .string ("<" ++ p.contentId ++ ">")), ("disposition", .string "inline")]
  | .multipart subtype parts =>
    .object [("type", .string ("multipart/" ++ subtype)), ("parts", .array (Part.listToJson parts))]

def Part.listToJson : List Part → List Json
  | [] => []
  | p :: ps => p.toJson :: Part.listToJson ps

end

def unifyLineEnds : List Char → List Char
  | [] => []
  | '\r' :: '\n' :: cs => '\n' :: unifyLineEnds cs
  | '\r' :: cs => '\n' :: unifyLineEnds cs
  | c :: cs => c :: unifyLineEnds cs

namespace Letter

def recipient (text : String) : Except DeliveryError Mailbox :=
  (Mailbox.ofText text).mapError (.address text)

def picture (image : InlineImage) : Except DeliveryError Picture := do
  let mediaType ← (MediaType.ofText image.contentType).mapError (.contentType image.contentType)
  return ⟨image.contentId, mediaType, image.bytes⟩

def build (sender : Mailbox) (recipients : List String) (subject html : String)
    (images : List InlineImage) : Except DeliveryError Letter := do
  if recipients.isEmpty then throw .noRecipients
  let mailboxes ← recipients.mapM recipient
  let pictures ← images.mapM picture
  return ⟨sender, mailboxes, subject, html, pictures⟩

private def textPart (subtype content : String) : Part :=
  .text subtype (String.ofList (unifyLineEnds content.toList))

/-- The content of a letter as a tree of parts. -/
def body (letter : Letter) : Part :=
  .multipart "alternative"
    [textPart "plain" (Text.plainText letter.html),
     .multipart "related" (textPart "html" letter.html :: letter.pictures.map .picture)]

def shownSubject (letter : Letter) : String :=
  EncodedWord.shown letter.subject

/-- The letter as JSON, with its addresses and its subject as mail programs show them. -/
def toJson (letter : Letter) : Json :=
  .object
    [("from", .string letter.sender.shown),
     ("to", .string (", ".intercalate (letter.recipients.map (·.shown)))),
     ("subject", .string letter.shownSubject), ("body", letter.body.toJson)]

end Letter

end Alerting.Email
