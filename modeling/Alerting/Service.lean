import Alerting.Http
import Alerting.Message
import Alerting.Text.Truncate
/-!
# Services

The query engine and the service that takes pictures of widgets are reached over HTTP.
-/

namespace Alerting.Service

open Http

def post (url : String) (body : Json) : Fetching Reply :=
  .put { method := .post, url := url, body := some body }

/-- The response of a service that did what it was asked.  Of what it says to a request that it
refuses, so many bytes are shown. -/
def accept (service url : String) (shown : Nat) : Reply → Except Failure Response
  | .error reason => .error ((Failure.ofMessage reason).within ("POST " ++ url))
  | .ok r =>
    if r.isSuccess then .ok r
    else .error <| .ofMessage <|
      service ++ " returned " ++ toString r.status ++ ": " ++ Text.truncate r.text shown

/-! ## The query engine -/

def withoutSlashes (url : String) : String :=
  String.ofList (url.toList.reverse.dropWhile (· = '/')).reverse

def queryTarget : Query.Request → String × Json
  | .aggregate a => ("aggregate", a.toJson)
  | .pivot p => ("pivot", p.toJson)

def readTable (url : String) (r : Response) : Query.Answer :=
  let table : Option Query.Result := do
    let text ← (Text.Utf8.decode r.body).toOption
    (Json.Reader.ofText Query.Result.reader text).toOption
  match table with
  | some table => .ok table
  | none => .error ⟨"decoding response of " ++ url, ["error decoding response body"]⟩

def query (base : String) (request : Query.Request) : Fetching Query.Answer := do
  let (path, body) := queryTarget request
  let url := withoutSlashes base ++ "/" ++ path
  return (accept "query engine" url 500 (← post url body)).bind (readTable url)

/-! ## Pictures of widgets -/

def captureBody (widget : Rule.WidgetRef) (shot : Shot) : Json :=
  .ofFields
    [("widgetId", .string widget.widgetId), ("dashboardId", .ofString? widget.dashboardId),
     ("publicId", .ofString? widget.publicId), ("width", .int shot.width),
     ("height", .int shot.height),
     ("theme", .string shot.theme)]

def readPicture (r : Response) : Except Failure (List UInt8) :=
  if r.body.isEmpty then .error (.ofMessage "renderer returned an empty image") else .ok r.body

def capture (url : String) (widget : Rule.WidgetRef) (shot : Shot) :
    Fetching (Except Failure (List UInt8)) :=
  if widget.dashboardId.isNone && widget.publicId.isNone then
    return .error <| .ofMessage <|
      "widget " ++ widget.widgetId ++ " has neither a dashboard nor a public id"
  else do
    return (accept "renderer" url 300 (← post url (captureBody widget shot))).bind readPicture

end Alerting.Service
