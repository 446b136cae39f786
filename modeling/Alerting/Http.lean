import Alerting.Dialogue
import Alerting.Json.Value
import Alerting.Text.Utf8
/-!
# HTTP

Requests to services and what comes back.
-/

namespace Alerting.Http

inductive Method where
  | get
  | post
deriving DecidableEq, Repr, Inhabited

structure Request where
  method : Method
  url : String
  /-- The token that shows who asks. -/
  bearer : Option String := none
  body : Option Json := none
deriving BEq, Inhabited

structure Response where
  status : Nat
  contentType : Option String
  body : List UInt8
deriving DecidableEq, Repr, Inhabited

/-- What comes back, or why nothing does. -/
abbrev Reply := Except String Response

abbrev Fetching := Dialogue Request fun _ => Reply

namespace Response

def isSuccess (r : Response) : Bool :=
  200 ≤ r.status && r.status < 300

def text (r : Response) : String :=
  Text.Utf8.decodeLossy r.body

end Response

end Alerting.Http
