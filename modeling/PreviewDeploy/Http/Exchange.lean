import PreviewDeploy.ControlPlane.Answer
import PreviewDeploy.Http.Url
import PreviewDeploy.Json.Reader
import PreviewDeploy.Text.Space

/-!
# The control plane over HTTP

A request to the control plane is sent as one HTTP message, which names the session in a header
(`Message.ofRequest`).  The answer is JSON in a body that comes with a success; `exchange` says
what comes of a request, given what becomes of its message.
-/

namespace PreviewDeploy.Http

open ControlPlane (Answer Fault)
open Json (Tree)

/-- Where the control plane is, and how to call on it. -/
structure Endpoint where
  baseUrl : String
  apiKey : Option String := none
  timeout : Duration := .ofMillis 45000
  deriving DecidableEq, Repr, Inhabited

inductive Method where
  | get
  | post
  | delete
  deriving DecidableEq, Repr, Inhabited

structure Message where
  method : Method
  url : Url
  headers : List (String × String)
  body : Option Tree

/-- Why no message can be built. -/
inductive BuildFlaw where
  /-- The text is no URL, or a header would hold a character that it may not hold. -/
  | malformed
  /-- The URL names no host, or its scheme is not HTTP. -/
  | scheme (url : Url)
  deriving DecidableEq, Repr, Inhabited

def BuildFlaw.message : BuildFlaw → String
  | malformed => "builder error"
  | scheme url => "builder error for url (" ++ url.text ++ ")"

namespace Message

/-- The characters that a header may hold. -/
def isHeaderChar (c : Char) : Bool := c = '\t' || (0x20 ≤ c.toNat && c.toNat ≠ 0x7F)

def methodOf : ControlPlane.Request → Method
  | .status _ | .logs .. => .get
  | .create _ | .write .. | .commands .. => .post
  | .clearErrors _ => .delete

/-- The path of a request below the base. -/
def pathOf : ControlPlane.Request → String
  | .status inst => "/instances/" ++ inst.text ++ "/status"
  | .create _ => "/instances"
  | .write inst .. => "/instances/" ++ inst.text ++ "/files"
  | .commands inst _ => "/instances/" ++ inst.text ++ "/commands"
  | .logs inst _ => "/instances/" ++ inst.text ++ "/logs"
  | .clearErrors inst => "/instances/" ++ inst.text ++ "/errors"

/-- What a request adds to the query. -/
def withQuery (u : Url) : ControlPlane.Request → Url
  | .logs _ clear => u.addQuery "clear" (toString clear)
  | _ => u

def bodyOf : ControlPlane.Request → Option Tree
  | .create request => some request.toTree
  | .write _ files message =>
    some (Json.Record.tree (("files", .ofList File.toTree files) ::
      (message.map fun m => ("commitMessage", Tree.ofString m)).toList))
  | .commands _ commands => some (Json.Record.tree [("commands", .ofList .ofString commands)])
  | _ => none

/-- The base without slashes at its end. -/
def trimBase (base : String) : String :=
  String.ofList (base.toList.reverse.dropWhile (· = '/')).reverse

def headersOf (e : Endpoint) (session : SessionId) (body : Option Tree) :
    List (String × String) :=
  [("x-session-id", session.text), ("accept", "application/json")] ++
    (e.apiKey.map fun key => ("authorization", "Bearer " ++ key)).toList ++
    (body.map fun _ => ("content-type", "application/json")).toList

/-- The message of a request. -/
def ofRequest (e : Endpoint) (session : SessionId) (r : ControlPlane.Request) :
    Except BuildFlaw Message :=
  match Url.parse? (trimBase e.baseUrl ++ pathOf r) with
  | none => .error .malformed
  | some url =>
    let headers := headersOf e session (bodyOf r)
    if url.host.isNone then .error (.scheme url)
    else if headers.any fun h => !h.2.toList.all isHeaderChar then .error .malformed
    else if url.scheme ≠ "http" ∧ url.scheme ≠ "https" then .error (.scheme url)
    else .ok ⟨methodOf r, withQuery url r, headers, bodyOf r⟩

end Message

/-- The answer to a message. -/
structure Response where
  status : UInt16
  body : String
  deriving DecidableEq, Repr, Inhabited

/-- Why a message has no answer. -/
inductive Loss where
  | unreachable (reason : String)
  | late
  deriving DecidableEq, Repr, Inhabited

/-- A status that means success. -/
def isSuccess (status : UInt16) : Bool := 200 ≤ status && status < 300

/-- What a response to a request tells. -/
def readResponse (r : ControlPlane.Request) (response : Response) : Except Fault Answer :=
  if !isSuccess response.status then .error (.ofStatus response.status response.body)
  else
    let text := Text.trim response.body
    if text.isEmpty || text = "null" then .error (.decode "empty response body")
    else
      match (Tree.parse text).bind (Answer.ofTree r) with
      | some answer => .ok answer
      | none => .error (.decode "no answer to the request")

/-- What comes of a request, given what becomes of its message; without time for it, nothing is
delivered. -/
def exchange (deliver : Message → Except Loss Response) (e : Endpoint) (session : SessionId)
    (r : ControlPlane.Request) : Except Fault Answer :=
  match Message.ofRequest e session r with
  | .error flaw => .error (.network flaw.message)
  | .ok message =>
    if e.timeout.nanos = 0 then .error (.timeout e.timeout)
    else
      match deliver message with
      | .error (.unreachable reason) => .error (.network reason)
      | .error .late => .error (.timeout e.timeout)
      | .ok response => readResponse r response

end PreviewDeploy.Http
