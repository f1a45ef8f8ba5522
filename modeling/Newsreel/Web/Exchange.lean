import Newsreel.Fetch.Request
import Newsreel.Json.Reader
import Newsreel.Web.Address
import Newsreel.Web.Base64

/-!
Requests sent and responses taken apart.

What servers answer is a parameter: it may depend on the request and on all requests before it. A
request whose address or headers cannot be sent never reaches a server.
-/

namespace Newsreel

namespace Web

/-- An answer of a server, once redirections have been followed. -/
structure Response where
  status : Nat
  /-- Names in lower case; of headers with one name the last counts. -/
  headers : List (String × String)
  body : List UInt8

/-- What servers answer to a request, given those sent before. -/
abbrev Network := (before : List Request) → Request → Except WebFault Response

/-- A network in which no server can be reached. -/
def unreachable : Network := fun _ _ => .error .request

/-- What may stand in the value of a header. -/
def isHeaderValue (s : String) : Bool :=
  s.toList.all fun c => (32 ≤ c.toNat && c.toNat ≠ 127) || c = '\t'

/-- Whether the address and the headers of a request can be sent. -/
def isSendable (request : Request) : Bool :=
  (Address.read? request.url).isSome &&
    request.headers.all fun (name, value) => isToken name && isHeaderValue value

/-- Bytes read as UTF-8, each byte that is out of place being replaced. -/
def lenientText (bytes : List UInt8) : String :=
  match String.fromUTF8? bytes.toByteArray with
  | some text => text
  | none => String.join (bytes.map fun b =>
      if b < 128 then String.singleton (Char.ofNat b.toNat) else "\uFFFD")

namespace Response

def isSuccess (response : Response) : Bool := 200 ≤ response.status && response.status < 300

/-- The body as text; a mark of the byte order at its beginning does not count. -/
def text (response : Response) : String :=
  match (lenientText response.body).toList with
  | '\uFEFF' :: rest => String.ofList rest
  | cs => String.ofList cs

/-- The body in the given format. -/
def content (response : Response) : ResponseFormat → Except WebFault Value
  | .json => match String.fromUTF8? response.body.toByteArray with
    | none => .error .decode
    | some text => (Json.read text).mapError fun _ => .decode
  | .text => .ok (.string response.text)
  | .binary => .ok (.string (base64 response.body))

def headersValue (response : Response) : Value :=
  .object (Fields.ofList (response.headers.map fun (name, value) => (name, .string value)))

/-- What a response stands for: the content, or headers and content. Any status but success is a
failure. -/
def value (response : Response) (request : Request) : Except StepError Value :=
  if response.isSuccess then
    match response.content request.responseFormat with
    | .error fault => .error (.web fault)
    | .ok content =>
      if request.includeHeaders then
        .ok (.object [("headers", response.headersValue), ("content", content)])
      else .ok content
  else .error (.refused request.url response.status response.text)

end Response

/-- A request that was sent, and what came of it. -/
structure Exchange where
  request : Request
  answer : Except WebFault Response

/-- Some server has received the request. -/
def Exchange.isReceived (exchange : Exchange) : Bool := match exchange.answer with
  | .error .request => false
  | _ => true

/-- Requests sent and answered, in order. -/
abbrev Log := List Exchange

/-- Sends a request. -/
def send (network : Network) (request : Request) : ExceptT StepError (StateM Log) Value :=
  fun log =>
    if isSendable request then
      let answer := network (log.map (·.request)) request
      let result := match answer with
        | .error fault => .error (.web fault)
        | .ok response => response.value request
      (result, log ++ [⟨request, answer⟩])
    else (.error (.web .builder), log)

end Web

end Newsreel
