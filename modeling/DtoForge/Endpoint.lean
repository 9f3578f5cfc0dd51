import DtoForge.Object
import DtoForge.Json.Writer

/-! # Endpoints — mocked requests and their canned responses

An endpoint document has a `path` and may have a method, headers, a response and a request. Bodies
are JSON texts; a body given as a value is kept as the text that writes it. Endpoints and
collections without an identifier get a fresh one. -/

namespace DtoForge

/-! ## Fresh identifiers -/

/-- Computations that hand out identifiers. The count stays when a computation fails. -/
abbrev Issuing (ε : Type) := ExceptT ε (StateM Nat)

/-- The next fresh identifier. -/
def freshId {ε : Type} : Issuing ε String := do
  let n ← modifyGet fun n => (n + 1, n + 1)
  return "uuid" ++ toString n

/-! ## Endpoints -/

/-- A header line; documents may give anything for its parts. -/
structure Header where
  key : Json
  value : Json

/-- A canned response. -/
structure Response where
  status : Int := 200
  body : Json := .str ""
  contentType : Json := .str "application/json"

/-- A request with its body. -/
structure Request where
  body : Json := .null
  contentType : Json := .str "application/json"

/-- A mocked endpoint. -/
structure Endpoint where
  id : String
  path : Json
  method : String := "GET"
  description : Json := .str ""
  headers : List Header := []
  response : Response := {}
  request : Option Request := none

/-- A named collection of endpoints. -/
structure Collection where
  id : String
  name : Json
  description : Json := .str ""
  endpoints : List Endpoint := []

/-- Why a document is no endpoint. -/
inductive EndpointError where
  /-- There is no path. -/
  | missingPath
  /-- A part has the wrong shape. -/
  | shape (cause : ShapeError)
  deriving DecidableEq, Repr

namespace EndpointError

/-- The wording of a refusal. -/
def message : EndpointError → String
  | .missingPath => "Endpoint is missing 'path'"
  | .shape cause => cause.message

/-- The class of a refusal. -/
def errorClass : EndpointError → ErrorClass
  | .missingPath => .value
  | .shape cause => cause.errorClass

instance : MonadLift (Except ShapeError) (Issuing EndpointError) where
  monadLift x := ExceptT.mk (pure (x.mapError .shape))

end EndpointError

/-- A body as text: a value that is no text is written on one line, and null is no body. -/
def bodyText (v : Json) : Json :=
  match v with
  | .null | .str _ => v
  | v => .str (v.write .line)

/-- The value of a key, or a default when the key is missing. -/
def Json.valueOr (es : Entries Json) (key : RawText) (default : Json) : Json :=
  (es.get? key).getD default

namespace Endpoint

/-- The body of a role; null when there is none. -/
def bodyFor (e : Endpoint) : Role → Json
  | .response => e.response.body
  | .request => (e.request.map (·.body)).getD .null

/-- The response of an endpoint document. -/
def responseOf (es : Entries Json) : Except ShapeError Response := do
  let parts ← match (Json.valueOf es "response").given? with
    | some v => v.entriesFor "get"
    | none => pure []
  let status ← (Json.valueOr parts "status" (.int 200)).integer
  return {
    status
    body := bodyText (Json.valueOr parts "body" (.str ""))
    contentType := Json.valueOr parts "contentType" (.str "application/json") }

/-- The request of an endpoint document, if it gives one. -/
def requestOf (es : Entries Json) : Except ShapeError (Option Request) :=
  match (Json.valueOf es "request").given? with
  | none => .ok none
  | some v => do
    let parts ← v.entriesFor "get"
    return some {
      body := bodyText (Json.valueOf parts "body")
      contentType := Json.valueOr parts "contentType" (.str "application/json") }

/-- One header of an endpoint document. -/
def headerOf (v : Json) : Except ShapeError Header := do
  let parts ← v.entriesFor "get"
  return { key := Json.valueOr parts "key" (.str ""), value := Json.valueOr parts "value" (.str "") }

/-- The headers of an endpoint document. -/
def headersOf (es : Entries Json) : Except ShapeError (List Header) :=
  match (Json.valueOf es "headers").given? with
  | none => .ok []
  | some v => do (← v.elements).mapM headerOf

/-- The identifier of a document, or a fresh one. -/
def idOf {ε : Type} (es : Entries Json) : Issuing ε String :=
  match Json.valueOf es "id" with
  | .null => freshId
  | v => pure v.display

/-- The endpoint of a document. -/
def ofJson (data : Json) : Issuing EndpointError Endpoint := do
  unless ← (data.mentions "path" : Except ShapeError Bool) do throw .missingPath
  let es ← (data.entriesFor "get" : Except ShapeError (Entries Json))
  let response ← (responseOf es : Except ShapeError Response)
  let request ← (requestOf es : Except ShapeError (Option Request))
  let headers ← (headersOf es : Except ShapeError (List Header))
  let id ← idOf es
  let method ← ((Json.valueOr es "method" (.str "GET")).textFor "upper" : Except ShapeError String)
  return {
    id
    path := Json.valueOf es "path"
    method := method.uppered
    description := Json.valueOr es "description" (.str "")
    headers, response, request }

/-- The document of a header. -/
def headerJson (h : Header) : Json :=
  .object [("key", h.key), ("value", h.value)]

/-- The document of an endpoint. -/
def toJson (e : Endpoint) : Json :=
  .object (([("id", .str e.id), ("path", e.path), ("method", .str e.method),
    ("description", e.description), ("headers", .list (e.headers.map headerJson)),
    ("response", .object [("status", .int e.response.status), ("body", e.response.body),
      ("contentType", e.response.contentType)])] : Entries Json) ++
    match e.request with
    | some r => [("request", .object [("body", r.body), ("contentType", r.contentType)])]
    | none => [])

end Endpoint

namespace Collection

/-- The collection of a document. -/
def ofJson (data : Json) : Issuing EndpointError Collection := do
  let es ← (data.entriesFor "get" : Except ShapeError (Entries Json))
  let items ← match (Json.valueOf es "endpoints").given? with
    | some v => (v.elements : Except ShapeError (List Json))
    | none => pure []
  let endpoints ← items.mapM Endpoint.ofJson
  let id ← Endpoint.idOf es
  return {
    id, endpoints
    name := Json.valueOr es "name" (.str "Untitled")
    description := Json.valueOr es "description" (.str "") }

/-- A collection under a fresh identifier. -/
def fresh {ε : Type} (name : Json) (description : Json) (endpoints : List Endpoint) :
    Issuing ε Collection := do
  return { id := ← freshId, name, description, endpoints }

/-- The document of a collection. -/
def toJson (c : Collection) : Json :=
  .object [("name", c.name), ("description", c.description), ("id", .str c.id),
    ("endpoints", .list (c.endpoints.map Endpoint.toJson))]

end Collection

end DtoForge
