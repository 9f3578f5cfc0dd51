import DtoForge.Endpoint
import DtoForge.Naming.Casing
import DtoForge.Postman.Export
import DtoForge.Postman.Placeholder
import DtoForge.Url

/-! # Import — endpoints out of exported collections

Folders are flattened: the endpoints are those of the items that hold no items themselves, in
document order. A request answers with its first successful example, or with a canned body when it
has none. -/

namespace DtoForge.Postman

/-- Why a collection cannot be imported. -/
inductive ImportError where
  | notCollection
  /-- A part has the wrong shape. -/
  | shape (cause : ShapeError)
  /-- The address of a request is no URL. -/
  | url (cause : UrlError)
  deriving DecidableEq, Repr

/-- The wording of a refusal. -/
def ImportError.message : ImportError → String
  | .notCollection => "Not a Postman collection (missing info.schema or item)"
  | .shape cause => cause.message
  | .url cause => cause.message

instance : MonadLift (Except ShapeError) (Except ImportError) where
  monadLift x := x.mapError .shape

/-! ## Paths -/

/-- A path with single slashes. -/
def normalizePath (path : String) : String :=
  Naming.orElse (String.ofList (Text.squeeze (· == '/') '/' path.toList)) "/"

/-- A path with a slash in front. -/
def rooted (path : String) : String :=
  if Text.startsText "/" path then path else "/" ++ path

/-- The path of an address that is a text. One that names a host is read as a URL. -/
def textPath (address : String) : Except ImportError String :=
  if address.isEmpty then .ok "/"
  else if Text.isSubtext "://" address then
    match Url.ofText address with
    | .ok url => .ok (rooted url.path)
    | .error cause => .error (.url cause)
  else .ok (rooted address)

/-- The path of an address: of its segments, of its raw text, or of the text it is. -/
def requestPath (address : Json) : Except ImportError String :=
  match address with
  | .object es =>
    match (Json.valueOf es "path").given? with
    | some v => do
      let segments ← (v.elements : Except ShapeError (List Json))
      return "/" ++ String.intercalate "/" (segments.map Json.display)
    | none =>
      match Json.valueOf es "raw" with
      | .str raw => textPath raw.legible
      | _ => .ok "/"
  | .str address => textPath address.legible
  | _ => .ok "/"

/-! ## Responses -/

/-- The body of a request without a successful example. -/
def cannedBody : String := "\x7b\"message\": \"OK\"\x7d"

/-- The content type among headers from the left. -/
def contentTypeFrom : List Json → Except ShapeError Json
  | [] => .ok (.str "application/json")
  | header :: rest => do
    let es ← header.entriesFor "get"
    if (Json.valueOr es "key" (.str "")).display.lowered == "content-type" then
      return ((Json.valueOf es "value").given?).getD (.str "application/json")
    else contentTypeFrom rest

/-- The content type of headers. -/
def contentType (headers : Json) : Except ShapeError Json :=
  match headers.given? with
  | some v => v.elements >>= contentTypeFrom
  | none => .ok (.str "application/json")

/-- The status of an example, if it is an integer. -/
def status? (es : Entries Json) : Option Int :=
  Json.countValue? (Json.valueOf es "code")

/-- The first successful one of some examples, with its status. -/
def successOf : List Json → Except ShapeError (Option (Int × Entries Json))
  | [] => .ok none
  | answer :: rest => do
    let es ← answer.entriesFor "get"
    match status? es with
    | some code => if 200 ≤ code && code < 300 then return some (code, es) else successOf rest
    | none => successOf rest

/-- The response of an item. -/
def responseOf (item : Entries Json) : Except ShapeError Response := do
  let examples ← match (Json.valueOf item "response").given? with
    | some v => v.elements
    | none => pure []
  match ← successOf examples with
  | none => return { body := .str cannedBody }
  | some (status, es) =>
    return {
      status
      body := ((Json.valueOf es "body").given?).getD (.str cannedBody)
      contentType := ← contentType (Json.valueOf es "header") }

/-! ## Requests -/

/-- Headers that are not disabled, with their values filled in. -/
def headersFrom (environment : Json) : List Json → Except ShapeError (List Header)
  | [] => .ok []
  | header :: rest => do
    let es ← header.entriesFor "get"
    if (Json.valueOf es "disabled").isGiven then headersFrom environment rest
    else
      let value ← replaceVariables environment (Json.valueOr es "value" (.str ""))
      let header : Header := { key := Json.valueOr es "key" (.str ""), value := .str value }
      return header :: (← headersFrom environment rest)

/-- The headers of a request. -/
def headersOf (environment : Json) (request : Entries Json) : Except ShapeError (List Header) :=
  match (Json.valueOf request "header").given? with
  | some v => v.elements >>= headersFrom environment
  | none => .ok []

/-- The body of a request, if it is given as raw text. -/
def bodyOf (request : Entries Json) : Except ShapeError (Option Request) := do
  let es ← match (Json.valueOf request "body").given? with
    | some v => v.entriesFor "get"
    | none => pure []
  match Json.valueOf es "mode", (Json.valueOf es "raw").given? with
  | .str (.whole "raw"), some raw => return some { body := raw }
  | _, _ => return none

/-- The parts of an endpoint before it gets its identifier. -/
structure Draft where
  path : String
  method : Json
  description : Json
  headers : List Header
  response : Response
  request : Option Request

/-- The draft of the endpoint of a request. -/
def draftOf (environment : Json) (item request : Entries Json) : Except ImportError Draft := do
  let response ← (responseOf item : Except ShapeError Response)
  let headers ← (headersOf environment request : Except ShapeError (List Header))
  let body ← (bodyOf request : Except ShapeError (Option Request))
  let address ← requestPath (Json.valueOf request "url")
  let path ← (replaceVariables environment (.str address) : Except ShapeError String)
  return {
    path := normalizePath path
    method := Json.valueOr request "method" (.str "GET")
    description := Json.valueOr item "name" (.str "")
    headers, response, request := body }

/-- The endpoint of a draft, under a fresh identifier. -/
def Draft.endpoint (d : Draft) : Issuing ImportError Endpoint := do
  let id ← freshId
  match d.method with
  | .str method =>
    return {
      id, path := .str d.path, method := method.legible.uppered, description := d.description
      headers := d.headers, response := d.response, request := d.request }
  | v => throw (.shape (.noMember v.kind "upper"))

/-! ## Items -/

/-- Why a value that is no object is no item. -/
def itemRefusal (v : Json) : ShapeError :=
  match v.mentions "item" with
  | .error cause => cause
  | .ok _ => .noMember v.kind "get"

mutual

/-- The leaves of an item in document order: an item without items is a leaf, and the leaves of a
folder are those of its items. What is no item is refused in its place. -/
def leaves : Json → List (Except ShapeError (Entries Json))
  | .object es => if Entries.has es "item" then leavesUnder es else [.ok es]
  | v => [.error (itemRefusal v)]

/-- The leaves under the items of a folder. -/
def leavesUnder : List (RawText × Json) → List (Except ShapeError (Entries Json))
  | [] => []
  | (key, v) :: es => if key == "item" then leavesAmong v else leavesUnder es

/-- The leaves among the elements of a value. -/
def leavesAmong : Json → List (Except ShapeError (Entries Json))
  | .list items => leavesOf items
  | v =>
    if v.isGiven then
      match v.elements with
      | .ok vs => vs.map fun v => .error (itemRefusal v)
      | .error cause => [.error cause]
    else []

/-- The leaves of several items. -/
def leavesOf : List Json → List (Except ShapeError (Entries Json))
  | [] => []
  | v :: vs => leaves v ++ leavesOf vs

end

/-- The endpoint of a leaf; a leaf whose request is no object gives none. -/
def endpointOf (environment : Json) (leaf : Except ShapeError (Entries Json)) :
    Issuing ImportError (Option Endpoint) := do
  match leaf with
  | .error cause => throw (.shape cause)
  | .ok item =>
    match Json.valueOf item "request" with
    | .object request =>
      let draft ← ExceptT.mk (pure (draftOf environment item request))
      return some (← draft.endpoint)
    | _ => return none

/-- The description of an information block; a structured one gives its content. -/
def descriptionOf (info : Entries Json) : Json :=
  match ((Json.valueOf info "description").given?).getD (.str "") with
  | .object es => Json.valueOr es "content" (.str "")
  | v => v

/-- The collection of an exported document. -/
def importCollection (data environment : Json) : Issuing ImportError Collection := do
  unless isCollection data do throw .notCollection
  let es := data.object?.getD []
  let info := (Json.valueOf es "info").object?.getD []
  let items := (Json.valueOf es "item").list?.getD []
  let endpoints ← (leavesOf items).mapM (endpointOf environment)
  Collection.fresh (Json.valueOf info "name") (descriptionOf info) (endpoints.filterMap id)

end DtoForge.Postman
