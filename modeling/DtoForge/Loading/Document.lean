import DtoForge.Files.Tree
import DtoForge.Http
import DtoForge.Json.Reader
import DtoForge.Postman.Import

/-! # Documents — JSON from a file or from the network

A document is read from a file or fetched from an address. What goes wrong is told with the place
the document was to come from. -/

namespace DtoForge

/-- Why data is no collection of endpoints. -/
inductive MalformedData where
  | endpoint (cause : EndpointError)
  | imported (cause : Postman.ImportError)
  deriving DecidableEq, Repr

/-- Why a collection cannot be loaded. -/
inductive LoadError where
  | fileNotFound (path : String)
  | invalidFile (path : String) (cause : Json.ReadError)
  | unreadable (path : String) (cause : Files.Fault)
  /-- The bytes of a file are no text. -/
  | encoding (cause : Text.Utf8Error)
  /-- The address has no scheme or no host. -/
  | incompleteUrl (url : String)
  /-- The address is no URL. -/
  | badUrl (cause : UrlError)
  | timeout (url : String)
  | status (code : Int) (url : String)
  | requestFailed (url : String) (message : String)
  /-- The request was refused, and there is no response to tell why. -/
  | noResponse
  | invalidResponse (url : String) (cause : Json.ReadError)
  /-- The document holds an integer with too many digits. -/
  | longInteger (digits : Nat)
  | malformed (cause : MalformedData)
  | unrecognized
  | notEnvironment (path : String)
  /-- There is no source, or more than one. -/
  | sourceCount
  deriving DecidableEq, Repr

namespace MalformedData

/-- The wording of a refusal. -/
def message : MalformedData → String
  | .endpoint cause => cause.message
  | .imported cause => cause.message

/-- The class of a refusal. -/
def errorClass : MalformedData → ErrorClass
  | .endpoint cause => cause.errorClass
  | .imported (.shape cause) => cause.errorClass
  | .imported _ => .value

end MalformedData

namespace LoadError

/-- The wording of a failure. -/
def message : LoadError → String
  | .fileNotFound path => "File not found: " ++ path
  | .invalidFile path cause => "Invalid JSON in file " ++ path ++ ": " ++ cause.message
  | .unreadable path cause => "Error reading file " ++ path ++ ": " ++ cause.message
  | .encoding cause => cause.message
  | .incompleteUrl url => "Invalid URL: " ++ url
  | .badUrl cause => cause.message
  | .timeout url => "Request timeout for URL: " ++ url
  | .status code url => "HTTP error " ++ toString code ++ " for URL: " ++ url
  | .requestFailed url message => "Request failed for URL " ++ url ++ ": " ++ message
  | .noResponse => (ShapeError.noMember .null "status_code").message
  | .invalidResponse url cause => "Request failed for URL " ++ url ++ ": " ++ cause.message
  | .longInteger digits => Json.longIntegerMessage digits
  | .malformed cause => "Malformed endpoint data: " ++ cause.message
  | .unrecognized =>
    "Unrecognized input: expected an endpoint collection, a list of endpoints " ++
      "or a Postman collection"
  | .notEnvironment path => "Not a Postman environment: " ++ path
  | .sourceCount => "Provide exactly one of a file path or a URL"

/-- Whether callers that load collections answer for a failure. A file whose bytes are no text, an
address that is no URL, a refused request, an integer with too many digits and a number without an
integer part are not among what they expect. -/
def isExpected : LoadError → Bool
  | .encoding _ | .badUrl _ | .noResponse | .longInteger _ => false
  | .malformed cause => cause.errorClass != .range
  | _ => true

end LoadError

namespace Loading

/-- The document of a text. What is no document is refused with a cause of its source. -/
def documentOf (invalid : Json.ReadError → LoadError) (text : String) : Except LoadError Json :=
  (Json.read text).mapError fun
    | .misread cause => invalid cause
    | .longInteger digits => .longInteger digits

/-- The document in a file. -/
def readDocument (files : Files.Tree) (name : String) : Except LoadError Json := do
  let path := Files.Path.ofText name
  unless files.exists? path do throw (.fileNotFound path.text)
  let text ← (files.readText path).mapError fun
    | .fault cause => .unreadable path.text cause
    | .encoding cause => .encoding cause
  documentOf (.invalidFile path.text) text

/-- The document in a reply. -/
def replyDocument (url : String) : Http.Reply → Except LoadError Json
  | .failure .timeout _ => .error (.timeout url)
  | .failure .refused _ => .error .noResponse
  | .failure .other message => .error (.requestFailed url message)
  | .response status body =>
    if Http.isErrorStatus status then .error (.status status url)
    else documentOf (.invalidResponse url) body

/-- The document at an address. -/
def fetchDocument (reply : Http.Reply) (url : String) : Except LoadError Json := do
  let parts ← (Url.ofText url).mapError .badUrl
  if parts.scheme.isEmpty || parts.host.isEmpty then throw (.incompleteUrl url)
  replyDocument url reply

end Loading

end DtoForge
