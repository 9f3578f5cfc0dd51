import DtoForge.Options.Basic
import DtoForge.Files.Tree
import DtoForge.Json.Reader
import DtoForge.Json.Writer

/-! # Loading options — language defaults, a file, and overrides

The options for a language start from the defaults of that language. The entries of a file come
over them, and overrides over both. Custom settings are merged key by key; every other option is
replaced. -/

namespace DtoForge

/-- Why options cannot be loaded or saved. -/
inductive ConfigError where
  /-- Values are no options. -/
  | options (cause : OptionError)
  | notFound (path : String)
  | notJsonFile (path : String)
  | invalidJson (path : String) (cause : Json.ReadError)
  | unreadable (path : String) (cause : Files.Fault)
  | notObject (path : String)
  | unwritable (path : String) (cause : Files.Fault)
  /-- The bytes of a file are no text. -/
  | encoding (cause : Text.Utf8Error)
  /-- The file holds an integer with too many digits. -/
  | longInteger (digits : Nat)
  /-- Options hold a text that is torn, so no bytes stand for it. -/
  | unencodable (cause : Json.EncodeFault)
  deriving DecidableEq, Repr

/-- The wording of a refusal. -/
def ConfigError.message : ConfigError → String
  | .options cause => cause.message
  | .notFound path => "Configuration file not found: " ++ path
  | .notJsonFile path => "Configuration file must be JSON: " ++ path
  | .invalidJson path cause =>
    "Invalid JSON in configuration file " ++ path ++ ": " ++ cause.message
  | .unreadable path cause =>
    "Failed to load configuration file " ++ path ++ ": " ++ cause.message
  | .notObject path => "Configuration file must contain a JSON object: " ++ path
  | .unwritable path cause =>
    if cause.isReported then "Failed to save configuration to " ++ path ++ ": " ++ cause.message
    else cause.message
  | .encoding cause => cause.message
  | .longInteger digits => Json.longIntegerMessage digits
  | .unencodable cause => cause.message

/-- Whether a refusal belongs to the configuration and is not a plain error of a value. -/
def ConfigError.isConfiguration : ConfigError → Bool
  | .options (.shape _) | .encoding _ | .longInteger _ | .unencodable _ => false
  | .unwritable _ cause => cause.isReported
  | _ => true

namespace Options

/-- The defaults of the languages, in order. -/
def languageDefaults : List (String × Entries Json) :=
  [("typescript", []),
    ("java", [("package_name", .str "com.example.dto")]),
    ("dart", [("use_json_serializable", .bool true)]),
    ("go", [("package_name", .str "models"), ("generate_null_checks", .bool false)]),
    ("python", [("custom", .object [("style", .str "pydantic")])]),
    ("csharp", [("use_system_text_json", .bool true), ("package_name", .str "Models")]),
    ("swift", [("generate_null_checks", .bool false)]),
    ("kotlin", [("package_name", .str "com.example.dto")])]

/-- The defaults of a language; a language that is not listed has none. -/
def defaultsOf (language : String) : Entries Json :=
  (Entries.get? languageDefaults language.lowered).getD []

/-- One override over entries: custom settings are merged, everything else is replaced. -/
def overrideEntry (base : Entries Json) (key : RawText) (v : Json) :
    Except ShapeError (Entries Json) :=
  match key, v with
  | .whole "custom", .object settings =>
    match (base.get? "custom").getD (.object []) with
    | .object old => .ok (base.put "custom" (.object (Entries.update old settings)))
    | other => .error (.noMember other.kind "update")
  | key, v => .ok (base.put (if keys.contains (snakeKey key) then snakeKey key else key) v)

/-- Overrides over entries, in order. -/
def override (base overrides : Entries Json) : Except ShapeError (Entries Json) :=
  overrides.foldlM (fun acc e => overrideEntry acc e.1 e.2) base

/-- The entries of an options file. -/
def readFile (files : Files.Tree) (name : String) : Except ConfigError (Entries Json) := do
  let path := Files.Path.ofText name
  unless files.exists? path do throw (.notFound path.text)
  unless path.extension.lowered == ".json" do throw (.notJsonFile path.text)
  let text ← (files.readText path).mapError fun
    | .fault cause => .unreadable path.text cause
    | .encoding cause => .encoding cause
  let data ← (Json.read text).mapError fun
    | .misread cause => .invalidJson path.text cause
    | .longInteger digits => .longInteger digits
  match data with
  | .object es => return es
  | _ => throw (.notObject path.text)

/-- A plain error of a value, as a refusal to load options. -/
def plainError (cause : ShapeError) : ConfigError :=
  .options (.shape cause)

/-- The options for a language: its defaults, a file, and overrides. -/
def load (files : Files.Tree) (language : String) (overrides : Json := .null)
    (file : String := "") : Except ConfigError Options := do
  let base := defaultsOf language
  let base ←
    if file.isEmpty then pure base
    else (override base (← readFile files file)).mapError plainError
  let base ← match overrides.given? with
    | some v => (v.entriesFor "items" >>= override base).mapError plainError
    | none => pure base
  (ofJson (.object base)).mapError .options

/-- The tree with options saved at a path. A torn text ends the saving when the path was opened. -/
def save (files : Files.Tree) (o : Options) (name : String) : Except ConfigError Files.Tree := do
  let path := Files.Path.ofText name
  let written := files.writeText path (o.toJson.write .file)
  let files ← written.mapError (ConfigError.unwritable path.text)
  match o.toJson.fileFault? with
  | some fault => throw (.unencodable fault)
  | none => return files

end Options

end DtoForge
