import DtoForge.Naming.Casing
import DtoForge.Options.Custom

/-! # Options — what a user can ask of the generators

Options are read from documents with keys in snake or camel case. Only the naming convention and
the object types have a fixed set of values; every other option keeps the value it was given, and a
feature is on when its value counts as given. What names no option is kept among the custom
settings. -/

namespace DtoForge

/-! ## Values with names -/

/-- The conventions for generated type names. -/
inductive NamingConvention where
  | pascal | camel | snake
  deriving DecidableEq, Repr

namespace NamingConvention

/-- The word for a convention. -/
def word : NamingConvention → String
  | .pascal => "PascalCase"
  | .camel => "camelCase"
  | .snake => "snake_case"

/-- The casing a convention asks for. -/
def casing : NamingConvention → Naming.Casing
  | .pascal => .pascal
  | .camel => .camel
  | .snake => .snake

/-- The convention a value names, in any case and with hyphens for underscores. -/
def ofJson? (v : Json) : Option NamingConvention :=
  let name := v.display.toList.map fun c => if c == '-' then '_' else c
  match String.ofList (Unicode.lower name) with
  | "pascalcase" | "pascal" => some .pascal
  | "camelcase" | "camel" => some .camel
  | "snake_case" | "snake" => some .snake
  | _ => none

end NamingConvention

/-- The roles of generated types. -/
inductive ObjectType where
  | dto | poco | bo | dao
  deriving DecidableEq, Repr

namespace ObjectType

/-- The word for a role. -/
def word : ObjectType → String
  | .dto => "dto"
  | .poco => "poco"
  | .bo => "bo"
  | .dao => "dao"

/-- The roles in order. -/
def all : List ObjectType := [.dto, .poco, .bo, .dao]

/-- The role a value names. -/
def ofJson (v : Json) : Except ShapeError ObjectType :=
  match all.find? fun t => v == .str t.word with
  | some t => .ok t
  | none => .error (.notMemberOf v "ObjectType")

end ObjectType

/-- What generators can add to or leave out of a type. -/
inductive Feature where
  | annotations | lombok | jsonSerializable | systemTextJson | validation | builders
  | factoryMethods | equalsAndHash | toText | comments | nullChecks
  deriving DecidableEq, Repr

namespace Feature

/-- The features in order. -/
def all : List Feature :=
  [.annotations, .lombok, .jsonSerializable, .systemTextJson, .validation, .builders,
    .factoryMethods, .equalsAndHash, .toText, .comments, .nullChecks]

/-- The word for a feature in capability lists. -/
def word : Feature → String
  | .annotations => "annotations"
  | .lombok => "lombok"
  | .jsonSerializable => "json_serializable"
  | .systemTextJson => "system_text_json"
  | .validation => "validation"
  | .builders => "builders"
  | .factoryMethods => "factory_methods"
  | .equalsAndHash => "equals_and_hash"
  | .toText => "to_string"
  | .comments => "comments"
  | .nullChecks => "null_checks"

/-- The option that switches a feature. -/
def key : Feature → String
  | .annotations => "use_annotations"
  | .lombok => "use_lombok"
  | .jsonSerializable => "use_json_serializable"
  | .systemTextJson => "use_system_text_json"
  | .validation => "generate_validation"
  | .builders => "generate_builders"
  | .factoryMethods => "generate_factory_methods"
  | .equalsAndHash => "generate_equals_and_hash"
  | .toText => "generate_to_string"
  | .comments => "generate_comments"
  | .nullChecks => "generate_null_checks"

/-- Annotations and null checks are on unless they are switched off. -/
def default : Feature → Bool
  | .annotations | .nullChecks => true
  | _ => false

end Feature

/-! ## Options -/

/-- Options of a generator. -/
structure Options where
  naming : NamingConvention := .pascal
  namePrefix : Json := .str ""
  nameSuffix : Json := .str ""
  setting : Feature → Json := fun f => .bool f.default
  objectTypes : List ObjectType := [.dto]
  packageName : Json := .null
  custom : CustomSettings := []

/-- Why values are no options. -/
inductive OptionError where
  /-- The value names no convention. -/
  | naming (value : Json)
  /-- A value of an options document has the wrong shape. -/
  | invalid (cause : ShapeError)
  /-- A document or a value has the wrong shape. -/
  | shape (cause : ShapeError)
  deriving DecidableEq, Repr

/-- The wording of a refusal. -/
def OptionError.message : OptionError → String
  | .naming value => "Invalid naming convention: " ++ value.display
  | .invalid cause => "Invalid generator options: " ++ cause.message
  | .shape cause => cause.message

namespace Options

/-- The keys of the options in the order in which they are written. -/
def keys : List RawText :=
  ["naming_convention", "prefix", "suffix", "use_annotations", "use_lombok",
    "use_json_serializable", "use_system_text_json", "generate_validation", "generate_builders",
    "generate_factory_methods", "generate_equals_and_hash", "generate_to_string",
    "generate_comments", "generate_null_checks", "object_types", "package_name", "custom"]

/-- Whether a feature is on. -/
def enabled (o : Options) (f : Feature) : Bool :=
  (o.setting f).isGiven

/-- A key with an underscore before each capital that follows a small letter or a digit, in lower
case. -/
def snakeKey (key : RawText) : RawText :=
  let rec breakAt (before : Option Char) : List Char → List Char
    | [] => []
    | c :: cs =>
      let starts := c.isUpper && match before with
        | some p => p.isLower || p.isDigit
        | none => false
      (if starts then ['_', c] else [c]) ++ breakAt (some c) cs
  String.ofList (Unicode.lower (breakAt none key.legible.toList))

/-- One pair of a dictionary given as a list. -/
def pairOf (position : Nat) (v : Json) : Except ShapeError (Json × Json) :=
  match v.elements with
  | .error _ => .error (.notPair position)
  | .ok [key, value] => do
    key.checkElement
    return (key, value)
  | .ok items => .error (.pairLength position items.length)

/-- The dictionary a value stands for: an object, or a list of pairs. -/
def dictionaryOf (v : Json) : Except ShapeError CustomSettings :=
  match v with
  | .object es => .ok (.ofEntries es)
  | v => do
    let items ← v.elements
    let pairs ← items.zipIdx.mapM fun (item, i) => pairOf i item
    return .ofPairs pairs

/-- The options with some of them replaced, and with the custom settings that are read last; every
key is that of an option. -/
def rebuild (o : Options) (args : Entries Json) (custom : Except OptionError CustomSettings) :
    Except OptionError Options := do
  let naming ← match args.get? "naming_convention" with
    | none => pure o.naming
    | some v => match NamingConvention.ofJson? v with
      | some n => pure n
      | none => throw (.naming v)
  let objectTypes ← match args.get? "object_types" with
    | none => pure o.objectTypes
    | some v => (v.elements >>= fun items => items.mapM ObjectType.ofJson).mapError .shape
  let custom ← custom
  return {
    naming, objectTypes, custom
    namePrefix := (args.get? "prefix").getD o.namePrefix
    nameSuffix := (args.get? "suffix").getD o.nameSuffix
    setting := fun f => (args.get? f.key).getD (o.setting f)
    packageName := (args.get? "package_name").getD o.packageName }

/-- The options with some of them replaced; every key is that of an option. -/
def replace (o : Options) (args : Entries Json) : Except OptionError Options :=
  o.rebuild args <| match args.get? "custom" with
    | none => pure o.custom
    | some v => (dictionaryOf v).mapError .shape

/-- The options with overrides; a key that is no option is refused. -/
def merged (o : Options) (overrides : Entries Json) : Except OptionError Options :=
  match overrides.keys.find? fun k => !keys.contains k with
  | some k => .error (.shape (.unknownOption k))
  | none => o.replace overrides

/-- The dictionary form of options: the entries, and the custom settings among them, whose keys need
not be texts. -/
structure Dictionary where
  entries : Entries Json
  custom : CustomSettings

/-- Sorts one entry of a dictionary: options by key, everything else among the custom settings. -/
def sortEntry (args : Entries Json) (custom : CustomSettings) (key : RawText) (v : Json) :
    Entries Json × CustomSettings :=
  if key == "custom" then (args, custom)
  else if keys.contains (snakeKey key) then (args.put (snakeKey key) v, custom)
  else (args, custom.put (.str key) v)

/-- The options of a dictionary. -/
def ofDictionary (d : Dictionary) : Except OptionError Options :=
  let (args, custom) :=
    d.entries.foldl (fun acc e => sortEntry acc.1 acc.2 e.1 e.2) ([], d.custom)
  (({} : Options).rebuild args (pure custom)).mapError fun
    | .shape cause => .invalid cause
    | e => e

/-- The options of a document. -/
def ofJson (data : Json) : Except OptionError Options := do
  let entries ← (data.entriesFor "get").mapError .shape
  let custom ← match (Json.valueOf entries "custom").given? with
    | some v => (dictionaryOf v).mapError .shape
    | none => pure []
  ofDictionary { entries, custom }

/-- The dictionary of options. -/
def toDictionary (o : Options) : Dictionary where
  entries :=
    ([("naming_convention", .str o.naming.word), ("prefix", o.namePrefix),
      ("suffix", o.nameSuffix)] : Entries Json) ++
    Feature.all.map (fun f => (.whole f.key, o.setting f)) ++
    ([("object_types", .list (o.objectTypes.map fun t => .str t.word)),
      ("package_name", o.packageName)] : Entries Json)
  custom := o.custom

/-- The document of a dictionary, with the custom settings last. -/
def Dictionary.toJson (d : Dictionary) : Json :=
  .object (d.entries ++ ([("custom", .object d.custom.toEntries)] : Entries Json))

/-- The document of options. -/
def toJson (o : Options) : Json :=
  o.toDictionary.toJson

/-- The custom setting under a key. -/
def custom? (o : Options) (key : RawText) : Option Json :=
  o.custom.get? (.str key)

end Options

end DtoForge
