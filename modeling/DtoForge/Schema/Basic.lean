import DtoForge.Json.Shape

/-! # Schema — the structure of a JSON value

A schema is an object with named properties, an array with one schema for its items, or a leaf.
Each may refer to an object that is generated on its own; the reference takes no part in what the
schema describes. Only objects have properties and only arrays have items, by construction. -/

namespace DtoForge

/-- The kinds of values that have no parts. -/
inductive Leaf where
  | string | number | boolean | null
  /-- Nothing is known of the value. -/
  | unknown
  deriving DecidableEq, Repr

/-- The kinds of schemas. -/
inductive SchemaKind where
  | object | array
  | leaf (leaf : Leaf)
  deriving DecidableEq, Repr

namespace SchemaKind

/-- The word for a kind. -/
def word : SchemaKind → String
  | .object => "object"
  | .array => "array"
  | .leaf .string => "string"
  | .leaf .number => "number"
  | .leaf .boolean => "boolean"
  | .leaf .null => "null"
  | .leaf .unknown => "unknown"

/-- The kinds in order. -/
def all : List SchemaKind :=
  [.object, .array, .leaf .string, .leaf .number, .leaf .boolean, .leaf .null, .leaf .unknown]

/-- The kind a value names, if it names one. -/
def ofJson? (v : Json) : Option SchemaKind :=
  all.find? fun k => v == .str k.word

/-- The kind a value has to name. -/
def ofJson (v : Json) : Except ShapeError SchemaKind :=
  match ofJson? v with
  | some k => .ok k
  | none => .error (.notMemberOf v "SchemaKind")

end SchemaKind

/-- The structure of a JSON value. Required names and references are kept as documents give them;
a reference is a value that counts as given. -/
inductive Schema where
  | object (properties : List (RawText × Schema)) (required : List Json) (ref : Option Json)
  | array (items : Schema) (ref : Option Json)
  | leaf (leaf : Leaf) (ref : Option Json)
  deriving Repr

instance : Inhabited Schema := ⟨.leaf .unknown none⟩

namespace Schema

/-- The kind of a schema. -/
def kind : Schema → SchemaKind
  | .object .. => .object
  | .array .. => .array
  | .leaf l _ => .leaf l

/-- What a schema refers to. -/
def ref : Schema → Option Json
  | .object _ _ r | .array _ r | .leaf _ r => r

/-- The properties in order; only objects have any. -/
def properties : Schema → Entries Schema
  | .object ps _ _ => ps
  | _ => []

/-- The required names of an object. -/
def required : Schema → List Json
  | .object _ required _ => required
  | _ => []

/-- Whether the schema describes an object. -/
def isObject : Schema → Bool
  | .object .. => true
  | _ => false

/-- Whether the schema describes an array. -/
def isArray : Schema → Bool
  | .array .. => true
  | _ => false

/-- Whether the schema has at least one property. -/
def hasProperties (s : Schema) : Bool :=
  !s.properties.isEmpty

/-- Whether a property is required. -/
def isRequired (s : Schema) (name : RawText) : Bool :=
  s.required.contains (.str name)

/-- The schema with another reference; one that does not count as given is none. -/
def withRef (s : Schema) (ref : Json) : Schema :=
  match s with
  | .object ps required _ => .object ps required ref.given?
  | .array items _ => .array items ref.given?
  | .leaf l _ => .leaf l ref.given?

/-! ## Building a schema from parts -/

/-- Why parts do not make a schema. -/
inductive BuildError where
  /-- Properties and objects go together. -/
  | misplacedProperties
  /-- An item schema and arrays go together. -/
  | misplacedItems
  /-- The required names are no set. -/
  | shape (cause : ShapeError)
  deriving DecidableEq, Repr

/-- The wording of a refusal. -/
def BuildError.message : BuildError → String
  | .misplacedProperties => "properties must be set exactly when kind is object"
  | .misplacedItems => "item_schema must be set exactly when kind is array"
  | .shape cause => cause.message

/-- The schema made of a kind and the parts that are given. -/
def build (kind : SchemaKind) (properties : Option (Entries Schema)) (items : Option Schema)
    (required ref : Json) : Except BuildError Schema :=
  let names := (required.elements >>= Json.setOf).mapError BuildError.shape
  match kind, properties, items with
  | .object, some ps, none => names.map fun names => .object ps names ref.given?
  | .array, none, some item => names.map fun _ => .array item ref.given?
  | .leaf l, none, none => names.map fun _ => .leaf l ref.given?
  | .object, none, _ | .array, some _, _ | .leaf _, some _, _ => .error .misplacedProperties
  | .object, some _, some _ | .array, none, none | .leaf _, none, some _ => .error .misplacedItems

end Schema

end DtoForge
