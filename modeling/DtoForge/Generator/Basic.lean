import DtoForge.Generator.Source
import DtoForge.Naming.Sanitizer
import DtoForge.Schema.Basic
import DtoForge.Target

/-! # Generators — names, types and fields in a target language

A dialect says how a language writes types and which names it takes. With the options it turns type
names into identifiers, schemas into type expressions and properties into fields. -/

namespace DtoForge

/-- How a language writes types and names. -/
structure Dialect where
  /-- The type of texts. -/
  textType : String
  /-- The type of numbers. -/
  numberType : String
  /-- The type of truth values. -/
  booleanType : String
  /-- The type of values of which nothing is known. -/
  anyType : String
  /-- The type of objects without known properties. -/
  mapType : String
  /-- The type of lists of a type. -/
  listOf : String → String
  /-- The casing of fields unless the options ask for snake case. -/
  fieldCase : Naming.Casing
  /-- Whether fields keep their casing even if the options ask for snake case. -/
  fixedCase : Bool := false
  /-- The names the language takes. -/
  vocabulary : Naming.Vocabulary := {}
  /-- Blank lines kept in a row. -/
  blankLines : Nat := 1

/-- One property of a generated type. -/
structure Field where
  /-- The name in documents, in characters. -/
  wireName : String
  /-- The name in code. -/
  name : String
  type : String
  required : Bool
  schema : Schema

/-- Whether the name in code differs from the name in documents. -/
def Field.renamed (f : Field) : Bool :=
  f.name != f.wireName

/-- A dialect with the options it is used with. -/
structure Writer where
  dialect : Dialect
  options : Options

namespace Writer

/-- Whether a feature is on. -/
def on (w : Writer) (f : Feature) : Bool :=
  w.options.enabled f

/-! ## Names -/

/-- The identifier of a type: the name in the convention of the options, between their prefix and
suffix. -/
def typeName (w : Writer) (name : String) : String :=
  let word := Naming.orElse (w.options.naming.casing.apply name) "Root"
  Naming.typeIdentifier w.dialect.vocabulary
    (w.options.namePrefix.display ++ word ++ w.options.nameSuffix.display)

/-- The identifier of the type a value names. -/
def typeNameOf (w : Writer) (name : Json) : Except ShapeError String :=
  name.matchedText.map w.typeName

/-- The casing of fields. -/
def fieldCase (w : Writer) : Naming.Casing :=
  if !w.dialect.fixedCase && w.options.naming == .snake then .snake else w.dialect.fieldCase

/-- The name of a field in code. Where fields are left as written they are not made identifiers. -/
def fieldName (w : Writer) (table : Naming.NameTable) (wireName : RawText) :
    String × Naming.NameTable :=
  match w.fieldCase with
  | .original => (wireName.legible, table)
  | casing => table.identify w.dialect.vocabulary wireName casing

/-! ## Types -/

/-- The type of a leaf. -/
def leafType (w : Writer) : Leaf → String
  | .string => w.dialect.textType
  | .number => w.dialect.numberType
  | .boolean => w.dialect.booleanType
  | .null | .unknown => w.dialect.anyType

/-- The type expression of a schema. An object is written as the type it refers to, as the type of
objects without known properties if it has none, and as the enclosing type otherwise. -/
def typeOf (w : Writer) (enclosing : String) : Schema → Except ShapeError String
  | .object ps _ ref =>
    match ref with
    | some r => w.typeNameOf r
    | none => .ok (if ps.isEmpty then w.dialect.mapType else enclosing)
  | .array items _ => (w.typeOf enclosing items).map w.dialect.listOf
  | .leaf l _ => .ok (w.leafType l)

/-- The object schema at the bottom of an array, or the schema itself. -/
def itemOf : Schema → Schema
  | .array items _ => itemOf items
  | s => s

/-- What the values of a schema refer to. -/
def refOf (s : Schema) : Option Json :=
  match itemOf s with
  | .object _ _ ref => ref
  | _ => none

/-! ## Fields -/

/-- Fields of properties, given which are required and the names in use. -/
def fieldsFrom (w : Writer) (enclosing : String) (isRequired : RawText → Bool) :
    Naming.NameTable → List (RawText × Schema) → Except ShapeError (List Field)
  | _, [] => .ok []
  | table, (key, schema) :: rest => do
    let (name, table) := w.fieldName table key
    let type ← w.typeOf enclosing schema
    let field : Field :=
      { wireName := key.legible, name, type, required := isRequired key, schema }
    return field :: (← fieldsFrom w enclosing isRequired table rest)

/-- The fields of an object schema. -/
def fields (w : Writer) (enclosing : String) (s : Schema) : Except ShapeError (List Field) :=
  match s with
  | .object ps _ _ => w.fieldsFrom enclosing s.isRequired {} ps
  | _ => .error (.noMember .null "items")

/-- Adds what a property refers to: the name of its file and of its type. A type does not refer to
itself. -/
def addReference (w : Writer) (self : Json) (refs : List (RawText × String)) (property : Schema) :
    Except ShapeError (List (RawText × String)) :=
  match refOf property with
  | none => .ok refs
  | some ref =>
    if ref == self then .ok refs
    else do
      let stem ← ref.matched
      let entry := (stem, w.typeName stem.legible)
      return if refs.contains entry then refs else refs ++ [entry]

/-- What the properties of an object refer to, each once and in order. -/
def references (w : Writer) (self : Json) : Schema → Except ShapeError (List (RawText × String))
  | .object ps _ _ => (ps.map (·.2)).foldlM (w.addReference self) []
  | _ => .error (.noMember .null "values")

/-! ## Code -/

/-- The doc comment of a type, if comments are on. -/
def docOf (w : Writer) (className : String) : Option String :=
  if w.on .comments then some (className ++ " data transfer object.") else none

/-- The final form of code. -/
def format (w : Writer) (code : String) : String :=
  Source.format w.dialect.blankLines code

end Writer

/-- Whether a schema, or the items of an array at any depth, have a kind. -/
def Schema.holds (kind : SchemaKind) : Schema → Bool
  | .array items _ => kind == .array || items.holds kind
  | s => s.kind == kind

/-- Whether any field holds a kind. -/
def Field.anyHolds (fields : List Field) (kind : SchemaKind) : Bool :=
  fields.any fun f => f.schema.holds kind

/-- A type to be written: its identifier, the name of its file, its fields and what they refer
to. -/
structure TypeSource where
  className : String
  stem : String
  doc : Option String
  fields : List Field
  references : List (RawText × String)

end DtoForge
