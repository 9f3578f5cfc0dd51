import DtoForge.Generator.Python
import DtoForge.Generator.TypeScript
import DtoForge.Generator.Java
import DtoForge.Generator.Dart
import DtoForge.Generator.Go
import DtoForge.Generator.CSharp
import DtoForge.Generator.Swift
import DtoForge.Generator.Kotlin

/-! # Generation — the code of one object

A generator is a target with options. It turns an object schema and a type name into the text of
one source file, and a preview keeps what can go wrong in its result. -/

namespace DtoForge

/-- A target with the options it is used with. -/
structure Generator where
  target : Target
  options : Options

/-- Why no code is generated. -/
inductive GenerationError where
  /-- The schema describes no object. -/
  | notObject (name : String) (kind : SchemaKind)
  /-- A name or a reference has the wrong shape. -/
  | invalid (name : String) (cause : ShapeError)
  /-- A package clause was wanted and the package is no text. -/
  | packageKind (kind : Json.Kind)
  deriving DecidableEq, Repr

namespace GenerationError

/-- Whether the refusal concerns one type, and callers answer for it. -/
def isExpected : GenerationError → Bool
  | .packageKind _ => false
  | _ => true

/-- The wording of a refusal. -/
def message : GenerationError → String
  | .notObject name kind =>
    "Failed to generate '" ++ name ++ "': expected an object schema, got " ++ kind.word
  | .invalid name cause => "Failed to generate '" ++ name ++ "': " ++ cause.message
  | .packageKind kind => (ShapeError.noMember kind "isidentifier").message

end GenerationError

/-- The dialect of a target under some options. -/
def Target.dialect (t : Target) (o : Options) : Dialect :=
  match t with
  | .typescript => TypeScript.dialect
  | .java => Java.dialect
  | .dart => Dart.dialect
  | .go => Go.dialect
  | .python => Python.dialect
  | .csharp => CSharp.dialect
  | .swift => Swift.dialect o
  | .kotlin => Kotlin.dialect

namespace Generator

/-- The writer of a generator. -/
def writer (g : Generator) : Writer where
  dialect := g.target.dialect g.options
  options := g.options

/-- The code of a type in the language of the target. -/
def codeOf (g : Generator) (t : TypeSource) : Source.Lines :=
  match g.target with
  | .typescript => TypeScript.code g.writer t
  | .java => Java.code g.writer t
  | .dart => Dart.code g.writer t
  | .go => Go.code g.writer t
  | .python => Python.code g.writer t
  | .csharp => CSharp.code g.writer t
  | .swift => Swift.code g.writer t
  | .kotlin => Kotlin.code g.writer t

/-- The package clause that every file starts with, where the language needs a text for it. -/
def packageClause? (g : Generator) : Option Json :=
  match g.target with
  | .go => some (Go.packageName g.options)
  | _ => none

/-- The records of a package clause that breaks the conventions of the language. -/
def packageRecords (g : Generator) : List LogRecord :=
  match g.packageClause? with
  | some (.str name) =>
    (Go.packageProblems name.legible).map fun problem =>
      ⟨.warning, Logger.language "go" "generator", "Package " ++ name.quoted ++ ": " ++ problem⟩
  | _ => []

/-- The code of a schema under a type name that is a text. -/
def generateNamed (g : Generator) (schema : Schema) (name : RawText) :
    Except GenerationError String := do
  let w := g.writer
  let className := w.typeName name.legible
  match g.packageClause? with
  | none | some (.str _) => pure ()
  | some v => throw (.packageKind v.kind)
  let fields ← (w.fields className schema).mapError (GenerationError.invalid name.legible)
  let references ←
    (w.references (.str name) schema).mapError (GenerationError.invalid name.legible)
  let source : TypeSource :=
    { className, stem := name.legible, doc := w.docOf className, fields, references }
  return w.format (Source.text (g.codeOf source))

/-- The code of an object schema under a type name. -/
def generate (g : Generator) (schema : Schema) (name : Json) : Except GenerationError String :=
  if schema.isObject then
    match name.matched with
    | .ok text => g.generateNamed schema text
    | .error cause => .error (.invalid name.display cause)
  else .error (.notObject name.display schema.kind)

/-- The records written while code is generated. -/
def records (g : Generator) (schema : Schema) (name : Json) : List LogRecord :=
  match schema.isObject, name with
  | true, .str _ => g.packageRecords
  | _, _ => []

/-! ## Preview -/

/-- What is told of a previewed type. -/
structure Metadata where
  language : String
  extension : String
  typeName : String
  fieldCount : Nat

/-- Code for preview, with what the target makes nothing of in the options. -/
structure Preview where
  code : String
  warnings : List String
  metadata : Metadata

/-- The preview of an object schema under a type name. -/
def preview (g : Generator) (schema : Schema) (name : Json) : Except GenerationError Preview :=
  (g.generate schema name).map fun code =>
    { code, warnings := g.target.warnings g.options
      metadata :=
        { language := g.target.key, extension := g.target.extension
          typeName := g.writer.typeName name.display, fieldCount := schema.properties.length } }

/-- The records of a preview: those of the generation, and the refusal if there is one. -/
def previewRecords (g : Generator) (schema : Schema) (name : Json) : List LogRecord :=
  g.records schema name ++
    match g.generate schema name with
    | .error e => if e.isExpected then [⟨.warning, Logger.generation, e.message⟩] else []
    | .ok _ => []

/-- The records written when a generator is made. -/
def creationRecords (g : Generator) : List LogRecord :=
  match g.target with
  | .python => Python.styleRecords g.options
  | _ => []

end Generator

end DtoForge
