import DtoForge.Generator.Basic
import DtoForge.Text.Literal
import DtoForge.Log
import DtoForge.Unicode.Identifier

/-! # Python — models, data classes and typed dictionaries

The custom settings choose among three styles. Fields are in snake case, and a field whose name
differs from the name in documents keeps that name as its alias. -/

namespace DtoForge.Python

open Source

/-! ## Words -/

/-- The keywords of the language. -/
def keywords : List String :=
  ["False", "None", "True", "and", "as", "assert", "async", "await", "break", "class", "continue",
    "def", "del", "elif", "else", "except", "finally", "for", "from", "global", "if", "import",
    "in", "is", "lambda", "nonlocal", "not", "or", "pass", "raise", "return", "try", "while",
    "with", "yield"]

/-- Attributes that the base classes of models already have. -/
def modelAttributes : List String :=
  ["model_config", "model_fields", "model_dump", "model_validate", "construct", "copy", "dict",
    "json", "schema", "from_dict"]

/-- The dialect of the language. -/
def dialect : Dialect where
  textType := "str"
  numberType := "float"
  booleanType := "bool"
  anyType := "Any"
  mapType := "Dict[str, Any]"
  listOf item := "List[" ++ item ++ "]"
  fieldCase := .snake
  vocabulary := { reserved := keywords, builtin := modelAttributes }
  blankLines := 2

/-! ## Settings -/

/-- The styles of generated types. -/
inductive Style where
  | dataclass | pydantic | typeddict
  deriving DecidableEq, Repr

namespace Style

/-- The word for a style. -/
def word : Style → String
  | .dataclass => "dataclass"
  | .pydantic => "pydantic"
  | .typeddict => "typeddict"

/-- The name under which lists show the layout of a style. -/
def layoutName (s : Style) : String :=
  s.word ++ ".py.j2"

/-- The style a value names, in any case. -/
def ofJson? (v : Json) : Option Style :=
  match v.display.lowered with
  | "dataclass" => some .dataclass
  | "pydantic" => some .pydantic
  | "typeddict" => some .typeddict
  | _ => none

end Style

/-- What the custom settings choose. -/
structure Settings where
  style : Style
  frozen : Bool
  extraForbid : Bool

/-- The style setting; pydantic models are the default. -/
def styleSetting (o : Options) : Json :=
  (o.custom? "style").getD (.str "pydantic")

/-- The settings of options; an unknown style stands for the default. -/
def Settings.of (o : Options) : Settings where
  style := (Style.ofJson? (styleSetting o)).getD .pydantic
  frozen := ((o.custom? "dataclass_frozen").getD .null).isGiven
  extraForbid := ((o.custom? "pydantic_extra_forbid").getD .null).isGiven

/-- The record of an unknown style. -/
def styleRecords (o : Options) : List LogRecord :=
  match Style.ofJson? (styleSetting o) with
  | some _ => []
  | none =>
    [⟨.warning, Logger.language "python" "config",
      "Unknown Python style " ++ (styleSetting o).shown ++ ", using pydantic"⟩]

/-! ## Decoding -/

/-- Whether a schema refers to a type that has to be built from a document. -/
def needsDecoding : Schema → Bool
  | .array items _ => needsDecoding items
  | .object _ _ ref => ref.isSome
  | .leaf .. => false

/-- The expression that builds a value from its document. -/
def decode (w : Writer) (expr : String) (isOptional : Bool) : Schema → String
  | .object _ _ (some ref) =>
    let decoded := w.typeName ref.display ++ ".from_dict(" ++ expr ++ ")"
    decoded ++ partIf isOptional (" if " ++ expr ++ " is not None else None")
  | .array items _ =>
    if needsDecoding items then
      let decoded := "[" ++ decode w "item" false items ++ " for item in " ++ expr ++ "]"
      decoded ++ partIf isOptional (" if " ++ expr ++ " is not None else None")
    else expr
  | _ => expr

/-- The expression that builds a field from the document of its object. -/
def fieldDecoder (w : Writer) (f : Field) : String :=
  let key := Text.quoted f.wireName
  let access := if f.required then "data[" ++ key ++ "]" else "data.get(" ++ key ++ ")"
  decode w access (!f.required) f.schema

/-! ## Types of fields -/

/-- The type of a field that may be missing. -/
def optionalType (w : Writer) (f : Field) : String :=
  if !f.required && w.on .nullChecks then "Optional[" ++ f.type ++ "]" else f.type

/-- The type of a field in a class. -/
def classType (w : Writer) (f : Field) : String :=
  if f.required then f.type else optionalType w f

/-- The type of a field in a typed dictionary. -/
def dictionaryType (w : Writer) (f : Field) : String :=
  if f.required then f.type else "NotRequired[" ++ optionalType w f ++ "]"

/-! ## Imports -/

/-- Whether a name stands in a type as a word of its own. -/
def usesName (name type : String) : Bool :=
  let rec words (current : List Char) : List Char → List (List Char)
    | [] => [current.reverse]
    | c :: cs => if Naming.isWordChar c then words (c :: current) cs else current.reverse :: words [] cs
  (words [] type.toList).contains name.toList

/-- The names to import from the typing module, in order. -/
def typingNames (w : Writer) (style : Style) (fields : List Field) : List String :=
  let used (name : String) := fields.any fun f => usesName name f.type
  let someOptional := fields.any fun f => !f.required
  let factory := style != .typeddict && w.on .factoryMethods
  [("Any", used "Any" || factory), ("Dict", used "Dict" || factory), ("List", used "List"),
    ("NotRequired", style == .typeddict && someOptional),
    ("Optional", w.on .nullChecks && someOptional), ("TypedDict", style == .typeddict)].filterMap
    fun (name, needed) => if needed then some name else none

/-- The import lines for what a type uses. -/
def importLines (w : Writer) (settings : Settings) (useAlias : Bool) (fields : List Field) : Lines :=
  let typing := typingNames w settings.style fields
  let modelNames := "BaseModel" ::
    ((if useAlias || settings.extraForbid then ["ConfigDict"] else []) ++
      if useAlias then ["Field"] else [])
  onlyIf (settings.style == .dataclass)
      ["from dataclasses import dataclass" ++ partIf useAlias ", field"] ++
    onlyIf (!typing.isEmpty) ["from typing import " ++ String.intercalate ", " typing] ++
    onlyIf (settings.style == .pydantic)
      ["from pydantic import " ++ String.intercalate ", " modelNames]

/-- The import lines for the types a type refers to, after a blank line. -/
def referenceLines (t : TypeSource) : Lines :=
  onlyIf (!t.references.isEmpty)
    ("" :: t.references.map fun (stem, name) => "from ." ++ stem.legible ++ " import " ++ name)

/-! ## Code -/

/-- The doc string of a class, with a blank line after it. -/
def docLines (t : TypeSource) : Lines :=
  match t.doc with
  | some doc => ["    \"\"\"" ++ doc ++ "\"\"\"", ""]
  | none => []

/-- One field of a class. A renamed field gets its alias by a call. -/
def fieldLine (w : Writer) (useAlias : Bool) (call aliasOpen aliasClose : String) (f : Field) :
    String :=
  let declared := "    " ++ f.name ++ ": " ++ classType w f
  if useAlias && f.renamed then
    declared ++ " = " ++ call ++ "(" ++ partIf (!f.required) "default=None, " ++ aliasOpen ++
      Text.doubleQuoted f.wireName ++ aliasClose ++ ")"
  else declared ++ partIf (!f.required) " = None"

/-- A class method that builds an object from a document. -/
def factoryLines (t : TypeSource) (body : Lines) : Lines :=
  ["", "    @classmethod",
    "    def from_dict(cls, data: Dict[str, Any]) -> " ++ t.className ++ ":"] ++ body

/-- A data class. -/
def dataclassLines (w : Writer) (settings : Settings) (useAlias : Bool) (t : TypeSource) : Lines :=
  let factory := w.on .factoryMethods
  ["", "", "@dataclass" ++ partIf settings.frozen "(frozen=True)", "class " ++ t.className ++ ":"] ++
    docLines t ++
    t.fields.map (fieldLine w useAlias "field" "metadata=\x7b\"json\": " "\x7d") ++
    onlyIf (t.fields.isEmpty && t.doc.isNone && !factory) ["    pass"] ++
    onlyIf factory (factoryLines t
      (["        return cls("] ++
        t.fields.map (fun f => "            " ++ f.name ++ "=" ++ fieldDecoder w f ++ ",") ++
        ["        )"]))

/-- A pydantic model. -/
def modelLines (w : Writer) (settings : Settings) (useAlias : Bool) (t : TypeSource) : Lines :=
  let factory := w.on .factoryMethods
  let configured := useAlias || settings.extraForbid
  ["", "", "class " ++ t.className ++ "(BaseModel):"] ++
    docLines t ++
    onlyIf configured
      ["    model_config = ConfigDict(" ++ partIf useAlias "populate_by_name=True" ++
        partIf (useAlias && settings.extraForbid) ", " ++
        partIf settings.extraForbid "extra=\"forbid\"" ++ ")", ""] ++
    t.fields.map (fieldLine w useAlias "Field" "alias=" "") ++
    onlyIf (t.fields.isEmpty && t.doc.isNone && !configured && !factory) ["    pass"] ++
    onlyIf factory (factoryLines t ["        return cls.model_validate(data)"])

/-- Whether a name can be written as the name of a class member. -/
def isMemberName (name : String) : Bool :=
  Unicode.isIdentifier name && !keywords.contains name

/-- A typed dictionary, written as a call when some name cannot be that of a class member. -/
def dictionaryLines (w : Writer) (functional : Bool) (t : TypeSource) : Lines :=
  if functional then
    [""] ++
      (match t.doc with
        | some doc => ["# " ++ doc]
        | none => []) ++
      [t.className ++ " = TypedDict(", "    " ++ Text.doubleQuoted t.className ++ ",", "    \x7b"] ++
      t.fields.map (fun f =>
        "        " ++ Text.doubleQuoted f.wireName ++ ": " ++ dictionaryType w f ++ ",") ++
      ["    \x7d,", ")"]
  else
    ["", "", "class " ++ t.className ++ "(TypedDict):"] ++
      docLines t ++
      t.fields.map (fun f => "    " ++ f.wireName ++ ": " ++ dictionaryType w f) ++
      onlyIf (t.fields.isEmpty && t.doc.isNone) ["    pass"]

/-- The code of a type. In a data class the fields without default come first. -/
def code (w : Writer) (source : TypeSource) : Lines :=
  let settings := Settings.of w.options
  let useAlias := w.on .annotations && source.fields.any Field.renamed
  let fields :=
    if settings.style == .dataclass then
      source.fields.filter (·.required) ++ source.fields.filter (!·.required)
    else source.fields
  let t := { source with fields }
  let imports := importLines w settings useAlias fields ++ referenceLines t
  let future := ["from __future__ import annotations", ""]
  match settings.style with
  | .dataclass => future ++ imports ++ dataclassLines w settings useAlias t
  | .pydantic => future ++ imports ++ modelLines w settings useAlias t
  | .typeddict =>
    let functional := !fields.all fun f => isMemberName f.wireName
    onlyIf (!functional) future ++ imports ++ dictionaryLines w functional t

end DtoForge.Python
