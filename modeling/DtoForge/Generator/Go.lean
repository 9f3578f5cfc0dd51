import DtoForge.Generator.Basic
import DtoForge.Unicode.Identifier

/-! # Go — structs with tags

One exported struct per object, in columns. Optional scalars and structs are pointers, and the tags
of optional fields leave out what is missing. -/

namespace DtoForge.Go

open Source

/-- The keywords of the language. -/
def keywords : List String :=
  ["break", "case", "chan", "const", "continue", "default", "defer", "else", "fallthrough", "for",
    "func", "go", "goto", "if", "import", "interface", "map", "package", "range", "return",
    "select", "struct", "switch", "type", "var"]

/-- Names the language declares before any program. -/
def predeclared : List String :=
  ["any", "bool", "byte", "error", "float32", "float64", "int", "int64", "rune", "string", "uint",
    "append", "cap", "close", "copy", "delete", "len", "make", "new", "nil", "panic", "print",
    "println", "recover", "true", "false"]

/-- The dialect of the language. Fields are exported whatever the options ask for. -/
def dialect : Dialect where
  textType := "string"
  numberType := "float64"
  booleanType := "bool"
  anyType := "interface\x7b\x7d"
  mapType := "map[string]interface\x7b\x7d"
  listOf item := "[]" ++ item
  fieldCase := .pascal
  fixedCase := true
  vocabulary := { reserved := keywords, builtin := predeclared }

/-! ## The package clause -/

/-- The package of the options, or the default one. -/
def packageName (o : Options) : Json :=
  o.packageName.given?.getD (.str "models")

/-- What stands against a name as that of a package. -/
def packageProblems (name : String) : List String :=
  if name.isEmpty then ["empty package clause"]
  else
    onlyIf (!Unicode.isIdentifier name || keywords.contains name)
        ["'" ++ name ++ "' cannot name a Go package"] ++
      onlyIf (name != name.lowered) ["package names are lowercase by convention"] ++
      onlyIf (name.toList.contains '_')
        ["package names do not use underscores by convention"] ++
      onlyIf (name == "main") ["structs in package main cannot be imported"]

/-! ## Fields -/

/-- Whether an optional value of a schema becomes a pointer; slices, maps and interfaces have a
nil of their own. -/
def isPointable : Schema → Bool
  | .leaf .string _ | .leaf .number _ | .leaf .boolean _ => true
  | .object _ _ ref => ref.isSome
  | _ => false

/-- The type of a field. -/
def fieldType (f : Field) : String :=
  partIf (!f.required && isPointable f.schema) "*" ++ f.type

/-- The name of a field inside its tag. -/
def tagName (wireName : String) : String :=
  String.ofList <| wireName.toList.flatMap fun c => if c == '\\' || c == '"' then ['\\', c] else [c]

/-- The tag of a field. -/
def tag (w : Writer) (f : Field) : String :=
  "`json:\"" ++ tagName f.wireName ++ partIf (!f.required) ",omitempty" ++ "\"" ++
    partIf (w.on .validation && f.required) " validate:\"required\"" ++ "`"

/-- The length of the longest of some texts. -/
def widest (texts : List String) : Nat :=
  texts.foldl (fun n s => max n s.length) 0

/-- The fields in columns. -/
def fieldLines (w : Writer) (fields : List Field) : Lines :=
  let names := widest (fields.map (·.name))
  let types := widest (fields.map fieldType)
  fields.map fun f =>
    "\t" ++ Text.padRight names f.name ++ " " ++ Text.padRight types (fieldType f) ++ " " ++ tag w f

/-! ## Constructors -/

/-- A parameter of a constructor with the field it sets. -/
structure Parameter where
  name : String
  field : Field

/-- The parameters for fields, given the names in use. -/
def parametersFrom (table : Naming.NameTable) : List Field → List Parameter
  | [] => []
  | f :: fs =>
    let (name, table) := table.identify dialect.vocabulary f.name .camel
    { name, field := f } :: parametersFrom table fs

/-- One parameter for each required field. -/
def parameters (fields : List Field) : List Parameter :=
  parametersFrom {} (fields.filter (·.required))

/-- The constructor of a struct. -/
def constructorLines (t : TypeSource) : Lines :=
  let ps := parameters t.fields
  let signature := String.intercalate ", " (ps.map fun p => p.name ++ " " ++ fieldType p.field)
  ["",
    "// New" ++ t.className ++ " creates a " ++ t.className ++ " from its required fields.",
    "func New" ++ t.className ++ "(" ++ signature ++ ") *" ++ t.className ++ " \x7b",
    "\treturn &" ++ t.className ++ "\x7b"] ++
    ps.map (fun p => "\t\t" ++ p.field.name ++ ": " ++ p.name ++ ",") ++
    ["\t\x7d", "\x7d"]

/-! ## Code -/

/-- The code of a type. -/
def code (w : Writer) (t : TypeSource) : Lines :=
  ["package " ++ (packageName w.options).display, ""] ++
    (match t.doc with
      | some doc => ["// " ++ doc]
      | none => []) ++
    ["type " ++ t.className ++ " struct \x7b"] ++
    fieldLines w t.fields ++
    ["\x7d"] ++
    onlyIf (w.on .factoryMethods) (constructorLines t)

end DtoForge.Go
