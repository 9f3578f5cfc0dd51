import DtoForge.Generator.Basic
import DtoForge.Text.Literal

/-! # C# — classes with properties

One class per object with automatic properties. Optional properties may be null when null checks
are on, and required ones of reference types then get a value that silences the compiler. -/

namespace DtoForge.CSharp

open Source

/-- Keywords; those that are reserved only in some contexts are valid names of members. -/
def keywords : List String :=
  ["abstract", "as", "base", "bool", "break", "byte", "case", "catch", "char", "checked", "class",
    "const", "continue", "decimal", "default", "delegate", "do", "double", "else", "enum", "event",
    "explicit", "extern", "false", "finally", "fixed", "float", "for", "foreach", "goto", "if",
    "implicit", "in", "int", "interface", "internal", "is", "lock", "long", "namespace", "new",
    "null", "object", "operator", "out", "override", "params", "private", "protected", "public",
    "readonly", "ref", "return", "sbyte", "sealed", "short", "sizeof", "stackalloc", "static",
    "string", "struct", "switch", "this", "throw", "true", "try", "typeof", "uint", "ulong",
    "unchecked", "unsafe", "ushort", "using", "virtual", "void", "volatile", "while"]

/-- Members that every object inherits. -/
def objectMembers : List String :=
  ["Equals", "GetHashCode", "GetType", "ToString"]

/-- The dialect of the language. -/
def dialect : Dialect where
  textType := "string"
  numberType := "double"
  booleanType := "bool"
  anyType := "object"
  mapType := "Dictionary<string, object>"
  listOf item := "List<" ++ item ++ ">"
  fieldCase := .pascal
  vocabulary := { reserved := keywords, builtin := objectMembers }

/-! ## Properties -/

/-- The name of a property; a member may not have the name of its class. -/
def propertyName (className : String) (f : Field) : String :=
  if f.name == className then f.name ++ "Value" else f.name

/-- Whether values of a type are never null. -/
def isValueType (type : String) : Bool :=
  type == "double" || type == "bool"

/-- The type of a property. -/
def propertyType (w : Writer) (f : Field) : String :=
  f.type ++ partIf (w.on .nullChecks && !f.required) "?"

/-- The value a property starts with. -/
def initializer (w : Writer) (f : Field) : String :=
  partIf (w.on .nullChecks && f.required && !isValueType f.type) " = default!;"

/-- The attribute that names a property in documents. -/
def nameAttribute (w : Writer) : String :=
  if w.on .systemTextJson then "JsonPropertyName" else "JsonProperty"

/-- A property with its attributes. -/
def propertyLines (w : Writer) (className : String) (f : Field) : Lines :=
  onlyIf (w.on .annotations)
      ["    [" ++ nameAttribute w ++ "(" ++ Text.doubleQuoted f.wireName ++ ")]"] ++
    onlyIf (w.on .validation && f.required) ["    [Required]"] ++
    ["    public " ++ propertyType w f ++ " " ++ propertyName className f ++ " \x7b get; set; \x7d" ++
      initializer w f]

/-- The namespaces that are used, in order. -/
def usings (w : Writer) (fields : List Field) : List String :=
  let collections := fields.any fun f =>
    Text.isSubtext "List<" f.type || Text.isSubtext "Dictionary<" f.type
  let annotated := w.on .annotations && !fields.isEmpty
  [("Newtonsoft.Json", annotated && !w.on .systemTextJson),
    ("System.Collections.Generic", collections),
    ("System.ComponentModel.DataAnnotations",
      w.on .validation && fields.any fun f => f.required),
    ("System.Text.Json.Serialization", annotated && w.on .systemTextJson)].filterMap
    fun (name, needed) => if needed then some name else none

/-! ## Code -/

/-- Groups of lines with a blank line between two neighbours. -/
def spaced : List Lines → Lines
  | [] => []
  | [g] => g
  | g :: gs => g ++ "" :: spaced gs

/-- The code of a type. -/
def code (w : Writer) (t : TypeSource) : Lines :=
  let used := usings w t.fields
  let space := w.options.packageName
  used.map (fun name => "using " ++ name ++ ";") ++
    onlyIf (!used.isEmpty) [""] ++
    onlyIf (w.on .nullChecks) ["#nullable enable", ""] ++
    onlyIf space.isGiven ["namespace " ++ space.display ++ ";", ""] ++
    (match t.doc with
      | some doc => ["/// <summary>", "/// " ++ doc, "/// </summary>"]
      | none => []) ++
    ["public class " ++ t.className, "\x7b"] ++
    spaced (t.fields.map (propertyLines w t.className)) ++
    ["\x7d"]

end DtoForge.CSharp
