import DtoForge.Generator.Basic
import DtoForge.Text.Literal

/-! # Dart — immutable model classes

Every class reads and writes documents: through generated code when that is asked for, otherwise
field by field. -/

namespace DtoForge.Dart

open Source

/-- Reserved words and built-in identifiers. -/
def reservedWords : List String :=
  ["assert", "break", "case", "catch", "class", "const", "continue", "default", "do", "else",
    "enum", "extends", "false", "final", "finally", "for", "if", "in", "is", "new", "null",
    "rethrow", "return", "super", "switch", "this", "throw", "true", "try", "var", "void", "while",
    "with", "abstract", "as", "covariant", "deferred", "dynamic", "export", "extension", "external",
    "factory", "Function", "get", "implements", "import", "interface", "late", "library", "mixin",
    "operator", "part", "required", "set", "static", "typedef"]

/-- Members that every object already has. -/
def objectMembers : List String :=
  ["hashCode", "runtimeType", "toString", "noSuchMethod"]

/-- The type of a document. -/
def documentType : String := "Map<String, dynamic>"

/-- The dialect of the language. -/
def dialect : Dialect where
  textType := "String"
  numberType := "double"
  booleanType := "bool"
  anyType := "dynamic"
  mapType := documentType
  listOf item := "List<" ++ item ++ ">"
  fieldCase := .camel
  vocabulary := { reserved := reservedWords, builtin := objectMembers }

/-- A text as a literal in which nothing is interpolated. -/
def stringLiteral (s : String) : String :=
  Text.literal '\'' ['$'] s

/-! ## Fields -/

/-- Whether a field may be null. -/
def isNullable (w : Writer) (f : Field) : Bool :=
  !(f.required && w.on .nullChecks)

/-- The declared type of a field; the dynamic type admits null as it is. -/
def declaredType (w : Writer) (f : Field) : String :=
  if f.type == dialect.anyType then f.type else f.type ++ partIf (isNullable w f) "?"

/-- The type of a field as a parameter that may be left out. -/
def parameterType (w : Writer) (f : Field) : String :=
  let declared := declaredType w f
  if Text.endsText "?" declared || declared == dialect.anyType then declared else declared ++ "?"

/-- The expression that turns a decoded value into the type of a field. -/
def decode (w : Writer) (expr : String) (nullable : Bool) : Schema → String
  | .leaf .string _ => expr ++ " as String" ++ partIf nullable "?"
  | .leaf .number _ =>
    let q := partIf nullable "?"
    "(" ++ expr ++ " as num" ++ q ++ ")" ++ q ++ ".toDouble()"
  | .leaf .boolean _ => expr ++ " as bool" ++ partIf nullable "?"
  | .object _ _ none => expr ++ " as " ++ documentType ++ partIf nullable "?"
  | .object _ _ (some ref) =>
    let decoded := w.typeName ref.display ++ ".fromJson(" ++ expr ++ " as " ++ documentType ++ ")"
    if nullable then expr ++ " == null ? null : " ++ decoded else decoded
  | .array items _ =>
    let q := partIf nullable "?"
    "(" ++ expr ++ " as List<dynamic>" ++ q ++ ")" ++ q ++ ".map((e) => " ++
      decode w "e" false items ++ ").toList()"
  | .leaf .null _ | .leaf .unknown _ => expr

/-- Whether a schema refers to a type that has to be turned into a document. -/
def needsEncoding : Schema → Bool
  | .array items _ => needsEncoding items
  | .object _ _ ref => ref.isSome
  | .leaf .. => false

/-- The expression that turns the value of a field into a plain document. -/
def encode (expr : String) (nullable : Bool) : Schema → String
  | .object _ _ (some _) => expr ++ partIf nullable "?" ++ ".toJson()"
  | .array items _ =>
    if needsEncoding items then
      expr ++ partIf nullable "?" ++ ".map((e) => " ++ encode "e" false items ++ ").toList()"
    else expr
  | _ => expr

/-! ## Members -/

/-- Reading and writing through generated code. -/
def generatedLines (t : TypeSource) : Lines :=
  ["  factory " ++ t.className ++ ".fromJson(Map<String, dynamic> json) =>",
    "      _$" ++ t.className ++ "FromJson(json);",
    "",
    "  Map<String, dynamic> toJson() => _$" ++ t.className ++ "ToJson(this);"]

/-- Reading and writing field by field. -/
def writtenLines (w : Writer) (t : TypeSource) : Lines :=
  let decodeLine (f : Field) : String :=
    "      " ++ f.name ++ ": " ++
      decode w ("json[" ++ stringLiteral f.wireName ++ "]") (isNullable w f) f.schema ++ ","
  let encodeLine (f : Field) : String :=
    "      " ++ stringLiteral f.wireName ++ ": " ++ encode f.name (isNullable w f) f.schema ++ ","
  ["  factory " ++ t.className ++ ".fromJson(Map<String, dynamic> json) \x7b",
    "    return " ++ t.className ++ "("] ++
    t.fields.map decodeLine ++
    ["    );", "  \x7d", "", "  Map<String, dynamic> toJson() \x7b", "    return \x7b"] ++
    t.fields.map encodeLine ++
    ["    \x7d;", "  \x7d"]

/-- A method that copies an object with some fields replaced. -/
def copyLines (w : Writer) (t : TypeSource) : Lines :=
  ["", "  " ++ t.className ++ " copyWith(\x7b"] ++
    t.fields.map (fun f => "    " ++ parameterType w f ++ " " ++ f.name ++ ",") ++
    ["  \x7d) \x7b", "    return " ++ t.className ++ "("] ++
    t.fields.map (fun f => "      " ++ f.name ++ ": " ++ f.name ++ " ?? this." ++ f.name ++ ",") ++
    ["    );", "  \x7d"]

/-- Equality and hash code over all fields. -/
def equalityLines (t : TypeSource) : Lines :=
  let comparisons := t.fields.map fun f =>
    " &&\n            other." ++ f.name ++ " == " ++ f.name
  ["", "  @override",
    "  bool operator ==(Object other) \x7b",
    "    return identical(this, other) ||",
    "        other is " ++ t.className ++ String.join comparisons ++ ";",
    "  \x7d",
    "",
    "  @override",
    "  int get hashCode => Object.hashAll([" ++
      String.intercalate ", " (t.fields.map (·.name)) ++ "]);"]

/-- A text with the name of the class and all fields. -/
def textLines (t : TypeSource) : Lines :=
  let parts := t.fields.map fun f => f.name ++ ": $" ++ f.name
  ["", "  @override",
    "  String toString() \x7b",
    "    return '" ++ t.className ++ "(" ++ String.intercalate ", " parts ++ ")';",
    "  \x7d"]

/-! ## Code -/

/-- The declaration of a field, with its key in documents where generated code needs it. -/
def fieldLines (w : Writer) (f : Field) : Lines :=
  onlyIf (w.on .jsonSerializable && w.on .annotations && f.renamed)
      ["  @JsonKey(name: " ++ stringLiteral f.wireName ++ ")"] ++
    ["  final " ++ declaredType w f ++ " " ++ f.name ++ ";"]

/-- The constructor of a class. -/
def constructorLines (w : Writer) (t : TypeSource) : Lines :=
  if t.fields.isEmpty then ["", "  const " ++ t.className ++ "();"]
  else
    ["", "  const " ++ t.className ++ "(\x7b"] ++
      t.fields.map (fun f =>
        "    " ++ partIf (!isNullable w f) "required " ++ "this." ++ f.name ++ ",") ++
      ["  \x7d);"]

/-- The code of a type. -/
def code (w : Writer) (t : TypeSource) : Lines :=
  let serializable := w.on .jsonSerializable
  onlyIf serializable ["import 'package:json_annotation/json_annotation.dart';"] ++
    t.references.map (fun (stem, _) => "import '" ++ stem.legible ++ ".dart';") ++
    onlyIf serializable ["", "part '" ++ t.stem ++ ".g.dart';"] ++
    onlyIf (serializable || !t.references.isEmpty) [""] ++
    (match t.doc with
      | some doc => ["/// " ++ doc]
      | none => []) ++
    onlyIf serializable ["@JsonSerializable()"] ++
    ["class " ++ t.className ++ " \x7b"] ++
    t.fields.flatMap (fieldLines w) ++
    constructorLines w t ++
    [""] ++
    (if serializable then generatedLines t else writtenLines w t) ++
    onlyIf (w.on .factoryMethods) (copyLines w t) ++
    onlyIf (w.on .equalsAndHash) (equalityLines t) ++
    onlyIf (w.on .toText) (textLines t) ++
    ["\x7d"]

end DtoForge.Dart
