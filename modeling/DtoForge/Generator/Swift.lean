import DtoForge.Generator.Basic
import DtoForge.Text.Literal

/-! # Swift — codable structs

One struct per object, with an enumeration of coding keys when some property is named otherwise in
documents. -/

namespace DtoForge.Swift

open Source

/-- Keywords that cannot be names of properties as they stand. -/
def keywords : List String :=
  ["associatedtype", "class", "deinit", "enum", "extension", "fileprivate", "func", "import",
    "init", "inout", "internal", "let", "open", "operator", "private", "protocol", "public",
    "rethrows", "static", "struct", "subscript", "typealias", "var", "break", "case", "continue",
    "default", "defer", "do", "else", "fallthrough", "for", "guard", "if", "in", "repeat", "return",
    "switch", "where", "while", "as", "Any", "catch", "false", "is", "nil", "self", "Self", "super",
    "throw", "throws", "true", "try"]

/-- The vocabulary; a struct that describes itself has a member for that. -/
def vocabulary (describes : Bool) : Naming.Vocabulary where
  reserved := keywords
  builtin := if describes then ["description"] else []

/-- The dialect of the language under some options. -/
def dialect (o : Options) : Dialect where
  textType := "String"
  numberType := "Double"
  booleanType := "Bool"
  anyType := "Any"
  mapType := "[String: Any]"
  listOf item := "[" ++ item ++ "]"
  fieldCase := .camel
  vocabulary := vocabulary (o.enabled .toText)

/-- The protocols a struct conforms to. -/
def conformances (w : Writer) : List String :=
  ["Codable"] ++ onlyIf (w.on .equalsAndHash) ["Hashable"] ++
    onlyIf (w.on .toText) ["CustomStringConvertible"]

/-- The names of the properties in documents. -/
def codingKeyLines (t : TypeSource) : Lines :=
  ["", "    enum CodingKeys: String, CodingKey \x7b"] ++
    t.fields.map (fun f =>
      "        case " ++ f.name ++ partIf f.renamed (" = " ++ Text.doubleQuoted f.wireName)) ++
    ["    \x7d"]

/-- A text with the name of the struct and all properties. -/
def descriptionLines (t : TypeSource) : Lines :=
  let parts := t.fields.map fun f => f.name ++ ": \\(String(describing: " ++ f.name ++ "))"
  ["", "    var description: String \x7b",
    "        \"" ++ t.className ++ "(" ++ String.intercalate ", " parts ++ ")\"",
    "    \x7d"]

/-- The code of a type. -/
def code (w : Writer) (t : TypeSource) : Lines :=
  ["import Foundation", ""] ++
    (match t.doc with
      | some doc => ["/// " ++ doc]
      | none => []) ++
    ["struct " ++ t.className ++ ": " ++ String.intercalate ", " (conformances w) ++ " \x7b"] ++
    t.fields.map (fun f =>
      "    let " ++ f.name ++ ": " ++ f.type ++ partIf (!f.required) "?") ++
    onlyIf (w.on .annotations && t.fields.any Field.renamed) (codingKeyLines t) ++
    onlyIf (w.on .toText) (descriptionLines t) ++
    ["\x7d"]

end DtoForge.Swift
