import DtoForge.Generator.Basic
import DtoForge.Text.Literal

/-! # Kotlin — data classes

One data class per object. Optional properties may be null and start as null; without null checks
every property does. -/

namespace DtoForge.Kotlin

open Source

/-- The keywords of the language. -/
def keywords : List String :=
  ["as", "break", "class", "continue", "do", "else", "false", "for", "fun", "if", "in", "interface",
    "is", "null", "object", "package", "return", "super", "this", "throw", "true", "try",
    "typealias", "typeof", "val", "var", "when", "while"]

/-- The dialect of the language. -/
def dialect : Dialect where
  textType := "String"
  numberType := "Double"
  booleanType := "Boolean"
  anyType := "Any"
  mapType := "Map<String, Any>"
  listOf item := "List<" ++ item ++ ">"
  fieldCase := .camel
  vocabulary := { reserved := keywords }

/-- A text as a literal in which nothing is interpolated. -/
def stringLiteral (s : String) : String :=
  Text.literal '"' ['$'] s

/-- A property, with its name in documents where that differs. -/
def propertyLines (w : Writer) (serializedNames : Bool) (f : Field) : Lines :=
  let nullable := !(f.required && w.on .nullChecks)
  onlyIf (serializedNames && f.renamed)
      ["    @SerializedName(" ++ stringLiteral f.wireName ++ ")"] ++
    ["    val " ++ f.name ++ ": " ++ f.type ++ partIf nullable "? = null" ++ ","]

/-- The code of a type; one without properties is a plain class. -/
def code (w : Writer) (t : TypeSource) : Lines :=
  let serializedNames := w.on .annotations && t.fields.any Field.renamed
  let package := w.options.packageName
  onlyIf package.isGiven ["package " ++ package.display, ""] ++
    onlyIf serializedNames ["import com.google.gson.annotations.SerializedName", ""] ++
    (match t.doc with
      | some doc => ["/**", " * " ++ doc, " */"]
      | none => []) ++
    (if t.fields.isEmpty then ["class " ++ t.className]
      else ["data class " ++ t.className ++ "("] ++
        t.fields.flatMap (propertyLines w serializedNames) ++ [")"])

end DtoForge.Kotlin
