import DtoForge.Generator.Basic
import DtoForge.Text.Literal

/-! # Java — classes with annotations

One class per object. Lombok takes the place of written accessors, builders and value methods when
it is on. -/

namespace DtoForge.Java

open Source

/-- Keywords, and literals that cannot be identifiers. -/
def reservedWords : List String :=
  ["abstract", "assert", "boolean", "break", "byte", "case", "catch", "char", "class", "const",
    "continue", "default", "do", "double", "else", "enum", "extends", "final", "finally", "float",
    "for", "goto", "if", "implements", "import", "instanceof", "int", "interface", "long", "native",
    "new", "package", "private", "protected", "public", "return", "short", "static", "strictfp",
    "super", "switch", "synchronized", "this", "throw", "throws", "transient", "try", "void",
    "volatile", "while", "true", "false", "null", "var", "record", "yield"]

/-- The dialect of the language. -/
def dialect : Dialect where
  textType := "String"
  numberType := "Double"
  booleanType := "Boolean"
  anyType := "Object"
  mapType := "Map<String, Object>"
  listOf item := "List<" ++ item ++ ">"
  fieldCase := .camel
  vocabulary := { reserved := reservedWords }

/-! ## Accessors and imports -/

/-- The word after `get` and `set` in the accessors of a field; `getClass` belongs to every
object. -/
def accessorWord (name : String) : String :=
  let word := Naming.orElse (Naming.pascal name) "Value"
  if word == "Class" then "ClassValue" else word

/-- Classes to import, those of the standard library first, each group in order. -/
def importNames (w : Writer) (fields : List Field) : List String :=
  let lombok := w.on .lombok
  let candidates : List (String × Bool) :=
    [("java.util.List", Field.anyHolds fields .array),
      ("java.util.Map", fields.any fun f => Text.isSubtext dialect.mapType f.type),
      ("java.util.Objects", !lombok && w.on .equalsAndHash),
      ("com.fasterxml.jackson.annotation.JsonIgnoreProperties", w.on .annotations),
      ("com.fasterxml.jackson.annotation.JsonProperty", w.on .annotations && !fields.isEmpty),
      ("jakarta.annotation.Nullable", w.on .nullChecks && fields.any fun f => !f.required),
      ("jakarta.validation.constraints.NotNull",
        w.on .validation && fields.any fun f => f.required),
      ("lombok.AllArgsConstructor", lombok),
      ("lombok.Builder", lombok && w.on .builders),
      ("lombok.Data", lombok),
      ("lombok.NoArgsConstructor", lombok)]
  candidates.filterMap fun (name, needed) => if needed then some name else none

/-! ## Members -/

/-- The declaration of a field with its annotations, after a blank line. -/
def fieldLines (w : Writer) (f : Field) : Lines :=
  [""] ++
    onlyIf (w.on .annotations) ["    @JsonProperty(" ++ Text.doubleQuoted f.wireName ++ ")"] ++
    onlyIf (w.on .validation && f.required) ["    @NotNull"] ++
    onlyIf (w.on .nullChecks && !f.required) ["    @Nullable"] ++
    ["    private " ++ f.type ++ " " ++ f.name ++ ";"]

/-- The getter and the setter of a field. -/
def accessorLines (f : Field) : Lines :=
  let word := accessorWord f.name
  ["", "    public " ++ f.type ++ " get" ++ word ++ "() \x7b",
    "        return " ++ f.name ++ ";",
    "    \x7d",
    "",
    "    public void set" ++ word ++ "(" ++ f.type ++ " " ++ f.name ++ ") \x7b",
    "        this." ++ f.name ++ " = " ++ f.name ++ ";",
    "    \x7d"]

/-- The constructors a builder needs. -/
def constructorLines (t : TypeSource) : Lines :=
  ["", "    public " ++ t.className ++ "() \x7b", "    \x7d",
    "", "    private " ++ t.className ++ "(Builder builder) \x7b"] ++
    t.fields.map (fun f => "        this." ++ f.name ++ " = builder." ++ f.name ++ ";") ++
    ["    \x7d"]

/-- A static method that makes an object from all its fields. -/
def factoryLines (t : TypeSource) : Lines :=
  let parameters := String.intercalate ", " (t.fields.map fun f => f.type ++ " " ++ f.name)
  ["", "    public static " ++ t.className ++ " of(" ++ parameters ++ ") \x7b",
    "        " ++ t.className ++ " instance = new " ++ t.className ++ "();"] ++
    t.fields.map (fun f => "        instance." ++ f.name ++ " = " ++ f.name ++ ";") ++
    ["        return instance;", "    \x7d"]

/-- The builder class and the method that starts it. -/
def builderLines (t : TypeSource) : Lines :=
  ["", "    public static Builder builder() \x7b",
    "        return new Builder();",
    "    \x7d",
    "",
    "    public static class Builder \x7b"] ++
    t.fields.map (fun f => "        private " ++ f.type ++ " " ++ f.name ++ ";") ++
    t.fields.flatMap (fun f =>
      ["", "        public Builder " ++ f.name ++ "(" ++ f.type ++ " " ++ f.name ++ ") \x7b",
        "            this." ++ f.name ++ " = " ++ f.name ++ ";",
        "            return this;",
        "        \x7d"]) ++
    ["",
      "        public " ++ t.className ++ " build() \x7b",
      "            return new " ++ t.className ++ "(this);",
      "        \x7d",
      "    \x7d"]

/-- Equality and hash code over all fields. -/
def equalityLines (t : TypeSource) : Lines :=
  let comparisons := t.fields.map fun f => "Objects.equals(" ++ f.name ++ ", that." ++ f.name ++ ")"
  ["", "    @Override",
    "    public boolean equals(Object o) \x7b",
    "        if (this == o) \x7b",
    "            return true;",
    "        \x7d",
    "        if (o == null || getClass() != o.getClass()) \x7b",
    "            return false;",
    "        \x7d"] ++
    (if t.fields.isEmpty then ["        return true;"]
      else ["        " ++ t.className ++ " that = (" ++ t.className ++ ") o;",
        "        return " ++ String.intercalate "\n            && " comparisons ++ ";"]) ++
    ["    \x7d",
      "",
      "    @Override",
      "    public int hashCode() \x7b",
      "        return Objects.hash(" ++ String.intercalate ", " (t.fields.map (·.name)) ++ ");",
      "    \x7d"]

/-- A text with the name of the class and all fields. -/
def textLines (t : TypeSource) : Lines :=
  let part (separator : String) (f : Field) : String :=
    "            + \"" ++ separator ++ f.name ++ "=\" + " ++ f.name
  let parts := match t.fields with
    | [] => []
    | f :: fs => part "" f :: fs.map (part ", ")
  ["", "    @Override",
    "    public String toString() \x7b",
    "        return \"" ++ t.className ++ "\x7b\""] ++
    parts ++
    ["            + \"\x7d\";", "    \x7d"]

/-! ## Code -/

/-- The code of a type. -/
def code (w : Writer) (t : TypeSource) : Lines :=
  let lombok := w.on .lombok
  let imports := importNames w t.fields
  let package := w.options.packageName
  onlyIf package.isGiven ["package " ++ package.display ++ ";", ""] ++
    imports.map (fun name => "import " ++ name ++ ";") ++
    onlyIf (!imports.isEmpty) [""] ++
    (match t.doc with
      | some doc => ["/**", " * " ++ doc, " */"]
      | none => []) ++
    onlyIf (w.on .annotations) ["@JsonIgnoreProperties(ignoreUnknown = true)"] ++
    onlyIf lombok (["@Data"] ++ onlyIf (w.on .builders) ["@Builder"] ++
      ["@NoArgsConstructor", "@AllArgsConstructor"]) ++
    ["public class " ++ t.className ++ " \x7b"] ++
    t.fields.flatMap (fieldLines w) ++
    onlyIf (!lombok) (onlyIf (w.on .builders) (constructorLines t) ++
      t.fields.flatMap accessorLines) ++
    onlyIf (w.on .factoryMethods) (factoryLines t) ++
    onlyIf (w.on .builders && !lombok) (builderLines t) ++
    onlyIf (w.on .equalsAndHash && !lombok) (equalityLines t) ++
    onlyIf (w.on .toText && !lombok) (textLines t) ++
    ["\x7d"]

end DtoForge.Java
