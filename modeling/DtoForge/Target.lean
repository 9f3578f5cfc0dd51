import DtoForge.Options.Basic

/-! # Targets — the languages code is generated for

Each target has a key, a display name, a file extension and the set of features it honours. -/

namespace DtoForge

/-- The languages code is generated for. -/
inductive Target where
  | typescript | java | dart | go | python | csharp | swift | kotlin
  deriving DecidableEq, Repr

namespace Target

/-- The targets in order. -/
def all : List Target :=
  [.typescript, .java, .dart, .go, .python, .csharp, .swift, .kotlin]

/-- The key of a target. -/
def key : Target → String
  | .typescript => "typescript"
  | .java => "java"
  | .dart => "dart"
  | .go => "go"
  | .python => "python"
  | .csharp => "csharp"
  | .swift => "swift"
  | .kotlin => "kotlin"

/-- The name of a target in messages. -/
def displayName : Target → String
  | .typescript => "TypeScript"
  | .java => "Java"
  | .dart => "Dart"
  | .go => "Go"
  | .python => "Python"
  | .csharp => "C#"
  | .swift => "Swift"
  | .kotlin => "Kotlin"

/-- What the names of generated files end in. -/
def extension : Target → String
  | .typescript => ".ts"
  | .java => ".java"
  | .dart => ".dart"
  | .go => ".go"
  | .python => ".py"
  | .csharp => ".cs"
  | .swift => ".swift"
  | .kotlin => ".kt"

/-- The name under which lists show the generator of a target. -/
def generatorName : Target → String
  | .typescript => "TypeScriptGenerator"
  | .java => "JavaGenerator"
  | .dart => "DartGenerator"
  | .go => "GoGenerator"
  | .python => "PythonGenerator"
  | .csharp => "CSharpGenerator"
  | .swift => "SwiftGenerator"
  | .kotlin => "KotlinGenerator"

/-- The name under which lists show where the generator of a target belongs. -/
def moduleName (t : Target) : String :=
  "mockapi.codegen.languages." ++ t.key ++ ".generator"

/-- Further names of a target. -/
def aliases : Target → List String
  | .typescript => ["ts"]
  | .go => ["golang"]
  | .python => ["py"]
  | .csharp => ["c#", "cs"]
  | .kotlin => ["kt"]
  | _ => []

/-- The features a target honours. -/
def features : Target → List Feature
  | .typescript => [.annotations, .validation, .factoryMethods, .comments, .nullChecks]
  | .java => [.annotations, .lombok, .validation, .builders, .factoryMethods, .equalsAndHash,
      .toText, .comments, .nullChecks]
  | .dart => [.annotations, .jsonSerializable, .factoryMethods, .equalsAndHash, .toText, .comments,
      .nullChecks]
  | .go => [.annotations, .validation, .factoryMethods, .comments]
  | .python => [.annotations, .factoryMethods, .comments, .nullChecks]
  | .csharp => [.annotations, .systemTextJson, .validation, .comments, .nullChecks]
  | .swift => [.annotations, .equalsAndHash, .toText, .comments]
  | .kotlin => [.annotations, .comments, .nullChecks]

/-- The object types a target can generate. -/
def objectTypes (_ : Target) : List ObjectType :=
  ObjectType.all

/-- The target of a key. -/
def ofKey? (key : String) : Option Target :=
  all.find? fun t => t.key == key

/-- Features that are on and that a target does not honour. -/
def ignored (t : Target) (o : Options) : List Feature :=
  Feature.all.filter fun f => o.enabled f && !t.features.contains f

/-- What a target makes nothing of in some options: features it does not honour, and object types
it does not generate. -/
def warnings (t : Target) (o : Options) : List String :=
  (t.ignored o).map (fun f => t.displayName ++ " ignores option '" ++ f.word ++ "'") ++
    (o.objectTypes.filter fun k => !t.objectTypes.contains k).map fun k =>
      t.displayName ++ " does not support object type '" ++ k.word ++ "'"

end Target

end DtoForge
