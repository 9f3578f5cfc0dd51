import DtoForge.Proofs.Generator.Source
import DtoForge.Proofs.Schema.Structure

/-! # Features — what a target does not honour changes nothing

A writer asks two things of its options: whether a feature is on, and what the other options say.
The second stays when only features are set anew, so the code of a type stays as soon as the
features agree that its language asks for. Those are the features the target honours
(`generate_eq_of_enabled_eq`): the list that warns of ignored features and the code that reads them
are in step. -/

namespace DtoForge

/-! ## Features set anew -/

/-- Options with their features set anew. -/
def Options.withSetting (o : Options) (setting : Feature → Json) : Options :=
  { o with setting }

/-- A writer with the features of its options set anew. -/
def Writer.withSetting (w : Writer) (setting : Feature → Json) : Writer :=
  { w with options := w.options.withSetting setting }

namespace Writer

variable (w : Writer) (setting : Feature → Json)

@[simp] theorem withSetting_dialect : (w.withSetting setting).dialect = w.dialect := rfl

@[simp] theorem withSetting_packageName :
    (w.withSetting setting).options.packageName = w.options.packageName := rfl

@[simp] theorem typeName_withSetting : (w.withSetting setting).typeName = w.typeName := rfl

@[simp] theorem fieldName_withSetting : (w.withSetting setting).fieldName = w.fieldName := rfl

/-- Type expressions ask for no feature. -/
@[simp] theorem typeOf_withSetting (enclosing : String) (s : Schema) :
    (w.withSetting setting).typeOf enclosing s = w.typeOf enclosing s := by
  induction s with
  | object ps required ref => cases ref <;> rfl
  | array items ref ih => rw [typeOf, typeOf, ih, withSetting_dialect]
  | leaf l ref => rfl

/-- Nor do the names of fields. -/
@[simp] theorem fieldsFrom_withSetting (enclosing : String) (isRequired : RawText → Bool)
    (table : Naming.NameTable) (ps : List (RawText × Schema)) :
    (w.withSetting setting).fieldsFrom enclosing isRequired table ps =
      w.fieldsFrom enclosing isRequired table ps := by
  induction ps generalizing table with
  | nil => rfl
  | cons p ps ih => simp [fieldsFrom, ih]

theorem fields_withSetting (enclosing : String) (s : Schema) :
    (w.withSetting setting).fields enclosing s = w.fields enclosing s := by
  cases s with
  | object ps required ref => exact w.fieldsFrom_withSetting setting enclosing _ {} ps
  | array items ref => rfl
  | leaf l ref => rfl

/-- Nor what a type refers to. -/
theorem references_withSetting (self : Json) (s : Schema) :
    (w.withSetting setting).references self s = w.references self s := rfl

end Writer

/-! ## Code -/

section Code

variable {w : Writer} {setting : Feature → Json} (t : TypeSource)

/-- What is written in a language stays when the features agree that it honours; each language below
is read for the features it asks for. -/
theorem TypeScript.code_withSetting
    (h : ∀ f ∈ Target.typescript.features, (w.withSetting setting).on f = w.on f) :
    code (w.withSetting setting) t = code w t := by
  have hproperty : propertyLine (w.withSetting setting) = propertyLine w := by
    funext f
    simp (disch := decide) only [propertyLine, h]
  simp (disch := decide) only [code, hproperty, keyMapLines, guardLines, factoryLines, h]

theorem Java.code_withSetting
    (h : ∀ f ∈ Target.java.features, (w.withSetting setting).on f = w.on f) :
    code (w.withSetting setting) t = code w t := by
  have himports : importNames (w.withSetting setting) = importNames w := by
    funext fields
    simp (disch := decide) only [importNames, h]
  have hfield : fieldLines (w.withSetting setting) = fieldLines w := by
    funext f
    simp (disch := decide) only [fieldLines, h]
  simp (disch := decide) only [code, himports, hfield, Writer.withSetting_packageName, h]

namespace Dart

theorem decode_withSetting (expr : String) (nullable : Bool) (s : Schema) :
    decode (w.withSetting setting) expr nullable s = decode w expr nullable s := by
  induction s generalizing expr nullable with
  | object ps required ref => cases ref <;> rfl
  | array items ref ih => rw [decode, decode, ih]
  | leaf l ref => cases l <;> rfl

theorem code_withSetting
    (h : ∀ f ∈ Target.dart.features, (w.withSetting setting).on f = w.on f) :
    code (w.withSetting setting) t = code w t := by
  have hnullable : isNullable (w.withSetting setting) = isNullable w := by
    funext f
    simp (disch := decide) only [isNullable, h]
  have hdeclared : declaredType (w.withSetting setting) = declaredType w := by
    funext f
    simp only [declaredType, hnullable]
  have hfield : fieldLines (w.withSetting setting) = fieldLines w := by
    funext f
    simp (disch := decide) only [fieldLines, hdeclared, h]
  simp (disch := decide) only [code, hfield, constructorLines, writtenLines, copyLines,
    parameterType, hdeclared, hnullable, decode_withSetting, h]

end Dart

theorem Go.code_withSetting
    (h : ∀ f ∈ Target.go.features, (w.withSetting setting).on f = w.on f) :
    code (w.withSetting setting) t = code w t := by
  have htag : tag (w.withSetting setting) = tag w := by
    funext f
    simp (disch := decide) only [tag, h]
  simp (disch := decide) only [code, fieldLines, htag, packageName, Writer.withSetting_packageName,
    h]

namespace Python

theorem decode_withSetting (expr : String) (isOptional : Bool) (s : Schema) :
    decode (w.withSetting setting) expr isOptional s = decode w expr isOptional s := by
  induction s generalizing expr isOptional with
  | object ps required ref => cases ref <;> rfl
  | array items ref ih => rw [decode, decode, ih]
  | leaf l ref => rfl

section Lines

variable (h : ∀ f ∈ Target.python.features, (w.withSetting setting).on f = w.on f)

include h

/-- The parts of generated Python code ask for features of Python only. -/
theorem optionalType_withSetting : optionalType (w.withSetting setting) = optionalType w := by
  funext f
  simp (disch := decide) only [optionalType, h]

theorem fieldLine_withSetting : fieldLine (w.withSetting setting) = fieldLine w := by
  have hclass : classType (w.withSetting setting) = classType w := by
    funext f
    rw [classType, classType, optionalType_withSetting h]
  funext useAlias call aliasOpen aliasClose f
  rw [fieldLine, fieldLine, hclass]

theorem typingNames_withSetting : typingNames (w.withSetting setting) = typingNames w := by
  funext style fields
  rw [typingNames, typingNames, h .factoryMethods (by decide), h .nullChecks (by decide)]

/-- The imports name what the features need. -/
theorem importLines_withSetting : importLines (w.withSetting setting) = importLines w := by
  funext settings useAlias fields
  rw [importLines, importLines, typingNames_withSetting h]

theorem dataclassLines_withSetting :
    dataclassLines (w.withSetting setting) = dataclassLines w := by
  funext settings useAlias t
  simp (disch := decide) only [dataclassLines, fieldLine_withSetting h, fieldDecoder,
    decode_withSetting, h]

theorem modelLines_withSetting : modelLines (w.withSetting setting) = modelLines w := by
  funext settings useAlias t
  simp (disch := decide) only [modelLines, fieldLine_withSetting h, h]

theorem dictionaryLines_withSetting :
    dictionaryLines (w.withSetting setting) = dictionaryLines w := by
  have hdictionary : dictionaryType (w.withSetting setting) = dictionaryType w := by
    funext f
    rw [dictionaryType, dictionaryType, optionalType_withSetting h]
  funext functional t
  simp only [dictionaryLines, hdictionary]

theorem code_withSetting : code (w.withSetting setting) t = code w t := by
  have hsettings : Settings.of (w.withSetting setting).options = Settings.of w.options := rfl
  simp (disch := decide) only [code, hsettings, importLines_withSetting h,
    dataclassLines_withSetting h, modelLines_withSetting h, dictionaryLines_withSetting h, h]

end Lines

end Python

theorem CSharp.code_withSetting
    (h : ∀ f ∈ Target.csharp.features, (w.withSetting setting).on f = w.on f) :
    code (w.withSetting setting) t = code w t := by
  have hproperty : propertyLines (w.withSetting setting) = propertyLines w := by
    funext className f
    simp (disch := decide) only [propertyLines, nameAttribute, propertyType, initializer, h]
  simp (disch := decide) only [code, usings, hproperty, Writer.withSetting_packageName, h]

theorem Swift.code_withSetting
    (h : ∀ f ∈ Target.swift.features, (w.withSetting setting).on f = w.on f) :
    code (w.withSetting setting) t = code w t := by
  simp (disch := decide) only [code, conformances, h]

theorem Kotlin.code_withSetting
    (h : ∀ f ∈ Target.kotlin.features, (w.withSetting setting).on f = w.on f) :
    code (w.withSetting setting) t = code w t := by
  have hproperty : propertyLines (w.withSetting setting) = propertyLines w := by
    funext serializedNames f
    simp (disch := decide) only [propertyLines, h]
  simp (disch := decide) only [code, hproperty, Writer.withSetting_packageName, h]

end Code

/-! ## Main result -/

/-- Only the words that Swift reserves depend on a feature. -/
theorem Target.dialect_withSetting {t : Target} {o : Options} {setting : Feature → Json}
    (h : ∀ f ∈ t.features, (o.withSetting setting).enabled f = o.enabled f) :
    t.dialect (o.withSetting setting) = t.dialect o := by
  cases t with
  | swift => rw [dialect, dialect, Swift.dialect, h .toText (by decide), Swift.dialect]
  | _ => rfl

namespace Generator

/-- A generator with the features of its options set anew. -/
def withSetting (g : Generator) (setting : Feature → Json) : Generator :=
  { g with options := g.options.withSetting setting }

section

variable {g : Generator} {setting : Feature → Json}
  (h : ∀ f ∈ g.target.features, (g.options.withSetting setting).enabled f = g.options.enabled f)

include h

/-- So the writer of a generator is the same but for its features. -/
theorem writer_withSetting : (g.withSetting setting).writer = g.writer.withSetting setting := by
  show Writer.mk _ _ = Writer.mk _ _
  rw [withSetting, Target.dialect_withSetting h]
  rfl

/-- What is written for a type stays in every language. -/
theorem codeOf_withSetting (t : TypeSource) :
    (g.withSetting setting).codeOf t = g.codeOf t := by
  obtain ⟨target, options⟩ := g
  rw [codeOf, codeOf, writer_withSetting h]
  cases target with
  | typescript => exact TypeScript.code_withSetting t h
  | java => exact Java.code_withSetting t h
  | dart => exact Dart.code_withSetting t h
  | go => exact Go.code_withSetting t h
  | python => exact Python.code_withSetting t h
  | csharp => exact CSharp.code_withSetting t h
  | swift => exact Swift.code_withSetting t h
  | kotlin => exact Kotlin.code_withSetting t h

/-- What is known of a type before its code is written stays as well. -/
theorem source_withSetting (schema : Schema) (name : RawText) :
    (g.withSetting setting).source schema name = g.source schema name := by
  -- doc comments are a feature of every language
  have hcomments : Feature.comments ∈ g.target.features := by
    cases g.target <;> decide
  have hdoc : (g.writer.withSetting setting).docOf = g.writer.docOf := by
    funext className
    rw [Writer.docOf, Writer.docOf, Writer.on, Writer.on]
    exact congrArg (fun on => if on = true then _ else none) (h .comments hcomments)
  rw [source, source, writer_withSetting h, hdoc]
  simp only [Writer.typeName_withSetting, Writer.fields_withSetting, Writer.references_withSetting]

/-- So does the code of a named type, or its refusal. -/
theorem generateNamed_withSetting (schema : Schema) (name : RawText) :
    (g.withSetting setting).generateNamed schema name = g.generateNamed schema name := by
  have hpackage : (g.withSetting setting).checkPackage = g.checkPackage := rfl
  have hwritten : (g.withSetting setting).written = g.written := by
    funext t
    rw [written, written, writer_withSetting h, codeOf_withSetting h]
    rfl
  rw [generateNamed_eq, generateNamed_eq, hpackage, hwritten, source_withSetting h]

end

/-- **Features a target does not honour are ignored.** Two generators whose options differ in
features alone, and agree on those the target honours, give the same code or the same refusal for
every schema and name. -/
theorem generate_eq_of_enabled_eq (t : Target) (o : Options) (setting : Feature → Json)
    (h : ∀ f ∈ t.features, (o.withSetting setting).enabled f = o.enabled f)
    (schema : Schema) (name : Json) :
    (Generator.mk t (o.withSetting setting)).generate schema name =
      (Generator.mk t o).generate schema name := by
  have hnamed : (Generator.mk t (o.withSetting setting)).generateNamed =
      (Generator.mk t o).generateNamed := by
    funext schema name
    exact generateNamed_withSetting (g := ⟨t, o⟩) h schema name
  rw [generate, generate, hnamed]

/-- Builders and Lombok say nothing to Go. -/
theorem generate_eq_of_enabled_eq_go :
    (Generator.mk .go (({} : Options).withSetting fun f =>
        .bool (f.default || f == .builders || f == .lombok))).generate
        (.object [("id", .leaf .number none)] [.str "id"] none) (.str "Order") =
      (Generator.mk .go {}).generate
        (.object [("id", .leaf .number none)] [.str "id"] none) (.str "Order") :=
  generate_eq_of_enabled_eq .go {} _ (by decide) _ _

end Generator

end DtoForge
