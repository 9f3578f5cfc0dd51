import Mathlib.Data.List.Forall2
import DtoForge.Proofs.Generator.Source
import DtoForge.Proofs.Schema.Structure

/-! # Surface — a type is written without opening the types it refers to

The surface of a schema is what is left when the objects that refer to a type of their own are
emptied. Names, type expressions and references hang on the surface alone, and so does everything a
language writes for a field: wherever the recursion over the schema of a field meets a reference, it
stops. `generate_eq_of_sameSurface` puts this together: the code of a type stays the same when the
types it refers to change. -/

namespace DtoForge

/-! ## Surfaces -/

namespace Schema

/-- Two schemas that differ at most in what an object holds that refers to a type of its own, behind
any number of array layers. -/
inductive SameSurface : Schema → Schema → Prop
  /-- Properties and required names of a referring object may be any. -/
  | body (ps qs : List (RawText × Schema)) (required required' : List Json) (ref : Json) :
      SameSurface (.object ps required (some ref)) (.object qs required' (some ref))
  | items {s t : Schema} (ref : Option Json) :
      SameSurface s t → SameSurface (.array s ref) (.array t ref)
  | refl (s : Schema) : SameSurface s s

/-- A schema in which the objects that refer to a type of their own are emptied. Objects without a
reference stay as they are. -/
def surface : Schema → Schema
  | .object _ _ (some ref) => .object [] [] (some ref)
  | .array items ref => .array items.surface ref
  | s => s

@[simp] theorem surface_array (items : Schema) (ref : Option Json) :
    (array items ref).surface = .array items.surface ref := rfl

/-- Schemas that differ at most in emptied objects have one surface. -/
theorem SameSurface.surface_eq {s t : Schema} (h : SameSurface s t) : s.surface = t.surface := by
  induction h with
  | body ps qs required required' ref => rfl
  | items ref _ ih => rw [surface_array, surface_array, ih]
  | refl s => rfl

/-- Properties with their surfaces. -/
def surfaces (ps : List (RawText × Schema)) : List (RawText × Schema) :=
  ps.map fun p => (p.1, p.2.surface)

@[simp] theorem surfaces_cons (p : RawText × Schema) (ps : List (RawText × Schema)) :
    surfaces (p :: ps) = (p.1, p.2.surface) :: surfaces ps := rfl

/-- So have properties, one by one. -/
theorem surfaces_eq {ps qs : List (RawText × Schema)}
    (h : List.Forall₂ (fun p q => p.1 = q.1 ∧ SameSurface p.2 q.2) ps qs) :
    surfaces ps = surfaces qs := by
  induction h with
  | nil => rfl
  | cons hpq _ ih => rw [surfaces_cons, surfaces_cons, hpq.1, hpq.2.surface_eq, ih]

/-- What kinds a schema holds is asked of it up to its first reference. -/
@[simp] theorem holds_surface (kind : SchemaKind) (s : Schema) :
    s.surface.holds kind = s.holds kind := by
  induction s with
  | object ps required ref => cases ref <;> rfl
  | array items ref ih => rw [surface_array, holds, holds, ih]
  | leaf l ref => rfl

end Schema

/-! ## Names, types and references -/

/-- A field with the surface of its schema. -/
def Field.surface (f : Field) : Field :=
  { f with schema := f.schema.surface }

namespace Field

@[simp] theorem surface_wireName (f : Field) : f.surface.wireName = f.wireName := rfl
@[simp] theorem surface_name (f : Field) : f.surface.name = f.name := rfl
@[simp] theorem surface_type (f : Field) : f.surface.type = f.type := rfl
@[simp] theorem surface_required (f : Field) : f.surface.required = f.required := rfl
@[simp] theorem surface_schema (f : Field) : f.surface.schema = f.schema.surface := rfl
@[simp] theorem surface_renamed (f : Field) : f.surface.renamed = f.renamed := rfl

@[simp] theorem anyHolds_surface (fields : List Field) (kind : SchemaKind) :
    anyHolds (fields.map surface) kind = anyHolds fields kind := by
  simp [anyHolds, Function.comp_def]

end Field

namespace Writer

variable (w : Writer)

/-- A type expression names the type of a reference and does not open it. -/
@[simp] theorem typeOf_surface (enclosing : String) (s : Schema) :
    w.typeOf enclosing s.surface = w.typeOf enclosing s := by
  induction s with
  | object ps required ref => cases ref <;> rfl
  | array items ref ih => rw [Schema.surface_array, typeOf, typeOf, ih]
  | leaf l ref => rfl

@[simp] theorem refOf_surface (s : Schema) : refOf s.surface = refOf s := by
  unfold refOf
  induction s with
  | object ps required ref => cases ref <;> rfl
  | array items ref ih => exact ih
  | leaf l ref => rfl

/-- The fields of properties with surfaces are the fields of the properties, with surfaces. -/
theorem fieldsFrom_surfaces (enclosing : String) (isRequired : RawText → Bool)
    (table : Naming.NameTable) (ps : List (RawText × Schema)) :
    w.fieldsFrom enclosing isRequired table (Schema.surfaces ps) =
      (w.fieldsFrom enclosing isRequired table ps).map (List.map Field.surface) := by
  induction ps generalizing table with
  | nil => rfl
  | cons p ps ih =>
      obtain ⟨wireName, s⟩ := p
      rw [Schema.surfaces_cons, fieldsFrom, fieldsFrom]
      dsimp only
      rw [w.typeOf_surface, ih]
      cases w.typeOf enclosing s with
      | error cause => rfl
      | ok type =>
          cases w.fieldsFrom enclosing isRequired (w.fieldName table wireName).2 ps with
          | error cause => rfl
          | ok fields => rfl

/-- The types that properties refer to are told by their surfaces. -/
theorem references_surfaces (self : Json) (ps : List (RawText × Schema)) (required : List Json)
    (ref : Option Json) :
    w.references self (.object (Schema.surfaces ps) required ref) =
      w.references self (.object ps required ref) := by
  have hadd : ∀ refs s, w.addReference self refs (Schema.surface s) = w.addReference self refs s := by
    intro refs s
    rw [addReference, addReference, refOf_surface]
  simp [references, Schema.surfaces, List.foldlM_map, hadd]

end Writer

/-! ## Code -/

/-- A type with the surfaces of its fields. -/
def TypeSource.surface (t : TypeSource) : TypeSource :=
  { t with fields := t.fields.map Field.surface }

namespace TypeSource

@[simp] theorem surface_className (t : TypeSource) : t.surface.className = t.className := rfl
@[simp] theorem surface_stem (t : TypeSource) : t.surface.stem = t.stem := rfl
@[simp] theorem surface_doc (t : TypeSource) : t.surface.doc = t.doc := rfl
@[simp] theorem surface_references (t : TypeSource) : t.surface.references = t.references := rfl
@[simp] theorem surface_fields (t : TypeSource) :
    t.surface.fields = t.fields.map Field.surface := rfl

end TypeSource

section Code

variable (w : Writer) (t : TypeSource) (f : Field)

/-! ### TypeScript -/

namespace TypeScript

@[simp] theorem propertyLine_surface : propertyLine w f.surface = propertyLine w f := rfl

/-- A guard checks the kind of a property, which its surface tells. -/
@[simp] theorem guardCheck_surface : guardCheck f.surface = guardCheck f := by
  obtain ⟨wireName, name, type, required, schema⟩ := f
  rcases schema with ⟨ps, required', _ | ref⟩ | _ | _ <;> rfl

/-- So does the value that a property starts from. -/
@[simp] theorem initialValue_surface : initialValue f.surface = initialValue f := by
  obtain ⟨wireName, name, type, required, schema⟩ := f
  rcases schema with ⟨ps, required', _ | ref⟩ | _ | _ <;> rfl

/-- The whole interface is written from its surface. -/
theorem code_surface : code w t.surface = code w t := by
  simp [code, keyMapLines, guardLines, factoryLines, List.filter_map, Function.comp_def]

end TypeScript

/-! ### Java -/

namespace Java

@[simp] theorem fieldLines_surface : fieldLines w f.surface = fieldLines w f := rfl

@[simp] theorem accessorLines_surface : accessorLines f.surface = accessorLines f := rfl

/-- Java imports go by the kinds that the fields hold. -/
@[simp] theorem importNames_surface (fields : List Field) :
    importNames w (fields.map Field.surface) = importNames w fields := by
  simp [importNames, Function.comp_def]

theorem constructorLines_surface : constructorLines t.surface = constructorLines t := by
  simp [constructorLines, Function.comp_def]

theorem factoryLines_surface : factoryLines t.surface = factoryLines t := by
  simp [factoryLines, Function.comp_def]

theorem builderLines_surface : builderLines t.surface = builderLines t := by
  simp [builderLines, List.flatMap_map, Function.comp_def]

theorem equalityLines_surface : equalityLines t.surface = equalityLines t := by
  cases hfields : t.fields with
  | nil => simp [equalityLines, hfields]
  | cons f fs => simp [equalityLines, hfields, Function.comp_def]

theorem textLines_surface : textLines t.surface = textLines t := by
  cases hfields : t.fields with
  | nil => simp [textLines, hfields]
  | cons f fs => simp [textLines, hfields, Function.comp_def]

/-- The whole class is written from its surface. -/
theorem code_surface : code w t.surface = code w t := by
  simp only [code, TypeSource.surface_fields, TypeSource.surface_className, TypeSource.surface_doc,
    List.flatMap_map, fieldLines_surface, accessorLines_surface, importNames_surface,
    constructorLines_surface, factoryLines_surface, builderLines_surface, equalityLines_surface,
    textLines_surface]

end Java

/-! ### Dart -/

namespace Dart

@[simp] theorem fieldLines_surface : fieldLines w f.surface = fieldLines w f := rfl

@[simp] theorem isNullable_surface : isNullable w f.surface = isNullable w f := rfl

@[simp] theorem parameterType_surface : parameterType w f.surface = parameterType w f := rfl

/-- Whether items need an encoder of their own is settled at the first reference. -/
@[simp] theorem needsEncoding_surface (s : Schema) :
    needsEncoding s.surface = needsEncoding s := by
  induction s with
  | object ps required ref => cases ref <;> rfl
  | array items ref ih => exact ih
  | leaf l ref => rfl

/-- An object that refers to a type is decoded by a call of its constructor. -/
@[simp] theorem decode_surface (expr : String) (nullable : Bool) (s : Schema) :
    decode w expr nullable s.surface = decode w expr nullable s := by
  induction s generalizing expr nullable with
  | object ps required ref => cases ref <;> rfl
  | array items ref ih => rw [Schema.surface_array, decode, decode, ih]
  | leaf l ref => rfl

/-- An object that refers to a type is encoded by a call. -/
@[simp] theorem encode_surface (expr : String) (nullable : Bool) (s : Schema) :
    encode expr nullable s.surface = encode expr nullable s := by
  induction s generalizing expr nullable with
  | object ps required ref => cases ref <;> rfl
  | array items ref ih => rw [Schema.surface_array, encode, encode, ih, needsEncoding_surface]
  | leaf l ref => rfl

theorem writtenLines_surface : writtenLines w t.surface = writtenLines w t := by
  simp [writtenLines, Function.comp_def]

theorem copyLines_surface : copyLines w t.surface = copyLines w t := by
  simp [copyLines, Function.comp_def]

theorem equalityLines_surface : equalityLines t.surface = equalityLines t := by
  simp [equalityLines, Function.comp_def]

theorem textLines_surface : textLines t.surface = textLines t := by
  simp [textLines, Function.comp_def]

theorem constructorLines_surface : constructorLines w t.surface = constructorLines w t := by
  simp [constructorLines, Function.comp_def]

/-- The whole class is written from its surface. -/
theorem code_surface : code w t.surface = code w t := by
  simp only [code, TypeSource.surface_fields, TypeSource.surface_className, TypeSource.surface_stem,
    TypeSource.surface_doc, TypeSource.surface_references, List.flatMap_map, fieldLines_surface,
    constructorLines_surface, generatedLines, writtenLines_surface, copyLines_surface,
    equalityLines_surface, textLines_surface]

end Dart

/-! ### Go -/

namespace Go

/-- Whether a value may be behind a pointer is told by the outermost layer. -/
@[simp] theorem isPointable_surface (s : Schema) : isPointable s.surface = isPointable s := by
  rcases s with ⟨ps, required, _ | ref⟩ | _ | _ <;> rfl

/-- So the type of a field stays, with its pointer or without. -/
@[simp] theorem fieldType_surface : fieldType f.surface = fieldType f := by
  simp [fieldType]

@[simp] theorem tag_surface : tag w f.surface = tag w f := rfl

/-- The parameters of fields with their surfaces. -/
theorem parametersFrom_surface (table : Naming.NameTable) (fields : List Field) :
    parametersFrom table (fields.map Field.surface) =
      (parametersFrom table fields).map fun p => { p with field := p.field.surface } := by
  induction fields generalizing table with
  | nil => rfl
  | cons f fs ih => rw [List.map_cons, parametersFrom, parametersFrom, List.map_cons, ← ih]; rfl

/-- The whole struct is written from its surface. -/
theorem code_surface : code w t.surface = code w t := by
  simp [code, fieldLines, constructorLines, parameters, parametersFrom_surface, List.filter_map,
    Function.comp_def]

end Go

/-! ### Python -/

namespace Python

/-- Whether items need a decoder of their own is settled at the first reference. -/
@[simp] theorem needsDecoding_surface (s : Schema) :
    needsDecoding s.surface = needsDecoding s := by
  induction s with
  | object ps required ref => cases ref <;> rfl
  | array items ref ih => exact ih
  | leaf l ref => rfl

/-- An object that refers to a type is decoded by a call of its class method. -/
@[simp] theorem decode_surface (expr : String) (isOptional : Bool) (s : Schema) :
    decode w expr isOptional s.surface = decode w expr isOptional s := by
  induction s generalizing expr isOptional with
  | object ps required ref => cases ref <;> rfl
  | array items ref ih => rw [Schema.surface_array, decode, decode, ih, needsDecoding_surface]
  | leaf l ref => rfl

@[simp] theorem fieldDecoder_surface : fieldDecoder w f.surface = fieldDecoder w f := by
  simp only [fieldDecoder, Field.surface_schema, decode_surface]
  rfl

@[simp] theorem dictionaryType_surface : dictionaryType w f.surface = dictionaryType w f := rfl

@[simp] theorem fieldLine_surface (useAlias : Bool) (call aliasOpen aliasClose : String) :
    fieldLine w useAlias call aliasOpen aliasClose f.surface =
      fieldLine w useAlias call aliasOpen aliasClose f := rfl

section Lines

variable (settings : Settings) (useAlias : Bool)

/-- Python imports go by the type expressions of the fields. -/
theorem importLines_surface (fields : List Field) :
    importLines w settings useAlias (fields.map Field.surface) =
      importLines w settings useAlias fields := by
  simp [importLines, typingNames, Function.comp_def]

theorem dataclassLines_surface :
    dataclassLines w settings useAlias t.surface = dataclassLines w settings useAlias t := by
  simp [dataclassLines, docLines, factoryLines, Function.comp_def]

theorem modelLines_surface :
    modelLines w settings useAlias t.surface = modelLines w settings useAlias t := by
  simp [modelLines, docLines, factoryLines, Function.comp_def]

theorem dictionaryLines_surface (functional : Bool) :
    dictionaryLines w functional t.surface = dictionaryLines w functional t := by
  simp [dictionaryLines, docLines, Function.comp_def]

end Lines

/-- The fields of a type with surfaces, in the order of a style. -/
theorem ordered_surface (byNeed : Bool) (fields : List Field) :
    (if byNeed then
      (fields.map Field.surface).filter (·.required) ++
        (fields.map Field.surface).filter (!·.required)
    else fields.map Field.surface) =
      (if byNeed then fields.filter (·.required) ++ fields.filter (!·.required)
        else fields).map Field.surface := by
  cases byNeed with
  | false => rfl
  | true => simp [List.filter_map, Function.comp_def]

theorem referenceLines_surface : referenceLines t.surface = referenceLines t := rfl

/-- The whole module is written from its surface, in every style. -/
theorem code_surface : code w t.surface = code w t := by
  have halias : (t.fields.map Field.surface).any Field.renamed = t.fields.any Field.renamed := by
    simp [Function.comp_def]
  -- the fields in order are again those of a type with surfaces
  have hsource : ∀ fields : List Field, { t.surface with fields := fields.map Field.surface } =
      TypeSource.surface { t with fields } := fun _ => rfl
  have hmember : ∀ fields : List Field,
      ((fields.map Field.surface).all fun f => isMemberName f.wireName) =
        fields.all fun f => isMemberName f.wireName := by
    intro fields
    simp [Function.comp_def]
  simp only [code, TypeSource.surface_fields, halias, ordered_surface, hsource, hmember,
    importLines_surface, referenceLines_surface, dataclassLines_surface, modelLines_surface,
    dictionaryLines_surface]

end Python

/-! ### C# -/

namespace CSharp

@[simp] theorem propertyLines_surface (className : String) :
    propertyLines w className f.surface = propertyLines w className f := rfl

theorem code_surface : code w t.surface = code w t := by
  simp [code, usings, Function.comp_def]

end CSharp

/-! ### Swift -/

theorem Swift.code_surface : Swift.code w t.surface = Swift.code w t := by
  simp [Swift.code, Swift.codingKeyLines, Swift.descriptionLines, Function.comp_def]

/-! ### Kotlin -/

namespace Kotlin

@[simp] theorem propertyLines_surface (serializedNames : Bool) :
    propertyLines w serializedNames f.surface = propertyLines w serializedNames f := rfl

theorem code_surface : code w t.surface = code w t := by
  simp [code, List.flatMap_map, Function.comp_def]

end Kotlin

end Code

/-! ## Main result -/

namespace Generator

variable (g : Generator)

/-- The code of a type in every language comes from its surface. -/
theorem codeOf_surface (t : TypeSource) : g.codeOf t.surface = g.codeOf t := by
  unfold codeOf
  cases g.target with
  | typescript => exact TypeScript.code_surface g.writer t
  | java => exact Java.code_surface g.writer t
  | dart => exact Dart.code_surface g.writer t
  | go => exact Go.code_surface g.writer t
  | python => exact Python.code_surface g.writer t
  | csharp => exact CSharp.code_surface g.writer t
  | swift => exact Swift.code_surface g.writer t
  | kotlin => exact Kotlin.code_surface g.writer t

/-- The type of a schema with surfaces is the type of the schema, with the surfaces of its fields.
-/
theorem source_surfaces (ps : List (RawText × Schema)) (required : List Json) (ref : Option Json)
    (name : RawText) :
    g.source (.object (Schema.surfaces ps) required ref) name =
      (g.source (.object ps required ref) name).map TypeSource.surface := by
  have hrequired : (Schema.object (Schema.surfaces ps) required ref).isRequired =
      (Schema.object ps required ref).isRequired := rfl
  simp only [source, Writer.fields, Writer.references_surfaces, Writer.fieldsFrom_surfaces,
    hrequired]
  cases g.writer.fieldsFrom (g.writer.typeName name.legible)
    (Schema.object ps required ref).isRequired {} ps with
  | error cause => rfl
  | ok fields =>
      cases g.writer.references (.str name) (.object ps required ref) with
      | error cause => rfl
      | ok references => rfl

/-- So both are generated alike, or refused alike. -/
theorem generate_surfaces (ps : List (RawText × Schema)) (required : List Json) (ref : Option Json)
    (name : Json) :
    g.generate (.object (Schema.surfaces ps) required ref) name =
      g.generate (.object ps required ref) name := by
  have hnamed : ∀ name, g.generateNamed (.object (Schema.surfaces ps) required ref) name =
      g.generateNamed (.object ps required ref) name := by
    intro name
    have hwritten : ∀ source : Except GenerationError TypeSource,
        (source.map TypeSource.surface).map g.written = source.map g.written := by
      intro source
      cases source with
      | error e => rfl
      | ok t =>
          exact congrArg (fun code => Except.ok (g.writer.format (Source.text code)))
            (g.codeOf_surface t)
    rw [generateNamed_eq, generateNamed_eq, source_surfaces, hwritten]
  simp only [generate, hnamed]
  rfl

/-- **Types are generated separately.** In every language and under all options, the code of a type
stays the same when the types its properties refer to get other properties and other required names,
however deep in arrays the references stand. -/
theorem generate_eq_of_sameSurface {ps qs : List (RawText × Schema)}
    (h : List.Forall₂ (fun p q => p.1 = q.1 ∧ Schema.SameSurface p.2 q.2) ps qs)
    (required : List Json) (ref : Option Json) (name : Json) :
    g.generate (.object ps required ref) name = g.generate (.object qs required ref) name := by
  rw [← g.generate_surfaces ps, ← g.generate_surfaces qs, Schema.surfaces_eq h]

/-- An order does not change with its items, two arrays below its pages. -/
theorem generate_eq_of_sameSurface_order :
    (Generator.mk .dart { setting := fun _ => .bool true }).generate
        (.object
          [("id", .leaf .number none),
            ("pages", .array (.array (.object [("sku", .leaf .string none)] [.str "sku"]
              (some (.str "Item"))) none) none)]
          [.str "id"] none) (.str "Order") =
      (Generator.mk .dart { setting := fun _ => .bool true }).generate
        (.object
          [("id", .leaf .number none),
            ("pages", .array (.array (.object [("tags", .array (.leaf .string none) none)] []
              (some (.str "Item"))) none) none)]
          [.str "id"] none) (.str "Order") :=
  generate_eq_of_sameSurface _
    (.cons ⟨rfl, .refl _⟩ (.cons ⟨rfl, .items none (.items none (.body _ _ _ _ _))⟩ .nil)) _ _ _

end Generator

end DtoForge
