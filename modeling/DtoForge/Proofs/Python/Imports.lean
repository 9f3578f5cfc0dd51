import DtoForge.Proofs.Generator.References
import DtoForge.Proofs.Python.Module

/-! # Imports — a module imports what it uses

What a generated module imports is decided apart from what is written in it: by a search in the types
of fields, by the options and by the style. The names that the declaration uses are worked out here
from its parts, style by style, and so are the imported ones, and both are the same
(`imported_iff_used`). Only where a generated type is named like an imported name could they differ. -/

namespace DtoForge.Python

open Source

/-- The names that generated modules import from libraries. -/
def importable : List String :=
  ["Any", "Dict", "List", "Optional", "NotRequired", "TypedDict", "dataclass", "field", "BaseModel",
    "ConfigDict", "Field"]

variable {w : Writer} {settings : Settings} {useAlias : Bool} {t : TypeSource} {n : String}

/-- Whether a name stands in the type of a field. -/
def InTypes (w : Writer) (t : TypeSource) (n : String) : Prop :=
  ∃ f ∈ t.fields, n ∈ (typeExpr w t.className f.schema).names

/-- Whether some field may be missing. -/
def SomeMissing (t : TypeSource) : Prop :=
  ∃ f ∈ t.fields, f.required = false

/-- Whether the types of fields are the texts of their expressions, which have words for names. -/
structure Typed (w : Writer) (t : TypeSource) : Prop where
  text_eq : ∀ f ∈ t.fields, (typeExpr w t.className f.schema).text = f.type
  plain : ∀ f ∈ t.fields, (typeExpr w t.className f.schema).Plain

/-- Whether a name is none of the types that a type refers to, and not its own. -/
structure Apart (w : Writer) (t : TypeSource) (n : String) : Prop where
  className : n ≠ t.className
  references : ∀ f ∈ t.fields, ∀ ref, Writer.refOf f.schema = some ref → n ≠ w.typeName ref.display

/-- The order of the fields makes no difference. -/
theorem Typed.arranged (ht : Typed w t) (style : Style) : Typed w (arranged style t) where
  text_eq f hf := ht.text_eq f (mem_arranged_fields.mp hf)
  plain f hf := ht.plain f (mem_arranged_fields.mp hf)

theorem Apart.arranged (hn : Apart w t n) (style : Style) : Apart w (arranged style t) n where
  className := hn.className
  references f hf := hn.references f (mem_arranged_fields.mp hf)

/-! ## Used names -/

section

variable {className : String} {f : Field}

theorem mem_names_optionalExpr :
    n ∈ (optionalExpr w className f).names ↔
      n ∈ (typeExpr w className f.schema).names ∨
        n = "Optional" ∧ w.on .nullChecks ∧ f.required = false := by
  rw [optionalExpr]
  cases f.required <;> cases w.on .nullChecks <;> simp [TypeExpr.names, or_comm]

theorem mem_names_itemExpr :
    n ∈ (itemExpr w className f).names ↔
      n ∈ (optionalExpr w className f).names ∨ n = "NotRequired" ∧ f.required = false := by
  rw [itemExpr]
  cases hrequired : f.required with
  | true => simp [optionalExpr, hrequired]
  | false => simp [TypeExpr.names, or_comm]

theorem mem_names_fieldMember {call : String} {aliased : Field → String × String} :
    n ∈ (fieldMember w useAlias className call aliased f).names ↔
      n ∈ (optionalExpr w className f).names ∨ n = call ∧ useAlias ∧ f.renamed := by
  rw [fieldMember, Member.names, List.mem_append]
  cases useAlias <;> cases f.renamed <;> cases f.required <;> simp [Default.names]

theorem mem_names_decoderOf {s : Schema} (h : n ∈ (decoderOf w s).names) :
    ∃ ref, Writer.refOf s = some ref ∧ n = w.typeName ref.display := by
  induction s with
  | object ps required ref =>
      cases ref with
      | none => cases h
      | some ref => exact ⟨ref, rfl, List.mem_singleton.mp h⟩
  | array items ref ih =>
      rw [decoderOf] at h
      split at h
      · exact ih h
      · cases h
  | leaf l ref => cases h

end

/-- What the types of fields use when some may be missing. -/
theorem exists_names_optionalExpr_iff :
    (∃ f ∈ t.fields, n ∈ (optionalExpr w t.className f).names) ↔
      InTypes w t n ∨ n = "Optional" ∧ w.on .nullChecks ∧ SomeMissing t := by
  simp only [mem_names_optionalExpr, InTypes, SomeMissing, and_or_left, exists_or]
  refine or_congr_right ?_
  constructor
  · rintro ⟨f, hf, hn, hchecks, hmissing⟩
    exact ⟨hn, hchecks, f, hf, hmissing⟩
  · rintro ⟨hn, hchecks, f, hf, hmissing⟩
    exact ⟨f, hf, hn, hchecks, hmissing⟩

theorem exists_names_itemExpr_iff :
    (∃ f ∈ t.fields, n ∈ (itemExpr w t.className f).names) ↔
      InTypes w t n ∨ n = "Optional" ∧ w.on .nullChecks ∧ SomeMissing t ∨
        n = "NotRequired" ∧ SomeMissing t := by
  simp only [mem_names_itemExpr, and_or_left, exists_or, exists_names_optionalExpr_iff, or_assoc]
  refine or_congr_right (or_congr_right ?_)
  constructor
  · rintro ⟨f, hf, hn, hmissing⟩
    exact ⟨hn, f, hf, hmissing⟩
  · rintro ⟨hn, f, hf, hmissing⟩
    exact ⟨f, hf, hn, hmissing⟩

/-- What the types of fields and the calls in them use. -/
theorem mem_names_fields_iff {call : String} {aliased : Field → String × String} :
    n ∈ (t.fields.map (fieldMember w useAlias t.className call aliased)).flatMap Member.names ↔
      InTypes w t n ∨ n = "Optional" ∧ w.on .nullChecks ∧ SomeMissing t ∨
        n = call ∧ useAlias ∧ t.fields.any Field.renamed := by
  simp only [List.flatMap_map, List.mem_flatMap, mem_names_fieldMember, and_or_left, exists_or,
    exists_names_optionalExpr_iff, or_assoc, List.any_eq_true]
  refine or_congr_right (or_congr_right ?_)
  constructor
  · rintro ⟨f, hf, hn, halias, hrenamed⟩
    exact ⟨hn, halias, f, hf, hrenamed⟩
  · rintro ⟨hn, halias, f, hf, hrenamed⟩
    exact ⟨f, hf, hn, halias, hrenamed⟩

theorem not_mem_names_doc : n ∉ (t.doc.toList.map Member.doc).flatMap Member.names := by
  cases t.doc <;> simp [Member.names]

theorem mem_names_memberIf {condition : Bool} {member : Member} :
    n ∈ (memberIf condition member).flatMap Member.names ↔ condition ∧ n ∈ member.names := by
  cases condition <;> simp [memberIf]

/-- The words of class methods that build objects. -/
def factoryWords : List String :=
  ["classmethod", "Dict", "str", "Any", "cls"]

/-- Besides generated types, the class method of a type uses the same names in all styles. -/
theorem mem_names_factoryMember (hn : Apart w t n) {construction : Construction}
    (hconstruction : construction = .validated ∨ construction = fieldwise w t.fields) :
    n ∈ (factoryMember t.className construction).names ↔ n ∈ factoryWords := by
  have hbuilt : n ∈ construction.names ↔ n = "cls" := by
    rcases hconstruction with rfl | rfl
    · exact List.mem_singleton
    · rw [fieldwise, Construction.names, List.mem_cons, or_iff_left]
      intro hmem
      simp only [List.flatMap_map, List.mem_flatMap] at hmem
      obtain ⟨f, hf, hmem⟩ := hmem
      obtain ⟨ref, href, rfl⟩ := mem_names_decoderOf hmem
      exact hn.references f hf ref href rfl
  simp only [factoryMember, Member.names, TypeExpr.names, List.mem_cons, List.mem_append, hbuilt,
    hn.className, factoryWords, List.not_mem_nil, or_false]
  tauto

theorem mem_names_dataclassOf_iff (hn : Apart w t n) :
    n ∈ (dataclassOf w settings useAlias t).names ↔
      n = "dataclass" ∨ InTypes w t n ∨ n = "Optional" ∧ w.on .nullChecks ∧ SomeMissing t ∨
        n = "field" ∧ useAlias ∧ t.fields.any Field.renamed ∨
        w.on .factoryMethods ∧ n ∈ factoryWords := by
  have hdecorator : n ∈ (if settings.frozen then Decorator.call ⟨"dataclass", [("frozen", "True")]⟩
      else .name "dataclass").names ↔ n = "dataclass" := by
    cases settings.frozen <;> exact List.mem_singleton
  have hpass : n ∉ Member.pass.names := List.not_mem_nil
  rw [dataclassOf, Declaration.names]
  simp only [List.flatMap_append, List.mem_append, not_mem_names_doc, mem_names_fields_iff,
    mem_names_memberIf, mem_names_factoryMember hn (.inr rfl), hpass, List.flatMap_cons,
    List.flatMap_nil, hdecorator, Option.toList_none, List.not_mem_nil, and_false, or_false,
    false_or, or_assoc]

theorem mem_names_modelOf_iff (hn : Apart w t n) :
    n ∈ (modelOf w settings useAlias t).names ↔
      n = "BaseModel" ∨ n = "ConfigDict" ∧ (useAlias || settings.extraForbid) ∨
        InTypes w t n ∨ n = "Optional" ∧ w.on .nullChecks ∧ SomeMissing t ∨
        n = "Field" ∧ useAlias ∧ t.fields.any Field.renamed ∨
        w.on .factoryMethods ∧ n ∈ factoryWords := by
  have hpass : n ∉ Member.pass.names := List.not_mem_nil
  have hsetting : ∀ arguments : List (String × String),
      n ∈ (Member.setting "model_config" ⟨"ConfigDict", arguments⟩).names ↔ n = "ConfigDict" :=
    fun _ => List.mem_singleton
  rw [modelOf, Declaration.names]
  simp only [List.flatMap_append, List.mem_append, not_mem_names_doc, mem_names_fields_iff,
    mem_names_memberIf, mem_names_factoryMember hn (.inl rfl), hpass, hsetting, List.flatMap_nil,
    Option.toList_some, List.mem_singleton, List.not_mem_nil, and_false, or_false, false_or,
    or_assoc, and_comm (b := n = "ConfigDict")]

theorem mem_names_dictionaryOf_iff (functional : Bool) :
    n ∈ (dictionaryOf w functional t).names ↔
      n = "TypedDict" ∨ InTypes w t n ∨ n = "Optional" ∧ w.on .nullChecks ∧ SomeMissing t ∨
        n = "NotRequired" ∧ SomeMissing t := by
  rw [dictionaryOf]
  cases functional with
  | true =>
      simp only [if_true, Declaration.names, List.mem_cons, List.flatMap_map, List.mem_flatMap,
        exists_names_itemExpr_iff]
  | false =>
      have hfields : n ∈ (t.fields.map fun f =>
          Member.field f.wireName (itemExpr w t.className f) .missing).flatMap Member.names ↔
          ∃ f ∈ t.fields, n ∈ (itemExpr w t.className f).names := by
        simp only [List.flatMap_map, Member.names, Default.names, List.append_nil, List.mem_flatMap]
      have hpass : n ∉ Member.pass.names := List.not_mem_nil
      simp only [Bool.false_eq_true, if_false, Declaration.names, List.flatMap_append,
        List.mem_append, not_mem_names_doc, hfields, exists_names_itemExpr_iff, mem_names_memberIf,
        hpass, List.flatMap_nil, Option.toList_some, List.mem_singleton, List.not_mem_nil, and_false,
        or_false, false_or]

/-! ## Imported names -/

theorem mem_names_importsOf_iff {fields : List Field} :
    n ∈ (importsOf w settings useAlias fields).flatMap Import.names ↔
      settings.style = .dataclass ∧ (n = "dataclass" ∨ n = "field" ∧ useAlias) ∨
        n ∈ typingNames w settings.style fields ∨
        settings.style = .pydantic ∧ (n = "BaseModel" ∨
          n = "ConfigDict" ∧ (useAlias || settings.extraForbid) ∨ n = "Field" ∧ useAlias) := by
  have hif : ∀ (condition : Bool) (name : String),
      n ∈ onlyIf condition [name] ↔ n = name ∧ condition := by
    intro condition name
    cases condition <;> simp [onlyIf]
  have htyping : ∀ names : List String,
      n ∈ (if names = [] then [] else [(⟨"typing", names⟩ : Import)]).flatMap Import.names ↔
        n ∈ names := by
    intro names
    cases names <;> simp
  rw [importsOf]
  cases settings.style <;> simp [htyping, hif, or_assoc]

/-- The search in the types finds what stands in them. -/
theorem any_usesName_iff (ht : Typed w t) {name : String} (hname : name ≠ "") :
    (t.fields.any fun f => usesName name f.type) ↔ InTypes w t name := by
  simp only [List.any_eq_true, InTypes]
  refine exists_congr fun f => and_congr_right fun hf => ?_
  rw [← ht.text_eq f hf, TypeExpr.usesName_text_iff (ht.plain f hf) hname]

theorem mem_typingNames_iff (ht : Typed w t) {style : Style} :
    n ∈ typingNames w style t.fields ↔
      n = "Any" ∧ (InTypes w t "Any" ∨ style ≠ .typeddict ∧ w.on .factoryMethods) ∨
        n = "Dict" ∧ (InTypes w t "Dict" ∨ style ≠ .typeddict ∧ w.on .factoryMethods) ∨
        n = "List" ∧ InTypes w t "List" ∨ n = "NotRequired" ∧ style = .typeddict ∧ SomeMissing t ∨
        n = "Optional" ∧ w.on .nullChecks ∧ SomeMissing t ∨ n = "TypedDict" ∧ style = .typeddict := by
  have hmissing : (t.fields.any fun f => !f.required) ↔ SomeMissing t := by
    simp [SomeMissing]
  have hany := any_usesName_iff ht (by decide : "Any" ≠ "")
  have hdict := any_usesName_iff ht (by decide : "Dict" ≠ "")
  have hlist := any_usesName_iff ht (by decide : "List" ≠ "")
  simp only [typingNames, List.mem_filterMap, List.mem_cons, List.not_mem_nil, or_false,
    exists_eq_or_imp, exists_eq_left, Option.ite_none_right_eq_some, Option.some.injEq,
    Bool.or_eq_true, Bool.and_eq_true, bne_iff_ne, ne_eq, beq_iff_eq, hany, hdict, hlist, hmissing,
    eq_comm (b := n), and_comm (b := n = _)]

/-! ## Imported and used -/

/-- Of the names that are imported from libraries, the types of fields have at most three. -/
theorem inTypes_iff (hn : Apart w t n) (himportable : n ∈ importable) :
    InTypes w t n ↔ n = "Any" ∧ InTypes w t "Any" ∨ n = "Dict" ∧ InTypes w t "Dict" ∨
      n = "List" ∧ InTypes w t "List" := by
  constructor
  · intro htypes
    have hword : n ∈ typeWords := by
      obtain ⟨f, hf, hmem⟩ := htypes
      rcases mem_names_typeExpr hmem with hword | rfl | ⟨ref, href, rfl⟩
      · exact hword
      · exact absurd rfl hn.className
      · exact absurd rfl (hn.references f hf ref href)
    have hcommon : ∀ word ∈ typeWords, word ∈ importable →
        word = "Any" ∨ word = "Dict" ∨ word = "List" := by decide
    rcases hcommon n hword himportable with rfl | rfl | rfl
    · exact .inl ⟨rfl, htypes⟩
    · exact .inr (.inl ⟨rfl, htypes⟩)
    · exact .inr (.inr ⟨rfl, htypes⟩)
  · rintro (⟨rfl, htypes⟩ | ⟨rfl, htypes⟩ | ⟨rfl, htypes⟩) <;> exact htypes

theorem mem_factoryWords_iff (himportable : n ∈ importable) :
    n ∈ factoryWords ↔ n = "Any" ∨ n = "Dict" := by
  have hcommon : ∀ word ∈ importable, word ∈ factoryWords ↔ word = "Any" ∨ word = "Dict" := by decide
  exact hcommon n himportable

/-- In every style, what is imported from libraries is what the declaration uses. -/
theorem mem_importsOf_iff_mem_declarationOf (ht : Typed w t) (hn : Apart w t n)
    (halias : useAlias → t.fields.any Field.renamed) (himportable : n ∈ importable) :
    n ∈ (importsOf w settings useAlias t.fields).flatMap Import.names ↔
      n ∈ (declarationOf w settings useAlias t).names := by
  have hused := inTypes_iff hn himportable
  have hfactory := mem_factoryWords_iff himportable
  have hcalls : useAlias ∧ t.fields.any Field.renamed ↔ useAlias := and_iff_left_of_imp halias
  rw [mem_names_importsOf_iff, mem_typingNames_iff ht, declarationOf]
  cases settings.style with
  | dataclass =>
      simp only [mem_names_dataclassOf_iff hn, hused, hfactory, hcalls, reduceCtorEq, false_and,
        and_false, or_false, true_and, ne_eq, not_false_eq_true]
      grind
  | pydantic =>
      simp only [mem_names_modelOf_iff hn, hused, hfactory, hcalls, reduceCtorEq, false_and,
        and_false, or_false, false_or, true_and, ne_eq, not_false_eq_true]
      grind
  | typeddict =>
      simp only [mem_names_dictionaryOf_iff, hused, reduceCtorEq, false_and, or_false, false_or,
        and_true, true_and, ne_eq, not_true_eq_false]
      grind

/-- Apart from generated types, a module imports what its declaration uses. -/
theorem mem_imported_iff (ht : Typed w t) (hn : Apart w t n)
    (hreferences : ∀ r ∈ t.references, n ≠ r.2) (himportable : n ∈ importable) :
    n ∈ (moduleOf w t).imported ↔ n ∈ (moduleOf w t).declaration.names := by
  have hfuture : ∀ condition, n ∉ onlyIf condition ["annotations"] := by
    have hnot : "annotations" ∉ importable := by decide
    rintro (_ | _) hmem
    · cases hmem
    · exact hnot (List.mem_singleton.mp hmem ▸ himportable)
  have hgenerated : ∀ style, n ∉ (referencesOf (arranged style t)).flatMap Import.names := by
    intro style
    rw [referencesOf, List.flatMap_map, List.mem_flatMap]
    rintro ⟨r, hr, hmem⟩
    exact hreferences r hr (List.mem_singleton.mp hmem)
  have halias : ∀ style, usesAlias w t → (arranged style t).fields.any Field.renamed := by
    intro style halias
    rw [usesAlias, Bool.and_eq_true] at halias
    obtain ⟨f, hf, hrenamed⟩ := List.any_eq_true.mp halias.2
    exact List.any_eq_true.mpr ⟨f, mem_arranged_fields.mpr hf, hrenamed⟩
  rw [moduleOf, Module.imported, List.mem_append, List.mem_append, or_iff_left (hgenerated _),
    or_iff_right (hfuture _)]
  exact mem_importsOf_iff_mem_declarationOf (ht.arranged _) (hn.arranged _) (halias _) himportable

end DtoForge.Python

namespace DtoForge.Generator

open Python

variable {g : Generator} {schema : Schema} {stem : RawText} {t : TypeSource} {n : String}

theorem dialect_of_python (htarget : g.target = .python) : g.writer.dialect = Python.dialect := by
  rw [writer, htarget]
  rfl

/-- Names of types have only the characters of words. -/
theorem isWordChar_of_mem_typeName (g : Generator) (name : String) :
    ∀ c ∈ (g.writer.typeName name).toList, Naming.isWordChar c := by
  have hadmits := Naming.admits_typeIdentifier g.vocabulary_clear
    (g.options.namePrefix.display ++ Naming.orElse (g.options.naming.casing.apply name) "Root" ++
      g.options.nameSuffix.display)
  obtain ⟨c, cs, hchars, hstart, hrest⟩ :=
    Naming.isIdentifier_iff.mp (Naming.Vocabulary.admits_iff.mp hadmits).1
  have hname : (g.writer.typeName name).toList = c :: cs := hchars
  rw [hname, List.forall_mem_cons]
  refine ⟨?_, hrest⟩
  rcases hstart with halpha | rfl
  · simp [Naming.isWordChar, Char.isAlphanum, halpha]
  · rfl

/-- The types of Python fields are the texts of their expressions. -/
theorem typed_of_source (htarget : g.target = .python) (h : g.source schema stem = .ok t) :
    Typed g.writer t := by
  obtain ⟨hclass, hfields⟩ := fieldsFrom_of_source h
  refine ⟨fun f hf => ?_, fun f _ => ?_⟩
  · exact text_typeExpr (dialect_of_python htarget)
      (g.writer.typeOf_of_mem_fieldsFrom hfields f hf)
  · rw [hclass]
    exact plain_typeExpr (isWordChar_of_mem_typeName g) stem.legible f.schema

/-- A name that is neither that of the type nor of one that its properties refer to. -/
theorem apart_of_source (h : g.source schema stem = .ok t)
    (hname : n ≠ g.writer.typeName stem.legible)
    (hreferences : ∀ p ∈ schema.properties, ∀ ref : RawText,
      Writer.refOf p.2 = some (.str ref) → n ≠ g.writer.typeName ref.legible) :
    Apart g.writer t n := by
  obtain ⟨hclass, hfields⟩ := fieldsFrom_of_source h
  refine ⟨hclass ▸ hname, fun f hf ref href => ?_⟩
  obtain ⟨p, hp, hschema⟩ := g.writer.exists_property_of_mem hfields hf
  rw [← hschema] at href
  obtain ⟨stem, rfl⟩ := exists_str_of_source h p hp ref href
  exact hreferences p hp stem href

/-! ## Main result -/

/-- **Python modules import what they use.** The code of a type is a module, in each of the three
styles. Unless the type itself or one that its properties refer to is named like a name that generated
modules import from libraries, each of these names is imported exactly if the declaration uses it: in
the type of a field, as a decorator or a base class, in a call or in the class method that builds
objects from documents. For objects whose references are texts, code is generated. -/
theorem imported_iff_used {g : Generator} (htarget : g.target = .python) (schema : Schema) :
    (schema.isObject = true →
      (∀ p ∈ schema.properties, ∀ ref, Writer.refOf p.2 = some ref → ∃ stem, ref = .str stem) →
      ∀ name, ∃ code, g.generate schema (.str name) = .ok code) ∧
    ∀ name code, g.generate schema name = .ok code →
      ∃ stem t, name = .str stem ∧ g.source schema stem = .ok t ∧ code = g.written t ∧
        g.codeOf t = (moduleOf g.writer t).lines ∧
        (g.writer.typeName stem.legible ∉ importable →
          (∀ p ∈ schema.properties, ∀ ref : RawText, Writer.refOf p.2 = some (.str ref) →
            g.writer.typeName ref.legible ∉ importable) →
          ∀ n ∈ importable,
            n ∈ (moduleOf g.writer t).imported ↔ n ∈ (moduleOf g.writer t).declaration.names) := by
  constructor
  · exact g.exists_generate_of_ne_go (by simp [htarget])
  · intro name code hcode
    obtain ⟨stem, t, rfl, ht, rfl⟩ := exists_source_of_generate_eq_ok hcode
    have htyped := typed_of_source htarget ht
    refine ⟨stem, t, rfl, ht, rfl, ?_, fun hname hreferences n himportable => ?_⟩
    · rw [codeOf, htarget]
      exact code_eq htyped.text_eq
    · have hother : ∀ p ∈ schema.properties, ∀ ref : RawText,
          Writer.refOf p.2 = some (.str ref) → n ≠ g.writer.typeName ref.legible :=
        fun p hp ref href h => hreferences p hp ref href (h ▸ himportable)
      refine mem_imported_iff htyped (apart_of_source ht (fun h => hname (h ▸ himportable)) hother)
        ?_ himportable
      intro r hr
      obtain ⟨p, hp, ref, href, rfl⟩ := references_of_source ht r hr
      exact hother p hp ref href

/-- A data class with aliases and a class method, some types of which have subscripts in
subscripts. -/
theorem imported_iff_used_dataclass :
    let g : Generator := ⟨.python,
      { setting := fun f => .bool (f = .annotations || f = .factoryMethods || f = .nullChecks)
        custom := [(.str "style", .str "DataClass")] }⟩
    let schema : Schema :=
      .object [("order lines", .array (.object [] [] none) none),
        ("customer", .object [("id", .leaf .number none)] [] (some (.str "Customer"))),
        ("note", .leaf .unknown none)] [.str "customer"] none
    g.target = .python ∧ g.writer.typeName "Order" ∉ importable ∧
      (∀ p ∈ schema.properties, ∀ ref : RawText, Writer.refOf p.2 = some (.str ref) →
        g.writer.typeName ref.legible ∉ importable) ∧
      ∃ t, g.source schema "Order" = .ok t ∧
        (moduleOf g.writer t).imported =
          ["annotations", "dataclass", "field", "Any", "Dict", "List", "Optional", "Customer"] ∧
        ∀ n ∈ importable,
          n ∈ (moduleOf g.writer t).imported ↔ n ∈ (moduleOf g.writer t).declaration.names := by
  intro g schema
  have hname : g.writer.typeName "Order" ∉ importable := by decide +kernel
  have hcustomer : g.writer.typeName "Customer" ∉ importable := by decide +kernel
  have hrefs : ∀ p ∈ schema.properties, ∀ ref, Writer.refOf p.2 = some ref →
      ref = .str "Customer" := by
    simp [schema, Schema.properties, Writer.refOf, Writer.itemOf, eq_comm]
  have hreferences : ∀ p ∈ schema.properties, ∀ ref : RawText,
      Writer.refOf p.2 = some (.str ref) → g.writer.typeName ref.legible ∉ importable := by
    intro p hp ref href
    rw [Json.str.inj (hrefs p hp _ href)]
    exact hcustomer
  obtain ⟨hgenerates, hexact⟩ := imported_iff_used (g := g) rfl schema
  obtain ⟨code, hcode⟩ :=
    hgenerates rfl (fun p hp ref href => ⟨"Customer", hrefs p hp ref href⟩) "Order"
  obtain ⟨stem, t, hstem, ht, -, -, himported⟩ := hexact _ _ hcode
  obtain rfl := Json.str.inj hstem
  have hnames : (g.source schema "Order").map (fun t => (moduleOf g.writer t).imported) =
      .ok ["annotations", "dataclass", "field", "Any", "Dict", "List", "Optional", "Customer"] := by
    decide +kernel
  rw [ht] at hnames
  exact ⟨rfl, hname, hreferences, t, ht, Except.ok.inj hnames, himported hname hreferences⟩

end DtoForge.Generator
