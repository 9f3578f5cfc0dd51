import DtoForge.Proofs.Python.TypeExpr

/-! # Modules — the syntax of generated Python code

The code of a type is a module: imports and one declaration, which is a class in two of the styles and
may be an assignment in the third. Here the parts of modules are data, each with its lines and with
the names that it uses, and the lines of generated code are those of a module (`code_eq`). So what is
imported and what is used can be read off the parts. -/

namespace DtoForge.Python

open Source

/-! ## Imports -/

/-- Names that are imported from one place. -/
structure Import where
  origin : String
  names : List String

/-- The line of an import. -/
def Import.line (i : Import) : String :=
  "from " ++ i.origin ++ " import " ++ String.intercalate ", " i.names

/-! ## Declarations -/

/-- A call with named arguments. -/
structure Call where
  function : String
  arguments : List (String × String)

/-- The text of a call. -/
def Call.text (c : Call) : String :=
  c.function ++ "(" ++
    String.intercalate ", " (c.arguments.map fun (key, value) => key ++ "=" ++ value) ++ ")"

/-- A decorator is a name, or a call. -/
inductive Decorator where
  | name (n : String)
  | call (c : Call)

namespace Decorator

/-- The text behind the at sign. -/
def text : Decorator → String
  | .name n => n
  | .call c => c.text

/-- The names that a decorator uses. -/
def names : Decorator → List String
  | .name n => [n]
  | .call c => [c.function]

end Decorator

/-- What a field is set to. -/
inductive Default where
  | missing
  | nothing
  | call (c : Call)

namespace Default

/-- The text behind the type of a field. -/
def text : Default → String
  | .missing => ""
  | .nothing => " = None"
  | .call c => " = " ++ c.text

/-- The names that a value uses. -/
def names : Default → List String
  | .missing | .nothing => []
  | .call c => [c.function]

end Default

/-- How the value of a field is built from its document. -/
inductive Decoder where
  /-- The document itself. -/
  | given
  /-- An object of a generated type. -/
  | build (type : String)
  /-- A list, item by item. -/
  | each (item : Decoder)

namespace Decoder

/-- The expression that decodes what an expression stands for. -/
def text (expr : String) (isOptional : Bool) : Decoder → String
  | .given => expr
  | .build type =>
    type ++ ".from_dict(" ++ expr ++ ")" ++
      partIf isOptional (" if " ++ expr ++ " is not None else None")
  | .each item =>
    "[" ++ item.text "item" false ++ " for item in " ++ expr ++ "]" ++
      partIf isOptional (" if " ++ expr ++ " is not None else None")

/-- The types that a decoder builds. -/
def names : Decoder → List String
  | .given => []
  | .build type => [type]
  | .each item => item.names

end Decoder

/-- How a class builds its objects from documents. -/
inductive Construction where
  /-- By the validation that the base class has. -/
  | validated
  /-- Field by field: the name, the access to its document, whether it may be missing and how it is
  decoded. -/
  | fields (parts : List (String × String × Bool × Decoder))

namespace Construction

/-- The lines of a construction in the body of its method. -/
def lines : Construction → Lines
  | .validated => ["        return cls.model_validate(data)"]
  | .fields parts =>
    ["        return cls("] ++
      parts.map (fun (name, access, isOptional, decoder) =>
        "            " ++ name ++ "=" ++ decoder.text access isOptional ++ ",") ++
      ["        )"]

/-- The names that a construction uses. -/
def names : Construction → List String
  | .validated => ["cls"]
  | .fields parts => "cls" :: parts.flatMap fun (_, _, _, decoder) => decoder.names

end Construction

/-- A part of the body of a class. -/
inductive Member where
  | doc (text : String)
  | setting (name : String) (value : Call)
  | field (name : String) (type : TypeExpr) (default : Default)
  | pass
  /-- The class method that builds an object from a document. -/
  | factory (document result : TypeExpr) (construction : Construction)

namespace Member

/-- The lines of a member. -/
def lines : Member → Lines
  | .doc text => ["    \"\"\"" ++ text ++ "\"\"\"", ""]
  | .setting name value => ["    " ++ name ++ " = " ++ value.text, ""]
  | .field name type default => ["    " ++ name ++ ": " ++ type.text ++ default.text]
  | .pass => ["    pass"]
  | .factory document result construction =>
    ["", "    @classmethod",
      "    def from_dict(cls, data: " ++ document.text ++ ") -> " ++ result.text ++ ":"] ++
      construction.lines

/-- The names that a member uses. What a class itself names is not among them. -/
def names : Member → List String
  | .doc _ | .pass => []
  | .setting _ value => [value.function]
  | .field _ type default => type.names ++ default.names
  | .factory document result construction =>
    "classmethod" :: (document.names ++ result.names ++ construction.names)

end Member

/-- What a module declares. -/
inductive Declaration where
  | classType (decorators : List Decorator) (name : String) (base : Option String)
      (members : List Member)
  /-- A typed dictionary by a call, with a type for each key. -/
  | dictionary (name : String) (doc : Option String) (items : List (String × TypeExpr))

namespace Declaration

/-- The lines of a declaration, with the blank ones in front of it. -/
def lines : Declaration → Lines
  | .classType decorators name base members =>
    ["", ""] ++ decorators.map (fun d => "@" ++ d.text) ++
      ["class " ++ name ++ (base.elim "" fun b => "(" ++ b ++ ")") ++ ":"] ++
      members.flatMap Member.lines
  | .dictionary name doc items =>
    [""] ++ (doc.elim [] fun text => ["# " ++ text]) ++
      [name ++ " = TypedDict(", "    " ++ Text.doubleQuoted name ++ ",", "    \x7b"] ++
      items.map (fun (key, type) =>
        "        " ++ Text.doubleQuoted key ++ ": " ++ type.text ++ ",") ++
      ["    \x7d,", ")"]

/-- The names that a declaration uses. -/
def names : Declaration → List String
  | .classType decorators _ base members =>
    decorators.flatMap Decorator.names ++ base.toList ++ members.flatMap Member.names
  | .dictionary _ _ items => "TypedDict" :: items.flatMap fun (_, type) => type.names

end Declaration

/-- A module with one declaration. -/
structure Module where
  /-- Whether annotations are read late. -/
  future : Bool
  imports : List Import
  /-- Imports of generated types. -/
  references : List Import
  declaration : Declaration

namespace Module

/-- The lines of a module: imports, imports of generated types and the declaration. -/
def lines (m : Module) : Lines :=
  onlyIf m.future ["from __future__ import annotations", ""] ++ m.imports.map Import.line ++
    onlyIf (!m.references.isEmpty) ("" :: m.references.map Import.line) ++ m.declaration.lines

/-- The names that a module imports. -/
def imported (m : Module) : List String :=
  onlyIf m.future ["annotations"] ++ m.imports.flatMap Import.names ++
    m.references.flatMap Import.names

end Module

/-! ## The module of a type -/

variable (w : Writer) (settings : Settings) (useAlias : Bool)

/-- The imports of what a type uses. -/
def importsOf (fields : List Field) : List Import :=
  let typing := typingNames w settings.style fields
  (if settings.style = .dataclass then
      [⟨"dataclasses", "dataclass" :: onlyIf useAlias ["field"]⟩] else []) ++
    (if typing = [] then [] else [⟨"typing", typing⟩]) ++
    (if settings.style = .pydantic then
      [⟨"pydantic", "BaseModel" ::
        (onlyIf (useAlias || settings.extraForbid) ["ConfigDict"] ++ onlyIf useAlias ["Field"])⟩]
      else [])

/-- The imports of the types that a type refers to. -/
def referencesOf (t : TypeSource) : List Import :=
  t.references.map fun (stem, name) => ⟨"." ++ stem.legible, [name]⟩

/-- The type of a field that may be missing. -/
def optionalExpr (className : String) (f : Field) : TypeExpr :=
  let type := typeExpr w className f.schema
  if !f.required && w.on .nullChecks then .subscript "Optional" type else type

/-- The type of a field in a typed dictionary. -/
def itemExpr (className : String) (f : Field) : TypeExpr :=
  if f.required then typeExpr w className f.schema
  else .subscript "NotRequired" (optionalExpr w className f)

/-- The decoder of a schema. -/
def decoderOf : Schema → Decoder
  | .object _ _ (some ref) => .build (w.typeName ref.display)
  | .array items _ => if needsDecoding items then .each (decoderOf items) else .given
  | _ => .given

/-- The field of a class. A renamed field keeps its name in documents as an argument of a call. -/
def fieldMember (className call : String) (aliased : Field → String × String) (f : Field) : Member :=
  .field f.name (optionalExpr w className f)
    (if useAlias && f.renamed then
      .call ⟨call, (if f.required then [] else [("default", "None")]) ++ [aliased f]⟩
    else if f.required then .missing else .nothing)

/-- The construction of a data class, in which every field is decoded. -/
def fieldwise (fields : List Field) : Construction :=
  .fields (fields.map fun f =>
    let key := Text.quoted f.wireName
    (f.name, if f.required then "data[" ++ key ++ "]" else "data.get(" ++ key ++ ")", !f.required,
      decoderOf w f.schema))

/-- The class method of a type. -/
def factoryMember (className : String) (construction : Construction) : Member :=
  .factory (.subscript "Dict" (.pair (.name "str") (.name "Any"))) (.name className) construction

/-- A member that is there only under a condition. -/
def memberIf (condition : Bool) (member : Member) : List Member :=
  if condition then [member] else []

/-- The class of a data class. -/
def dataclassOf (t : TypeSource) : Declaration :=
  let factory := w.on .factoryMethods
  .classType
    [if settings.frozen then .call ⟨"dataclass", [("frozen", "True")]⟩ else .name "dataclass"]
    t.className none
    (t.doc.toList.map .doc ++
      t.fields.map (fieldMember w useAlias t.className "field" fun f =>
        ("metadata", "\x7b\"json\": " ++ Text.doubleQuoted f.wireName ++ "\x7d")) ++
      memberIf (t.fields.isEmpty && t.doc.isNone && !factory) .pass ++
      memberIf factory (factoryMember t.className (fieldwise w t.fields)))

/-- The class of a model. -/
def modelOf (t : TypeSource) : Declaration :=
  let factory := w.on .factoryMethods
  let configured := useAlias || settings.extraForbid
  .classType [] t.className (some "BaseModel")
    (t.doc.toList.map .doc ++
      memberIf configured (.setting "model_config" ⟨"ConfigDict",
        (if useAlias then [("populate_by_name", "True")] else []) ++
          if settings.extraForbid then [("extra", "\"forbid\"")] else []⟩) ++
      t.fields.map (fieldMember w useAlias t.className "Field" fun f =>
        ("alias", Text.doubleQuoted f.wireName)) ++
      memberIf (t.fields.isEmpty && t.doc.isNone && !configured && !factory) .pass ++
      memberIf factory (factoryMember t.className .validated))

/-- A typed dictionary. -/
def dictionaryOf (functional : Bool) (t : TypeSource) : Declaration :=
  if functional then
    .dictionary t.className t.doc (t.fields.map fun f => (f.wireName, itemExpr w t.className f))
  else
    .classType [] t.className (some "TypedDict")
      (t.doc.toList.map .doc ++
        t.fields.map (fun f => .field f.wireName (itemExpr w t.className f) .missing) ++
        memberIf (t.fields.isEmpty && t.doc.isNone) .pass)

/-- Whether fields keep their names in documents as aliases. -/
def usesAlias (t : TypeSource) : Bool :=
  w.on .annotations && t.fields.any Field.renamed

/-- The type with its fields in the order of its class. -/
def arranged (style : Style) (t : TypeSource) : TypeSource :=
  { t with fields :=
      if style == .dataclass then t.fields.filter (·.required) ++ t.fields.filter (!·.required)
      else t.fields }

/-- Whether a typed dictionary is written as a call. -/
def isFunctional (style : Style) (t : TypeSource) : Bool :=
  style == .typeddict && !t.fields.all fun f => isMemberName f.wireName

/-- The declaration of a type. -/
def declarationOf (t : TypeSource) : Declaration :=
  match settings.style with
  | .dataclass => dataclassOf w settings useAlias t
  | .pydantic => modelOf w settings useAlias t
  | .typeddict => dictionaryOf w (isFunctional settings.style t) t

/-- The module of a type. -/
def moduleOf (source : TypeSource) : Module :=
  let settings := Settings.of w.options
  let t := arranged settings.style source
  { future := !isFunctional settings.style t
    imports := importsOf w settings (usesAlias w source) t.fields
    references := referencesOf t
    declaration := declarationOf w settings (usesAlias w source) t }

/-! ## Lines of generated code -/

variable {w settings useAlias} {className : String} {f : Field} {t : TypeSource}

/-- The imports are those of the generated code. -/
theorem lines_importsOf (fields : List Field) :
    (importsOf w settings useAlias fields).map Import.line =
      importLines w settings useAlias fields := by
  have hdata : (⟨"dataclasses", "dataclass" :: onlyIf useAlias ["field"]⟩ : Import).line =
      "from dataclasses import dataclass" ++ partIf useAlias ", field" := by
    cases useAlias <;> rfl
  have htyping : ∀ names : List String,
      (if names = [] then [] else [(⟨"typing", names⟩ : Import)]).map Import.line =
        onlyIf (!names.isEmpty) ["from typing import " ++ String.intercalate ", " names] := by
    intro names
    cases names <;> rfl
  rw [importsOf, importLines, List.map_append, List.map_append, htyping]
  cases settings.style <;>
    simp only [reduceCtorEq, if_true, if_false, List.map_cons, List.map_nil, hdata] <;> rfl

/-- So are the imports of generated types, behind a blank line. -/
theorem lines_referencesOf :
    onlyIf (!(referencesOf t).isEmpty) ("" :: (referencesOf t).map Import.line) =
      referenceLines t := by
  have hline : ∀ stem name : String, (⟨"." ++ stem, [name]⟩ : Import).line =
      "from ." ++ stem ++ " import " ++ name := by
    intro stem name
    rw [Import.line, ← String.append_assoc]
    simp
  rw [referenceLines, referencesOf]
  simp [Function.comp_def, hline]

theorem text_optionalExpr (hf : (typeExpr w className f.schema).text = f.type) :
    (optionalExpr w className f).text = optionalType w f := by
  rw [optionalExpr, optionalType]
  split
  · rw [TypeExpr.text, hf]
    rfl
  · exact hf

theorem text_itemExpr (hf : (typeExpr w className f.schema).text = f.type) :
    (itemExpr w className f).text = dictionaryType w f := by
  rw [itemExpr, dictionaryType]
  split
  · exact hf
  · rw [TypeExpr.text, text_optionalExpr hf]
    rfl

/-- A decoder is written as the generated code decodes. -/
theorem text_decoderOf (expr : String) (isOptional : Bool) (s : Schema) :
    (decoderOf w s).text expr isOptional = decode w expr isOptional s := by
  induction s generalizing expr isOptional with
  | object ps required ref => cases ref <;> rfl
  | array items ref ih =>
      rw [decoderOf, decode]
      split
      · rw [Decoder.text, ih]
      · rfl
  | leaf l ref => rfl

/-- A field takes one line, whatever keeps its name in documents. -/
theorem lines_fieldMember {call opening closing : String} {aliased : Field → String × String}
    (haliased : (aliased f).1 ++ "=" ++ (aliased f).2 =
      opening ++ Text.doubleQuoted f.wireName ++ closing)
    (hf : (typeExpr w className f.schema).text = f.type) :
    (fieldMember w useAlias className call aliased f).lines =
      [fieldLine w useAlias call opening closing f] := by
  have htype : (optionalExpr w className f).text = classType w f := by
    rw [text_optionalExpr hf, classType, optionalType]
    cases f.required <;> rfl
  have hcall : Call.text ⟨call, (if f.required then [] else [("default", "None")]) ++ [aliased f]⟩ =
      call ++ "(" ++ partIf (!f.required) "default=None, " ++ opening ++
        Text.doubleQuoted f.wireName ++ closing ++ ")" := by
    simp only [Call.text, String.append_assoc] at haliased ⊢
    cases f.required <;> simp [partIf, haliased, String.append_assoc, String.intercalate_cons_cons]
  rw [fieldMember, Member.lines, htype, fieldLine]
  split
  · rw [Default.text, hcall]
    simp [String.append_assoc]
  · cases f.required <;> simp [Default.text, partIf]

/-- A construction field by field is that of the generated class method. -/
theorem lines_fieldwise (fields : List Field) :
    (fieldwise w fields).lines =
      ["        return cls("] ++
        fields.map (fun f => "            " ++ f.name ++ "=" ++ fieldDecoder w f ++ ",") ++
        ["        )"] := by
  simp only [fieldwise, Construction.lines, List.map_map, Function.comp_def, text_decoderOf]
  rfl

theorem lines_factoryMember (construction : Construction) :
    (factoryMember t.className construction).lines = factoryLines t construction.lines :=
  rfl

theorem lines_doc (t : TypeSource) :
    (t.doc.toList.map Member.doc).flatMap Member.lines = docLines t := by
  rw [docLines]
  cases t.doc <;> rfl

theorem lines_memberIf (condition : Bool) (member : Member) :
    (memberIf condition member).flatMap Member.lines = onlyIf condition member.lines := by
  cases condition <;> simp [memberIf, onlyIf]

/-- Members of one line each. -/
theorem lines_map {fields : List Field} {member : Field → Member} {line : Field → String}
    (h : ∀ f ∈ fields, (member f).lines = [line f]) :
    (fields.map member).flatMap Member.lines = fields.map line := by
  induction fields with
  | nil => rfl
  | cons f fields ih =>
      obtain ⟨hf, hfields⟩ := List.forall_mem_cons.mp h
      rw [List.map_cons, List.flatMap_cons, hf, ih hfields]
      rfl

section

variable (htypes : ∀ f ∈ t.fields, (typeExpr w t.className f.schema).text = f.type)
include htypes

theorem lines_dataclassOf :
    (dataclassOf w settings useAlias t).lines = dataclassLines w settings useAlias t := by
  have hfields : (t.fields.map (fieldMember w useAlias t.className "field" fun f =>
      ("metadata", "\x7b\"json\": " ++ Text.doubleQuoted f.wireName ++ "\x7d"))).flatMap
        Member.lines =
      t.fields.map (fieldLine w useAlias "field" "metadata=\x7b\"json\": " "\x7d") :=
    lines_map fun f hf =>
      lines_fieldMember (by simp only [String.append_assoc]; rfl) (htypes f hf)
  have hdecorator : "@" ++ (if settings.frozen then Decorator.call ⟨"dataclass", [("frozen", "True")]⟩
      else .name "dataclass").text = "@dataclass" ++ partIf settings.frozen "(frozen=True)" := by
    cases settings.frozen <;> rfl
  rw [dataclassOf, dataclassLines, Declaration.lines]
  simp only [List.flatMap_append, lines_doc, hfields, lines_memberIf, lines_factoryMember,
    lines_fieldwise, List.map_cons, List.map_nil, hdecorator]
  simp [Member.lines]

/-- The class of a model is the generated one. -/
theorem lines_modelOf :
    (modelOf w settings useAlias t).lines = modelLines w settings useAlias t := by
  have hfields : (t.fields.map (fieldMember w useAlias t.className "Field" fun f =>
      ("alias", Text.doubleQuoted f.wireName))).flatMap Member.lines =
      t.fields.map (fieldLine w useAlias "Field" "alias=" "") :=
    lines_map fun f hf =>
      lines_fieldMember (by simp only [String.append_empty]; rfl) (htypes f hf)
  have hsetting : (Member.setting "model_config" ⟨"ConfigDict",
      (if useAlias then [("populate_by_name", "True")] else []) ++
        if settings.extraForbid then [("extra", "\"forbid\"")] else []⟩).lines =
      ["    model_config = ConfigDict(" ++ partIf useAlias "populate_by_name=True" ++
        partIf (useAlias && settings.extraForbid) ", " ++
        partIf settings.extraForbid "extra=\"forbid\"" ++ ")", ""] := by
    cases useAlias <;> cases settings.extraForbid <;> rfl
  rw [modelOf, modelLines, Declaration.lines]
  simp only [List.flatMap_append, lines_doc, hfields, lines_memberIf, hsetting,
    lines_factoryMember, List.map_nil]
  simp [Member.lines, Construction.lines, String.append_assoc]

theorem lines_dictionaryOf (functional : Bool) :
    (dictionaryOf w functional t).lines = dictionaryLines w functional t := by
  have hitems : ∀ f ∈ t.fields, (itemExpr w t.className f).text = dictionaryType w f :=
    fun f hf => text_itemExpr (htypes f hf)
  rw [dictionaryOf, dictionaryLines]
  cases functional with
  | true =>
      simp only [if_true, Declaration.lines, List.map_map]
      have hlines : t.fields.map ((fun p : String × TypeExpr =>
          "        " ++ Text.doubleQuoted p.1 ++ ": " ++ p.2.text ++ ",") ∘
            fun f => (f.wireName, itemExpr w t.className f)) =
          t.fields.map fun f =>
            "        " ++ Text.doubleQuoted f.wireName ++ ": " ++ dictionaryType w f ++ "," :=
        List.map_congr_left fun f hf => by simp only [Function.comp_apply, hitems f hf]
      rw [hlines]
      cases t.doc <;> rfl
  | false =>
      have hlines : (t.fields.map fun f =>
          Member.field f.wireName (itemExpr w t.className f) .missing).flatMap Member.lines =
          t.fields.map fun f => "    " ++ f.wireName ++ ": " ++ dictionaryType w f :=
        lines_map fun f hf => by simp [Member.lines, hitems f hf, Default.text]
      simp only [Bool.false_eq_true, if_false, Declaration.lines, List.flatMap_append, lines_doc,
        hlines, lines_memberIf, List.map_nil]
      simp [Member.lines, String.append_assoc]

end

theorem mem_arranged_fields {style : Style} : f ∈ (arranged style t).fields ↔ f ∈ t.fields := by
  rw [arranged]
  split
  · simp only [List.mem_append, List.mem_filter]
    cases f.required <;> simp
  · rfl

/-- **The code of a type is a module.** -/
theorem code_eq {source : TypeSource}
    (htypes : ∀ f ∈ source.fields, (typeExpr w source.className f.schema).text = f.type) :
    code w source = (moduleOf w source).lines := by
  have hordered : ∀ f ∈ (arranged (Settings.of w.options).style source).fields,
      (typeExpr w source.className f.schema).text = f.type :=
    fun f hf => htypes f (mem_arranged_fields.mp hf)
  rw [code, moduleOf, Module.lines]
  dsimp only
  rw [lines_importsOf, lines_referencesOf, declarationOf]
  cases hstyle : (Settings.of w.options).style with
  | dataclass =>
      rw [hstyle] at hordered
      have hfunctional : isFunctional .dataclass (arranged .dataclass source) = false := rfl
      simp only [hfunctional, lines_dataclassOf hordered, List.append_assoc]
      rfl
  | pydantic =>
      rw [hstyle] at hordered
      have hfunctional : isFunctional .pydantic (arranged .pydantic source) = false := rfl
      simp only [hfunctional, lines_modelOf hordered, List.append_assoc]
      rfl
  | typeddict =>
      rw [hstyle] at hordered
      have hfunctional : isFunctional .typeddict (arranged .typeddict source) =
          !source.fields.all fun f => isMemberName f.wireName := by
        simp [isFunctional, arranged]
      simp only [hfunctional, lines_dictionaryOf hordered, List.append_assoc]
      rfl

end DtoForge.Python
