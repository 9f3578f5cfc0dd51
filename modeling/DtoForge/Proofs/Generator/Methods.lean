import DtoForge.Proofs.Generator.Members
import DtoForge.Proofs.Naming.Forms

/-! # Methods — what a class declares beside its fields

A generated Dart class has methods of its own, and the options say which. The words that fields keep
away from are a fixed list: the members that every object has are on it, but `toJson` and `copyWith`
are not. No number makes one of these names, since none ends in a digit. So a field has the name of a
method exactly if the camel case of a key is `toJson`, or `copyWith` where the class can be copied
(`fieldNames_methods_iff`). -/

namespace DtoForge

/-! ## Names of fields -/

namespace Writer

variable {w : Writer} {enclosing : String} {isRequired : RawText → Bool}
  {ps : List (RawText × Schema)} {fields : List Field}

/-- A name that the language does not take and that ends in a letter is that of a field exactly if it
is the casing of a key. -/
theorem mem_names_iff (hcase : w.fieldCase ≠ .original) (hkeys : (ps.map (·.1)).Nodup)
    (h : w.fieldsFrom enclosing isRequired {} ps = .ok fields) {name : String}
    (hfree : w.dialect.vocabulary.takes name = false) (hstart : name.toList.head?.any Char.isAlpha)
    (hlast : name.toList.getLast?.all Char.isAlpha) :
    name ∈ fields.map (·.name) ↔
      ∃ key ∈ ps.map (·.1), w.fieldCase.apply (Naming.clean key.legible) = name := by
  have hdigit : name.toList.getLast?.any Char.isDigit = false := by
    cases hc : name.toList.getLast? with
    | none => rfl
    | some c =>
        rw [hc] at hlast
        exact Unicode.not_isDigit_of_isAlpha hlast
  have hmark : name.toList.getLast? ≠ some '_' := by
    intro hc
    rw [hc] at hlast
    cases hlast
  have hrequests : (w.requests ps).Nodup := hkeys.map fun a b hab => congrArg Naming.Request.name hab
  have hword := Naming.Request.word_eq_iff hcase hfree hstart hmark
  rw [w.names_eq_answers hcase h, Naming.mem_answers_iff_of_last w.requests_plain hrequests hdigit]
  constructor
  · rintro ⟨r, hr, hname⟩
    obtain ⟨key, hkey, rfl⟩ := List.mem_map.mp hr
    exact ⟨key, hkey, (hword key).mp hname⟩
  · rintro ⟨key, hkey, hname⟩
    exact ⟨_, List.mem_map_of_mem hkey, (hword key).mpr hname⟩

end Writer

namespace Generator

variable {g : Generator} {schema : Schema} {name : RawText} {t : TypeSource}

/-- No field has a name that the language takes. -/
theorem not_takes_of_source (hcase : g.writer.fieldCase ≠ .original)
    (h : g.source schema name = .ok t) :
    ∀ n ∈ t.fields.map (·.name), g.writer.dialect.vocabulary.takes n = false := by
  obtain ⟨-, hfields⟩ := fieldsFrom_of_source h
  intro n hn
  rw [g.writer.names_eq_answers hcase hfields] at hn
  have hadmits := Naming.admits_of_mem_answers g.vocabulary_clear hcase _ hn
  rw [Naming.Vocabulary.admits, Bool.and_eq_true, Bool.not_eq_true'] at hadmits
  exact hadmits.2

end Generator

/-! ## Dart -/

namespace Dart

/-- A method or a getter that a class declares: its type, its name and what stands behind it. -/
structure Method where
  type : String
  name : String
  rest : String

/-- The line that declares a method. -/
def Method.line (m : Method) : String :=
  "  " ++ m.type ++ " " ++ m.name ++ m.rest

/-- What a class declares beside its fields. Every class can be written as a document; the options
add a copy with some fields replaced, a hash code and a text. -/
def methods (w : Writer) (t : TypeSource) : List Method :=
  [⟨documentType, "toJson",
      if w.on .jsonSerializable then "() => _$" ++ t.className ++ "ToJson(this);" else "() \x7b"⟩] ++
    (if w.on .factoryMethods then [⟨t.className, "copyWith", "(\x7b"⟩] else []) ++
    (if w.on .equalsAndHash then
      [⟨"int get", "hashCode",
        " => Object.hashAll([" ++ String.intercalate ", " (t.fields.map (·.name)) ++ "]);"⟩]
      else []) ++
    (if w.on .toText then [⟨"String", "toString", "() \x7b"⟩] else [])

/-- Every method is declared by a line of the class. -/
theorem line_mem_code (w : Writer) (t : TypeSource) : ∀ m ∈ methods w t, m.line ∈ code w t := by
  intro m hm
  simp only [methods, List.mem_append, List.mem_singleton, List.mem_ite_nil_right] at hm
  simp only [code, List.mem_append]
  -- behind the lines of a method stand those of the methods after it, and the end of the class
  rcases hm with ((rfl | ⟨hcopy, rfl⟩) | ⟨hequals, rfl⟩) | ⟨htext, rfl⟩
  · iterate 4 left
    right
    split
    · have hline : "  " ++ documentType ++ " " ++ "toJson" ++
          ("() => _$" ++ t.className ++ "ToJson(this);") =
          "  Map<String, dynamic> toJson() => _$" ++ t.className ++ "ToJson(this);" := by
        rw [← String.append_assoc, ← String.append_assoc]
        rfl
      rw [Method.line, hline]
      simp [generatedLines]
    · simp [writtenLines, Method.line, documentType]
  · iterate 3 left
    right
    simp [hcopy, Source.onlyIf, copyLines, Method.line, String.append_assoc]
  · iterate 2 left
    right
    have hline : "  " ++ "int get" ++ " " ++ "hashCode" ++ (" => Object.hashAll([" ++
        String.intercalate ", " (t.fields.map (·.name)) ++ "]);") =
        "  int get hashCode => Object.hashAll([" ++
          String.intercalate ", " (t.fields.map (·.name)) ++ "]);" := by
      rw [← String.append_assoc, ← String.append_assoc]
      rfl
    rw [Method.line, hline]
    simp [hequals, Source.onlyIf, equalityLines]
  · left
    right
    simp [htext, Source.onlyIf, textLines, Method.line]

/-- Every field is declared by lines of the class. -/
theorem fieldLines_subset_code (w : Writer) (t : TypeSource) :
    t.fields.flatMap (fieldLines w) ⊆ code w t := by
  intro line hline
  simp only [code, List.mem_append]
  iterate 7 left
  exact .inr hline

/-- A class has the methods of its options. -/
theorem exists_method_iff {w : Writer} {t : TypeSource} {p : String → Prop} :
    (∃ m ∈ methods w t, p m.name) ↔ p "toJson" ∨ w.on .factoryMethods ∧ p "copyWith" ∨
      w.on .equalsAndHash ∧ p "hashCode" ∨ w.on .toText ∧ p "toString" := by
  simp [methods, List.mem_ite_nil_right, or_and_right, exists_or, and_assoc]

end Dart

/-! ## Fields and methods -/

namespace Generator

variable {g : Generator} {schema : Schema} {stem : RawText} {t : TypeSource}

theorem dialect_of_dart (htarget : g.target = .dart) : g.writer.dialect = Dart.dialect := by
  rw [writer, htarget]
  rfl

theorem fieldCase_of_dart (htarget : g.target = .dart) :
    g.writer.fieldCase = if g.options.naming = .snake then .snake else .camel := by
  rw [Writer.fieldCase, dialect_of_dart htarget]
  by_cases hsnake : g.options.naming = .snake <;> simp [writer, hsnake, Dart.dialect]

/-- No field has the name of a member that every object has. -/
theorem not_mem_names_of_dart (htarget : g.target = .dart) (ht : g.source schema stem = .ok t) :
    ∀ member ∈ Dart.objectMembers, member ∉ t.fields.map (·.name) := by
  have hcase : g.writer.fieldCase ≠ .original := by
    rw [fieldCase_of_dart htarget]
    split <;> decide
  have htaken : ∀ member ∈ Dart.objectMembers, Dart.dialect.vocabulary.takes member := by decide
  intro member hmember hname
  have hfree := not_takes_of_source hcase ht member hname
  rw [dialect_of_dart htarget, htaken member hmember] at hfree
  cases hfree

/-- The methods that fields do not keep away from are the names of fields exactly if they are the camel
case of keys. In snake case no name has a capital. -/
theorem mem_names_of_dart_iff (htarget : g.target = .dart) (hkeys : schema.properties.keys.Nodup)
    (ht : g.source schema stem = .ok t) {name : String} (hname : name ∈ ["toJson", "copyWith"]) :
    name ∈ t.fields.map (·.name) ↔ g.options.naming ≠ .snake ∧
      ∃ key ∈ schema.properties.keys, Naming.camel (Naming.clean key.legible) = name := by
  have hplain : ∀ name ∈ ["toJson", "copyWith"], Dart.dialect.vocabulary.takes name = false ∧
      name.toList.head?.any Char.isAlpha ∧ name.toList.getLast?.all Char.isAlpha ∧
      name.toList.any Char.isUpper := by decide
  obtain ⟨hfree, hstart, hlast, hcapital⟩ := hplain name hname
  obtain ⟨-, hfields⟩ := fieldsFrom_of_source ht
  have hfieldCase := fieldCase_of_dart htarget
  by_cases hsnake : g.options.naming = .snake
  · rw [if_pos hsnake] at hfieldCase
    refine iff_of_false (fun hmem => ?_) fun h => h.1 hsnake
    obtain ⟨f, hf, rfl⟩ := List.mem_map.mp hmem
    obtain ⟨c, hc, hupper⟩ := List.any_eq_true.mp hcapital
    rw [Writer.not_isUpper_of_snake hfieldCase hfields f hf c hc] at hupper
    cases hupper
  · rw [if_neg hsnake] at hfieldCase
    rw [and_iff_right hsnake]
    have hmem := Writer.mem_names_iff (w := g.writer) (by simp [hfieldCase]) hkeys hfields
      (by rwa [dialect_of_dart htarget]) hstart hlast
    rwa [hfieldCase] at hmem

/-- **Fields and methods of Dart classes.** The fields of a generated class have different names, and
none has that of a member that every object has. A field has the name of a method of the class exactly
if fields are in camel case and that of some key is `toJson`, or `copyWith` where the class can be
copied. For objects whose references are texts, a class is generated. -/
theorem fieldNames_methods_iff {g : Generator} (htarget : g.target = .dart) {schema : Schema}
    (hkeys : schema.properties.keys.Nodup) :
    (schema.isObject = true →
      (∀ p ∈ schema.properties, ∀ ref, Writer.refOf p.2 = some ref → ∃ stem, ref = .str stem) →
      ∀ name, ∃ code, g.generate schema (.str name) = .ok code) ∧
    ∀ name code, g.generate schema name = .ok code →
      ∃ stem t, name = .str stem ∧ g.source schema stem = .ok t ∧ code = g.written t ∧
        t.fields.flatMap (Dart.fieldLines g.writer) ⊆ g.codeOf t ∧
        (∀ m ∈ Dart.methods g.writer t, m.line ∈ g.codeOf t) ∧
        (t.fields.map (·.name)).Nodup ∧
        (∀ member ∈ Dart.objectMembers, member ∉ t.fields.map (·.name)) ∧
        ((∃ m ∈ Dart.methods g.writer t, m.name ∈ t.fields.map (·.name)) ↔
          g.options.naming ≠ .snake ∧ ∃ key ∈ schema.properties.keys,
            Naming.camel (Naming.clean key.legible) = "toJson" ∨
              g.options.enabled .factoryMethods ∧
                Naming.camel (Naming.clean key.legible) = "copyWith") := by
  have hcase : g.writer.fieldCase ≠ .original := by
    rw [fieldCase_of_dart htarget]
    split <;> decide
  constructor
  · exact g.exists_generate_of_ne_go (by simp [htarget])
  · intro name code hcode
    obtain ⟨stem, t, rfl, ht, rfl⟩ := exists_source_of_generate_eq_ok hcode
    have hmembers := not_mem_names_of_dart htarget ht
    refine ⟨stem, t, rfl, ht, rfl, ?_, ?_, names_nodup_of_source hcase hkeys ht, hmembers, ?_⟩
    · rw [codeOf, htarget]
      exact Dart.fieldLines_subset_code g.writer t
    · rw [codeOf, htarget]
      exact Dart.line_mem_code g.writer t
    · have hhash := hmembers "hashCode" (by decide)
      have htext := hmembers "toString" (by decide)
      rw [Dart.exists_method_iff (p := (· ∈ t.fields.map (·.name))),
        mem_names_of_dart_iff htarget hkeys ht (by simp),
        mem_names_of_dart_iff htarget hkeys ht (by simp)]
      simp only [hhash, htext, and_false, or_false]
      constructor
      · rintro (⟨hcamel, key, hmem, hname⟩ | ⟨hcopy, hcamel, key, hmem, hname⟩)
        · exact ⟨hcamel, key, hmem, .inl hname⟩
        · exact ⟨hcamel, key, hmem, .inr ⟨hcopy, hname⟩⟩
      · rintro ⟨hcamel, key, hmem, hname | ⟨hcopy, hname⟩⟩
        · exact .inl ⟨hcamel, key, hmem, hname⟩
        · exact .inr ⟨hcopy, hcamel, key, hmem, hname⟩

/-- Keys that are members of every object, and one that is a method only where the class can be
copied. -/
theorem fieldNames_methods_iff_members :
    let g : Generator := ⟨.dart, { setting := fun f => .bool (f = .equalsAndHash || f = .toText) }⟩
    let leaf : Schema := .leaf .string none
    let schema : Schema :=
      .object [("hash_code", leaf), ("toString", leaf), ("to-string", leaf), ("copyWith", leaf)]
        [] none
    g.target = .dart ∧ schema.properties.keys.Nodup ∧
      ∃ t, g.source schema "Root" = .ok t ∧
        t.fields.map (·.name) = ["hashCode_", "toString_", "toString_1", "copyWith"] ∧
        ¬ ∃ m ∈ Dart.methods g.writer t, m.name ∈ t.fields.map (·.name) := by
  intro g leaf schema
  have hkeys : schema.properties.keys.Nodup := by decide
  have hrefs : ∀ p ∈ schema.properties, ∀ ref, Writer.refOf p.2 = some ref →
      ∃ stem, ref = .str stem := by
    simp [schema, leaf, Schema.properties, Writer.refOf, Writer.itemOf]
  obtain ⟨hgenerates, hclashes⟩ := fieldNames_methods_iff (g := g) rfl hkeys
  obtain ⟨code, hcode⟩ := hgenerates rfl hrefs "Root"
  obtain ⟨stem, t, hstem, ht, -, -, -, -, -, hmethods⟩ := hclashes _ _ hcode
  obtain rfl := Json.str.inj hstem
  have hnames : (g.source schema "Root").map (fun t => t.fields.map (·.name)) =
      .ok ["hashCode_", "toString_", "toString_1", "copyWith"] := by decide +kernel
  rw [ht] at hnames
  refine ⟨rfl, hkeys, t, ht, Except.ok.inj hnames, ?_⟩
  rw [hmethods]
  decide +kernel

/-- A property may have the name of the method that every class has. -/
theorem exists_field_named_toJson :
    let g : Generator := ⟨.dart, {}⟩
    let schema : Schema := .object [("to_json", .leaf .string none)] [] none
    ∃ t, g.source schema "Root" = .ok t ∧ t.fields.map (·.name) = ["toJson"] ∧
      ∃ m ∈ Dart.methods g.writer t, m.name ∈ t.fields.map (·.name) := by
  intro g schema
  have hnames : (g.source schema "Root").map (fun t => t.fields.map (·.name)) = .ok ["toJson"] := by
    decide +kernel
  obtain ⟨t, ht, hnames⟩ := Steps.exists_of_map_eq_ok hnames
  refine ⟨t, ht, hnames, ?_⟩
  rw [hnames, Dart.exists_method_iff (p := (· ∈ ["toJson"]))]
  exact .inl List.mem_cons_self

end Generator

end DtoForge
