import DtoForge.Proofs.Generator.Members
import DtoForge.Proofs.Naming.Camel

/-! # Accessors — one getter and one setter for each field

The accessors of a Java class are named by the Pascal case of its fields, and nothing gives way once
the fields have their names. So two getters have one name exactly if two fields have one Pascal case,
or if one is `Class`, for which `ClassValue` stands in, and another one `ClassValue`
(`accessors_nodup_iff`). Pascal case is not injective on names of fields: `aBC` and `aBc` agree, and so
do `int_1` and `int1`. But properties in camel case have different ones, and there `class` beside
`classValue` is all that can go wrong. -/

namespace DtoForge

/-! ## Names of accessors -/

namespace Java

/-- The methods that get and set a field, with their names. -/
structure Accessors where
  field : Field
  getter : String
  setter : String

/-- The accessors of a field are named by its word. -/
def accessors (f : Field) : Accessors where
  field := f
  getter := "get" ++ accessorWord f.name
  setter := "set" ++ accessorWord f.name

/-- The methods in code. -/
def Accessors.lines (a : Accessors) : Source.Lines :=
  ["", "    public " ++ a.field.type ++ " " ++ a.getter ++ "() \x7b",
    "        return " ++ a.field.name ++ ";",
    "    \x7d",
    "",
    "    public void " ++ a.setter ++ "(" ++ a.field.type ++ " " ++ a.field.name ++ ") \x7b",
    "        this." ++ a.field.name ++ " = " ++ a.field.name ++ ";",
    "    \x7d"]

theorem accessorLines_eq (f : Field) : accessorLines f = (accessors f).lines := by
  simp only [accessorLines, Accessors.lines, accessors, String.append_assoc]
  rfl

/-- Without Lombok, the accessors of all fields stand in the code in order. -/
theorem accessors_infix_code {w : Writer} (hlombok : w.on .lombok = false) (t : TypeSource) :
    t.fields.flatMap (fun f => (accessors f).lines) <:+: code w t := by
  rw [← funext accessorLines_eq]
  have hfront : ∀ {part ls rest : Source.Lines}, part <:+: ls → part <:+: ls ++ rest :=
    fun h => h.trans (List.prefix_append _ _).isInfix
  have hmembers : t.fields.flatMap accessorLines <:+:
      Source.onlyIf true (Source.onlyIf (w.on .builders) (constructorLines t) ++
        t.fields.flatMap accessorLines) := (List.suffix_append _ _).isInfix
  rw [code, hlombok]
  -- five parts of the code stand behind the members
  iterate 5 apply hfront
  exact hmembers.trans (List.suffix_append _ _).isInfix

/-- The names of the getters of a class. -/
def getters (t : TypeSource) : List String :=
  t.fields.map fun f => (accessors f).getter

/-- The names of the setters of a class. -/
def setters (t : TypeSource) : List String :=
  t.fields.map fun f => (accessors f).setter

/-- The names of the fields of a class in Pascal case. -/
def pascalNames (t : TypeSource) : List String :=
  t.fields.map fun f => Naming.pascal f.name

/-- What stands in front of the words does not tell accessors apart. -/
theorem nodup_prefixed_iff (front : String) (t : TypeSource) :
    (t.fields.map fun f => front ++ accessorWord f.name).Nodup ↔
      (t.fields.map fun f => accessorWord f.name).Nodup := by
  have heq : (t.fields.map fun f => front ++ accessorWord f.name) =
      (t.fields.map fun f => accessorWord f.name).map (front ++ ·) := by
    rw [List.map_map]
    rfl
  rw [heq, List.nodup_map_iff fun _ _ h => (String.append_right_inj _).mp h]

theorem nodup_getters_iff (t : TypeSource) :
    (getters t).Nodup ↔ (t.fields.map fun f => accessorWord f.name).Nodup :=
  nodup_prefixed_iff "get" t

theorem nodup_setters_iff (t : TypeSource) : (setters t).Nodup ↔ (getters t).Nodup :=
  (nodup_prefixed_iff "set" t).trans (nodup_getters_iff t).symm

/-- No getter is the one that every object has. -/
theorem getClass_not_mem_getters (t : TypeSource) : "getClass" ∉ getters t := by
  have hword : ∀ name, accessorWord name ≠ "Class" := by
    intro name
    rw [accessorWord]
    split
    next => decide
    next hword => simpa using hword
  intro hmem
  obtain ⟨f, -, hf⟩ := List.mem_map.mp hmem
  have hsame : "get" ++ accessorWord f.name = "get" ++ "Class" := hf
  exact hword f.name ((String.append_right_inj _).mp hsame)

/-- The words of the accessors are the Pascal cases of the fields, but for `Class`. -/
theorem map_accessorWord_eq {t : TypeSource} (h : ∀ f ∈ t.fields, Naming.pascal f.name ≠ "") :
    t.fields.map (fun f => accessorWord f.name) =
      (pascalNames t).map fun word => if word = "Class" then "ClassValue" else word := by
  rw [pascalNames, List.map_map]
  apply List.map_congr_left
  intro f hf
  rw [accessorWord, Naming.orElse_of_ne_empty (h f hf)]
  simp

end Java

/-! ## Pascal case of fields -/

namespace Writer

variable {w : Writer} {enclosing : String} {isRequired : RawText → Bool}
  {ps : List (RawText × Schema)} {fields : List Field}

/-- The names of fields have words. -/
theorem pascal_ne_empty (hcase : w.fieldCase ≠ .original)
    (h : w.fieldsFrom enclosing isRequired {} ps = .ok fields) :
    ∀ f ∈ fields, Naming.pascal f.name ≠ "" := by
  refine w.forall_name_of_forms (fun s => Naming.pascal s ≠ "") hcase h ?_
  intro name n
  obtain ⟨c, rest, hname, halnum, -, hrest⟩ := (Naming.clean_cleaned name.legible).apply hcase
  obtain ⟨front, behind, hchars, haround⟩ :=
    Naming.exists_around_numbered_word w.dialect.vocabulary hcase name n
  have hmarks : ∀ d ∈ front ++ behind, Naming.isWordChar d := by
    intro d hd
    rcases haround d hd with rfl | hdigit
    · decide
    · simp [Naming.isWordChar, Char.isAlphanum, hdigit]
  rw [List.forall_mem_append] at hmarks
  refine Naming.pascal_ne_empty ?_ (c := c) ?_ halnum
  · rw [hchars, hname]
    simp only [List.forall_mem_append, List.forall_mem_cons]
    exact ⟨⟨hmarks.1, by simp [Naming.isWordChar, halnum], hrest⟩, hmarks.2⟩
  · rw [hchars, hname]
    simp

/-- Properties in camel case have fields with the Pascal case of their keys: the words that are asked
for are different, so none gives way. -/
theorem map_pascal_eq (hcase : w.fieldCase = .camel ∨ w.fieldCase = .snake)
    (hkeys : (ps.map (·.1)).Nodup) (hcamel : ∀ key ∈ ps.map (·.1), Naming.IsCamel key.legible)
    (h : w.fieldsFrom enclosing isRequired {} ps = .ok fields) :
    fields.map (fun f => Naming.pascal f.name) =
      (ps.map (·.1)).map fun key => Naming.pascal key.legible := by
  have hpascal : ∀ key ∈ ps.map (·.1), Naming.pascal (Naming.Request.word w.dialect.vocabulary
      ⟨key, w.fieldCase, "_"⟩) = Naming.pascal key.legible :=
    fun key hkey => (hcamel key hkey).pascal_word _ hcase
  have hrewrites : w.fieldCase ≠ .original := by
    rcases hcase with hcase | hcase <;> simp [hcase]
  have hwords : ((w.requests ps).map (Naming.Request.word w.dialect.vocabulary)).Nodup := by
    rw [requests, List.map_map]
    refine List.Nodup.of_map Naming.pascal ?_
    have hnodup := Naming.nodup_map_pascal hcamel hkeys
    rw [← List.map_congr_left hpascal] at hnodup
    rwa [List.map_map]
  have hnames := w.names_eq_words hrewrites hwords h
  have hfields : fields.map (fun f => Naming.pascal f.name) =
      (fields.map (·.name)).map Naming.pascal := by
    rw [List.map_map]
    rfl
  rw [hfields, hnames, requests, List.map_map, List.map_map]
  exact List.map_congr_left hpascal

end Writer

/-! ## Main result -/

namespace Generator

/-- **The accessors of Java classes.** Without Lombok, every field of a generated class has a getter
and a setter, and no getter is `getClass`. The getters have different names exactly if the setters do,
and they do exactly if the fields differ in Pascal case and not both `Class` and `ClassValue` are among
them. For properties in camel case this means that not both `class` and `classValue` are there. For
objects whose references are texts, a class is generated. -/
theorem accessors_nodup_iff {g : Generator} (htarget : g.target = .java)
    (hlombok : g.options.enabled .lombok = false) {schema : Schema} :
    (schema.isObject = true →
      (∀ p ∈ schema.properties, ∀ ref, Writer.refOf p.2 = some ref → ∃ stem, ref = .str stem) →
      ∀ name, ∃ code, g.generate schema (.str name) = .ok code) ∧
    ∀ name code, g.generate schema name = .ok code →
      ∃ stem t, name = .str stem ∧ g.source schema stem = .ok t ∧ code = g.written t ∧
        t.fields.flatMap (fun f => (Java.accessors f).lines) <:+: g.codeOf t ∧
        "getClass" ∉ Java.getters t ∧
        ((Java.setters t).Nodup ↔ (Java.getters t).Nodup) ∧
        ((Java.getters t).Nodup ↔ (Java.pascalNames t).Nodup ∧
          ¬ ("Class" ∈ Java.pascalNames t ∧ "ClassValue" ∈ Java.pascalNames t)) ∧
        (schema.properties.keys.Nodup →
          (∀ key ∈ schema.properties.keys, Naming.IsCamel key.legible) →
          ((Java.getters t).Nodup ↔
            ¬ (.whole "class" ∈ schema.properties.keys ∧
              .whole "classValue" ∈ schema.properties.keys))) := by
  have hcase : g.writer.fieldCase = .camel ∨ g.writer.fieldCase = .snake := by
    rw [Writer.fieldCase, writer, htarget]
    split
    next => exact .inr rfl
    next => exact .inl rfl
  have hrewrites : g.writer.fieldCase ≠ .original := by
    rcases hcase with hcase | hcase <;> simp [hcase]
  constructor
  · exact g.exists_generate_of_ne_go (by simp [htarget])
  · intro name code hcode
    obtain ⟨stem, t, rfl, ht, rfl⟩ := exists_source_of_generate_eq_ok hcode
    obtain ⟨-, hfields⟩ := fieldsFrom_of_source ht
    have hgetters : (Java.getters t).Nodup ↔ (Java.pascalNames t).Nodup ∧
        ¬ ("Class" ∈ Java.pascalNames t ∧ "ClassValue" ∈ Java.pascalNames t) := by
      rw [Java.nodup_getters_iff, Java.map_accessorWord_eq (Writer.pascal_ne_empty hrewrites hfields),
        nodup_map_replace_iff (by decide)]
    refine ⟨stem, t, rfl, ht, rfl, ?_, Java.getClass_not_mem_getters t, Java.nodup_setters_iff t,
      hgetters, ?_⟩
    · rw [codeOf, htarget]
      exact Java.accessors_infix_code (w := g.writer) hlombok t
    · intro hkeys hcamel
      have hpascal : Java.pascalNames t =
          schema.properties.keys.map fun key => Naming.pascal key.legible :=
        Writer.map_pascal_eq hcase hkeys hcamel hfields
      have hclass : "Class" ∈ Java.pascalNames t ↔ .whole "class" ∈ schema.properties.keys := by
        have hword : Naming.pascal "class" = "Class" := by decide +kernel
        rw [hpascal, ← hword, Naming.mem_map_pascal_iff hcamel (by decide +kernel)]
      have hvalue : "ClassValue" ∈ Java.pascalNames t ↔
          .whole "classValue" ∈ schema.properties.keys := by
        have hword : Naming.pascal "classValue" = "ClassValue" := by decide +kernel
        rw [hpascal, ← hword, Naming.mem_map_pascal_iff hcamel (by decide +kernel)]
      have hnodup : (Java.pascalNames t).Nodup := hpascal ▸ Naming.nodup_map_pascal hcamel hkeys
      rw [hgetters, and_iff_right hnodup, hclass, hvalue]

/-- The getter of a property `class` makes room, and no other one is in its way. -/
theorem accessors_nodup_iff_class :
    let g : Generator := ⟨.java, {}⟩
    let schema : Schema :=
      .object [("class", .leaf .string none), ("className", .leaf .string none)] [] none
    g.target = .java ∧ g.options.enabled .lombok = false ∧
      ∃ t, g.source schema "Root" = .ok t ∧
        Java.getters t = ["getClassValue", "getClassName"] ∧ (Java.getters t).Nodup := by
  intro g schema
  have hrefs : ∀ p ∈ schema.properties, ∀ ref, Writer.refOf p.2 = some ref →
      ∃ stem, ref = .str stem := by
    simp [schema, Schema.properties, Writer.refOf, Writer.itemOf]
  obtain ⟨hgenerates, haccessors⟩ := @accessors_nodup_iff g rfl rfl schema
  obtain ⟨code, hcode⟩ := hgenerates rfl hrefs "Root"
  obtain ⟨stem, t, hstem, ht, -, -, -, -, -, hcamel⟩ := haccessors _ _ hcode
  obtain rfl := Json.str.inj hstem
  have hgetters : (g.source schema "Root").map Java.getters =
      .ok ["getClassValue", "getClassName"] := by decide +kernel
  rw [ht] at hgetters
  refine ⟨rfl, rfl, t, ht, Except.ok.inj hgetters, ?_⟩
  exact (hcamel (by decide) (by decide +kernel)).mpr (by decide)

/-- The getter that makes room for `getClass` has the name of another one. -/
theorem exists_accessors_not_nodup :
    let g : Generator := ⟨.java, {}⟩
    let schema : Schema :=
      .object [("class", .leaf .string none), ("classValue", .leaf .string none)] [] none
    g.options.enabled .lombok = false ∧
      ∃ t, g.source schema "Root" = .ok t ∧ Java.getters t = ["getClassValue", "getClassValue"] ∧
        ¬ (Java.getters t).Nodup ∧ ¬ (Java.setters t).Nodup := by
  intro g schema
  have hgetters : (g.source schema "Root").map Java.getters =
      .ok ["getClassValue", "getClassValue"] := by decide +kernel
  refine ⟨rfl, ?_⟩
  cases ht : g.source schema "Root" with
  | error e =>
      rw [ht] at hgetters
      cases hgetters
  | ok t =>
      rw [ht] at hgetters
      have hnames : Java.getters t = ["getClassValue", "getClassValue"] := Except.ok.inj hgetters
      refine ⟨t, rfl, hnames, ?_, ?_⟩
      · rw [hnames]
        decide
      · rw [Java.nodup_setters_iff, hnames]
        decide

end Generator

end DtoForge
