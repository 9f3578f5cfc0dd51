import DtoForge.Generator.Generate
import DtoForge.Proofs.Naming.Identifier
import DtoForge.Proofs.Schema.Structure
import DtoForge.Proofs.Steps

/-! # Names — every generated name is one the language accepts

The fields of a type get the answers of one fresh table, asked for their names in documents in order.
So what holds of the words of a language holds of all generated names: `vocabulary_clear` looks
through the words of every language, and `admits_names` draws the conclusion. -/

namespace DtoForge

/-! ## Fields as requests -/

namespace Writer

variable (w : Writer) {enclosing : String} {isRequired : RawText → Bool}
  {ps : List (RawText × Schema)} {fields : List Field}

/-- The fields of properties are that of the first and those of the others, which find its name in
use. -/
theorem fieldsFrom_cons_eq_ok_iff {table : Naming.NameTable} {p : RawText × Schema} :
    w.fieldsFrom enclosing isRequired table (p :: ps) = .ok fields ↔
      ∃ type rest, w.typeOf enclosing p.2 = .ok type ∧
        w.fieldsFrom enclosing isRequired (w.fieldName table p.1).2 ps = .ok rest ∧
        fields = { wireName := p.1.legible, name := (w.fieldName table p.1).1, type,
                   required := isRequired p.1, schema := p.2 } :: rest := by
  rw [fieldsFrom]
  constructor
  · intro h
    obtain ⟨type, htype, h⟩ := Steps.exists_of_bind_eq_ok h
    obtain ⟨rest, hrest, h⟩ := Steps.exists_of_bind_eq_ok h
    exact ⟨type, rest, htype, hrest, (Except.ok.inj h).symm⟩
  · rintro ⟨type, rest, htype, hrest, rfl⟩
    dsimp only
    rw [htype, hrest]
    rfl

/-- Every property has one field, in order, that is required if the property is. -/
theorem properties_of_fieldsFrom {table : Naming.NameTable}
    (h : w.fieldsFrom enclosing isRequired table ps = .ok fields) :
    fields.map (fun f => (f.wireName, f.required, f.schema)) =
      ps.map fun p => (p.1.legible, isRequired p.1, p.2) := by
  induction ps generalizing table fields with
  | nil =>
      cases h
      rfl
  | cons p ps ih =>
      obtain ⟨type, rest, -, hrest, rfl⟩ := w.fieldsFrom_cons_eq_ok_iff.mp h
      rw [List.map_cons, List.map_cons, ih hrest]

/-- A property has a field with its schema. -/
theorem exists_field_of_mem {table : Naming.NameTable}
    (h : w.fieldsFrom enclosing isRequired table ps = .ok fields) {p : RawText × Schema}
    (hp : p ∈ ps) : ∃ f ∈ fields, f.schema = p.2 := by
  have hmem := List.mem_map_of_mem (f := fun p => (p.1.legible, isRequired p.1, p.2)) hp
  rw [← w.properties_of_fieldsFrom h] at hmem
  obtain ⟨f, hf, heq⟩ := List.mem_map.mp hmem
  exact ⟨f, hf, congrArg (·.2.2) heq⟩

theorem exists_property_of_mem {table : Naming.NameTable}
    (h : w.fieldsFrom enclosing isRequired table ps = .ok fields) {f : Field}
    (hf : f ∈ fields) : ∃ p ∈ ps, p.2 = f.schema := by
  have hmem := List.mem_map_of_mem (f := fun f => (f.wireName, f.required, f.schema)) hf
  rw [w.properties_of_fieldsFrom h] at hmem
  obtain ⟨p, hp, heq⟩ := List.mem_map.mp hmem
  exact ⟨p, hp, congrArg (·.2.2) heq⟩

theorem wireNames_of_fieldsFrom {table : Naming.NameTable}
    (h : w.fieldsFrom enclosing isRequired table ps = .ok fields) :
    fields.map (·.wireName) = ps.map (·.1.legible) := by
  have hfields := congrArg (List.map (·.1)) (w.properties_of_fieldsFrom h)
  rwa [List.map_map, List.map_map] at hfields

/-- The type of a field is that of its schema. -/
theorem typeOf_of_mem_fieldsFrom {table : Naming.NameTable}
    (h : w.fieldsFrom enclosing isRequired table ps = .ok fields) :
    ∀ f ∈ fields, w.typeOf enclosing f.schema = .ok f.type := by
  induction ps generalizing table fields with
  | nil =>
      cases h
      exact nofun
  | cons p ps ih =>
      obtain ⟨type, rest, htype, hrest, rfl⟩ := w.fieldsFrom_cons_eq_ok_iff.mp h
      exact List.forall_mem_cons.mpr ⟨htype, ih hrest⟩

/-- Fields that are left as written have the names they have in documents. -/
theorem name_eq_wireName (hcase : w.fieldCase = .original) {table : Naming.NameTable}
    (h : w.fieldsFrom enclosing isRequired table ps = .ok fields) :
    ∀ f ∈ fields, f.name = f.wireName := by
  induction ps generalizing table fields with
  | nil =>
      cases h
      exact nofun
  | cons p ps ih =>
      obtain ⟨type, rest, -, hrest, rfl⟩ := w.fieldsFrom_cons_eq_ok_iff.mp h
      refine List.forall_mem_cons.mpr ⟨?_, ih hrest⟩
      rw [fieldName, hcase]

/-- What the fields of properties ask for. -/
def requests (ps : List (RawText × Schema)) : List Naming.Request :=
  (ps.map (·.1)).map fun name => ⟨name, w.fieldCase, "_"⟩

theorem requests_plain : ∀ r ∈ w.requests ps, r.Plain := by
  intro r hr
  obtain ⟨name, -, rfl⟩ := List.mem_map.mp hr
  show '\x00' ∉ "_".toList
  decide

theorem fieldName_eq_answer (hcase : w.fieldCase ≠ .original) (table : Naming.NameTable)
    (name : RawText) :
    w.fieldName table name = table.answer w.dialect.vocabulary ⟨name, w.fieldCase, "_"⟩ := by
  rw [fieldName, Naming.NameTable.answer]
  cases hw : w.fieldCase with
  | original => exact absurd hw hcase
  | _ => rfl

/-- The names of fields are what a fresh table answers. -/
theorem names_eq_answers (hcase : w.fieldCase ≠ .original)
    (h : w.fieldsFrom enclosing isRequired {} ps = .ok fields) :
    fields.map (·.name) = Naming.answers w.dialect.vocabulary (w.requests ps) := by
  -- from any table on, by induction on the properties
  have hfrom : ∀ (ps : List (RawText × Schema)) (table : Naming.NameTable) (fields : List Field),
      w.fieldsFrom enclosing isRequired table ps = .ok fields →
      fields.map (·.name) =
        (Naming.NameTable.answerAll w.dialect.vocabulary table (w.requests ps)).1 := by
    intro ps
    induction ps with
    | nil =>
        intro table fields h
        obtain rfl := Except.ok.inj h
        rfl
    | cons p ps ih =>
        intro table fields h
        obtain ⟨type, rest, -, hrest, rfl⟩ := w.fieldsFrom_cons_eq_ok_iff.mp h
        rw [List.map_cons, ih _ _ hrest, w.fieldName_eq_answer hcase]
        rfl
  exact hfrom ps {} fields h

/-- Properties with different keys have fields with different names. -/
theorem names_nodup (hcase : w.fieldCase ≠ .original) (hkeys : (ps.map (·.1)).Nodup)
    (h : w.fieldsFrom enclosing isRequired {} ps = .ok fields) : (fields.map (·.name)).Nodup := by
  rw [w.names_eq_answers hcase h]
  exact Naming.answers_nodup _ w.requests_plain
    (hkeys.map fun a b hab => congrArg Naming.Request.name hab)

/-- Properties that ask for different words have fields with these names: none has to give way. -/
theorem names_eq_words (hcase : w.fieldCase ≠ .original)
    (hwords : ((w.requests ps).map (Naming.Request.word w.dialect.vocabulary)).Nodup)
    (h : w.fieldsFrom enclosing isRequired {} ps = .ok fields) :
    fields.map (·.name) = (w.requests ps).map (Naming.Request.word w.dialect.vocabulary) := by
  rw [w.names_eq_answers hcase h, Naming.answers_eq_words _ w.requests_plain hwords]

/-- What holds of every form of the words asked for holds of the names of fields. -/
theorem forall_name_of_forms (holds : String → Prop) (hcase : w.fieldCase ≠ .original)
    (h : w.fieldsFrom enclosing isRequired {} ps = .ok fields)
    (hforms : ∀ (name : RawText) (n : Nat),
      holds (Naming.numbered (Naming.Request.word w.dialect.vocabulary ⟨name, w.fieldCase, "_"⟩) n)) :
    ∀ f ∈ fields, holds f.name := by
  intro f hf
  have hanswer : f.name ∈ Naming.answers w.dialect.vocabulary (w.requests ps) :=
    w.names_eq_answers hcase h ▸ List.mem_map_of_mem hf
  refine Naming.answerAll_forall holds (by simp) ?_ f.name hanswer
  intro r hr n
  obtain ⟨name, -, rfl⟩ := List.mem_map.mp hr
  exact hforms name n

theorem exists_typeOf_of_refOf (enclosing : String) {s : Schema}
    (h : ∀ ref, refOf s = some ref → ∃ stem, ref = .str stem) :
    ∃ type, w.typeOf enclosing s = .ok type := by
  induction s with
  | object ps required ref =>
      cases ref with
      | none => exact ⟨_, rfl⟩
      | some ref =>
          obtain ⟨stem, rfl⟩ := h ref rfl
          exact ⟨w.typeName stem.legible, rfl⟩
  | array items ref ih =>
      obtain ⟨type, htype⟩ := ih h
      exact ⟨w.dialect.listOf type, by rw [typeOf, htype]; rfl⟩
  | leaf l ref => exact ⟨_, rfl⟩

/-- What a type that can be written refers to is a text. -/
theorem exists_str_of_typeOf {s : Schema} {type : String} (h : w.typeOf enclosing s = .ok type) :
    ∀ ref, refOf s = some ref → ∃ stem, ref = .str stem := by
  induction s generalizing type with
  | object ps required ref =>
      rintro r hr
      obtain rfl : ref = some r := hr
      cases r with
      | str stem => exact ⟨stem, rfl⟩
      | _ => cases h
  | array items ref ih =>
      obtain ⟨item, hitem, -⟩ := Steps.exists_of_map_eq_ok h
      exact ih hitem
  | leaf l ref => exact nofun

/-- Every property has a field when the references are texts. -/
theorem exists_fieldsFrom_of_refOf
    (h : ∀ p ∈ ps, ∀ ref, refOf p.2 = some ref → ∃ stem, ref = .str stem)
    (table : Naming.NameTable) :
    ∃ fields, w.fieldsFrom enclosing isRequired table ps = .ok fields ∧
      fields.map (·.wireName) = ps.map (·.1.legible) := by
  suffices hfields : ∃ fields, w.fieldsFrom enclosing isRequired table ps = .ok fields by
    obtain ⟨fields, hfields⟩ := hfields
    exact ⟨fields, hfields, w.wireNames_of_fieldsFrom hfields⟩
  induction ps generalizing table with
  | nil => exact ⟨[], rfl⟩
  | cons p ps ih =>
      rw [List.forall_mem_cons] at h
      obtain ⟨type, htype⟩ := w.exists_typeOf_of_refOf enclosing h.1
      obtain ⟨fields, hfields⟩ := ih h.2 (w.fieldName table p.1).2
      exact ⟨_, w.fieldsFrom_cons_eq_ok_iff.mpr ⟨type, fields, htype, hfields, rfl⟩⟩

end Writer

/-! ## Words of the languages -/

theorem Go.vocabulary_clear : dialect.vocabulary.Clear .pascal where
  unmarked := by decide +kernel
  unnumbered := by decide +kernel

theorem Swift.vocabulary_clear (describes : Bool) (casing : Naming.Casing) :
    (vocabulary describes).Clear casing := by
  cases describes with
  | false => exact .of_letters (by decide +kernel)
  | true => exact .of_letters (by decide +kernel)

/-- The words of every language look like no name that gave way. Go alone has words that end in a
digit, and its fields are in Pascal case. -/
theorem Generator.vocabulary_clear (g : Generator) :
    g.writer.dialect.vocabulary.Clear g.writer.fieldCase := by
  obtain ⟨t, o⟩ := g
  cases t with
  | typescript => exact .of_letters (v := TypeScript.dialect.vocabulary) (by decide +kernel)
  | java => exact .of_letters (v := Java.dialect.vocabulary) (by decide +kernel)
  | dart => exact .of_letters (v := Dart.dialect.vocabulary) (by decide +kernel)
  | go => exact Go.vocabulary_clear
  | python => exact .of_letters (v := Python.dialect.vocabulary) (by decide +kernel)
  | csharp => exact .of_letters (v := CSharp.dialect.vocabulary) (by decide +kernel)
  | swift => exact Swift.vocabulary_clear _ _
  | kotlin => exact .of_letters (v := Kotlin.dialect.vocabulary) (by decide +kernel)

/-! ## Main result -/

/-- Only TypeScript keeps names as they are, and not in snake case. -/
theorem Generator.fieldCase_ne_original {g : Generator}
    (h : g.target = .typescript → g.options.naming = .snake) : g.writer.fieldCase ≠ .original := by
  obtain ⟨t, o⟩ := g
  have hcase : ∀ w : Writer, w.dialect.fieldCase ≠ .original → w.fieldCase ≠ .original := by
    intro w hw
    rw [Writer.fieldCase]
    split
    · decide
    · exact hw
  cases t with
  | typescript =>
      rw [Writer.fieldCase, if_pos]
      · decide
      · show (o.naming == .snake) = true
        rw [h rfl]
        rfl
  | _ => exact hcase _ nofun

/-- **Generated names are legal.** In every language and under all options, the identifier of a type
and the names of fields are identifiers that are no words of the language. TypeScript keeps the names
of documents unless snake case is asked for. Every property has a field when the references of the
object are texts. -/
theorem Generator.admits_names (g : Generator) :
    let v := g.writer.dialect.vocabulary
    (∀ name, v.admits (g.writer.typeName name)) ∧
      ∀ enclosing ps required ref,
        (∀ fields, g.writer.fields enclosing (.object ps required ref) = .ok fields →
          (g.target = .typescript → g.options.naming = .snake) →
          ∀ f ∈ fields, v.admits f.name) ∧
        ((∀ p ∈ ps, ∀ r, Writer.refOf p.2 = some r → ∃ stem, r = .str stem) →
          ∃ fields, g.writer.fields enclosing (.object ps required ref) = .ok fields ∧
            fields.map (·.wireName) = ps.map (·.1.legible)) := by
  intro v
  refine ⟨?_, ?_⟩
  · intro name
    exact Naming.admits_typeIdentifier g.vocabulary_clear _
  · intro enclosing ps required ref
    refine ⟨?_, ?_⟩
    · intro fields hfields hcase f hf
      have hcase := fieldCase_ne_original hcase
      have hname : f.name ∈ Naming.answers v (g.writer.requests ps) := by
        rw [← g.writer.names_eq_answers hcase hfields]
        exact List.mem_map_of_mem hf
      exact Naming.admits_of_mem_answers g.vocabulary_clear hcase _ hname
    · intro h
      exact g.writer.exists_fieldsFrom_of_refOf h {}

/-- Names that are a keyword in two cases, start with a digit or have no letter of ASCII. -/
theorem Generator.admits_names_points :
    let g : Generator := ⟨.python, { namePrefix := .str "1" }⟩
    let ps : List (RawText × Schema) :=
      [("class", .leaf .string none), ("Class", .leaf .number none),
        ("1st", .array (.object [] [] (some (.str "Item"))) none), ("日本", .leaf .null none)]
    g.writer.dialect.vocabulary.admits (g.writer.typeName "none") ∧
      ∃ fields, g.writer.fields "Order" (.object ps [] none) = .ok fields ∧
        (∀ f ∈ fields, g.writer.dialect.vocabulary.admits f.name) ∧
        (g.writer.fields "Order" (.object ps [] none)).map (List.map (·.name)) =
          .ok ["class_", "class_1", "_1st", "field"] := by
  intro g ps
  obtain ⟨htype, hfields⟩ := admits_names g
  obtain ⟨hnames, hexists⟩ := hfields "Order" ps [] none
  have hrefs : ∀ p ∈ ps, ∀ r, Writer.refOf p.2 = some r → ∃ stem, r = .str stem := by
    simp [ps, Writer.refOf, Writer.itemOf]
  obtain ⟨fields, hok, -⟩ := hexists hrefs
  exact ⟨htype "none", fields, hok, hnames fields hok nofun, by decide +kernel⟩

end DtoForge
