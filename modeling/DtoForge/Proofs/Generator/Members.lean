import DtoForge.Proofs.Generator.Names
import DtoForge.Proofs.Generator.References

/-! # Members — what is renamed after the fields have their names

The fields of a type have names of their own, since one table gives them. A member of a C# class may
not have the name of its class either, and is renamed when the table is done. So the new name is never
compared with those of the others, and two members have one name exactly if a field has the name of
the class and another one the name that takes its place (`memberNames_nodup_iff`). In snake case no
field has such a name. -/

namespace DtoForge

/-! ## Replacing one value -/

section

variable {α : Type} [DecidableEq α] {a b : α} {l : List α}

theorem mem_map_replace_iff {c : α} :
    c ∈ l.map (fun x => if x = a then b else x) ↔ c ≠ a ∧ c ∈ l ∨ c = b ∧ a ∈ l := by
  rw [List.mem_map]
  constructor
  · rintro ⟨x, hx, rfl⟩
    split
    next hxa => exact .inr ⟨rfl, hxa ▸ hx⟩
    next hxa => exact .inl ⟨hxa, hx⟩
  · rintro (⟨hca, hc⟩ | ⟨rfl, ha⟩)
    · exact ⟨c, hc, if_neg hca⟩
    · exact ⟨a, ha, if_pos rfl⟩

/-- Replacing a value keeps a list without duplicates unless what takes its place is there as well. -/
theorem nodup_map_replace_iff (hne : a ≠ b) :
    (l.map fun x => if x = a then b else x).Nodup ↔ l.Nodup ∧ ¬ (a ∈ l ∧ b ∈ l) := by
  constructor
  · intro h
    have hl := h.of_map
    refine ⟨hl, fun ⟨ha, hb⟩ => hne ?_⟩
    apply (List.nodup_map_iff_inj_on hl).mp h a ha b hb
    rw [if_pos rfl, if_neg hne.symm]
  · rintro ⟨hl, hboth⟩
    rw [List.nodup_map_iff_inj_on hl]
    intro x hx y hy hxy
    by_cases hxa : x = a <;> by_cases hya : y = a
    · rw [hxa, hya]
    · rw [if_pos hxa, if_neg hya] at hxy
      exact absurd ⟨hxa ▸ hx, hxy ▸ hy⟩ hboth
    · rw [if_neg hxa, if_pos hya] at hxy
      exact absurd ⟨hya ▸ hy, hxy ▸ hx⟩ hboth
    · rwa [if_neg hxa, if_neg hya] at hxy

end

/-! ## Names of fields -/

namespace Generator

variable {g : Generator} {schema : Schema} {name : RawText} {t : TypeSource}

theorem names_nodup_of_source (hcase : g.writer.fieldCase ≠ .original)
    (hkeys : schema.properties.keys.Nodup) (h : g.source schema name = .ok t) :
    (t.fields.map (·.name)).Nodup := by
  obtain ⟨-, hfields⟩ := fieldsFrom_of_source h
  exact g.writer.names_nodup hcase hkeys hfields

end Generator

/-- In snake case, names of fields have no capital. -/
theorem Writer.not_isUpper_of_snake {w : Writer} {enclosing : String} {isRequired : RawText → Bool}
    {ps : List (RawText × Schema)} {fields : List Field} (hcase : w.fieldCase = .snake)
    (h : w.fieldsFrom enclosing isRequired {} ps = .ok fields) :
    ∀ f ∈ fields, ∀ c ∈ f.name.toList, c.isUpper = false := by
  refine w.forall_name_of_forms (fun s => ∀ c ∈ s.toList, c.isUpper = false) (by simp [hcase]) h ?_
  intro name n c hc
  rw [hcase] at hc
  obtain ⟨front, behind, hchars, haround⟩ :=
    Naming.exists_around_numbered_word w.dialect.vocabulary (nofun : Naming.Casing.snake ≠ .original)
      name n
  have hname : (Naming.Casing.snake.apply (Naming.clean name.legible)).toList =
      Naming.snakeChars (Naming.clean name.legible).toList := String.toList_ofList
  rw [hchars, hname, List.append_assoc, List.mem_append, List.mem_append] at hc
  have hmark : c ∈ front ++ behind → c.isUpper = false := by
    intro hc
    rcases haround c hc with rfl | hdigit
    · decide
    · exact Unicode.not_isUpper_of_isSmall (by simp [Unicode.isSmall, hdigit])
  rcases hc with hc | hc | hc
  · exact hmark (List.mem_append_left _ hc)
  · rcases (Naming.clean_cleaned name.legible).mem_snakeChars hc with hc | rfl
    · exact Unicode.not_isUpper_of_isSmall hc
    · decide
  · exact hmark (List.mem_append_right _ hc)

/-! ## C# -/

namespace CSharp

/-- The names of the properties of a class. -/
def memberNames (t : TypeSource) : List String :=
  t.fields.map (propertyName t.className)

theorem memberNames_eq (t : TypeSource) :
    memberNames t = (t.fields.map (·.name)).map fun name =>
      if name = t.className then t.className ++ "Value" else name := by
  rw [memberNames, List.map_map]
  apply List.map_congr_left
  intro f hf
  show propertyName t.className f = if f.name = t.className then _ else _
  rw [propertyName]
  by_cases hname : f.name = t.className <;> simp [hname]

theorem ne_append_value (s : String) : s ≠ s ++ "Value" := by
  intro h
  have hempty : "" = "Value" := by
    apply (String.append_right_inj s).mp
    rw [← h, String.append_empty]
  exact absurd hempty (by decide)

theorem className_not_mem_memberNames (t : TypeSource) : t.className ∉ memberNames t := by
  rw [memberNames_eq, mem_map_replace_iff]
  rintro (⟨hne, -⟩ | ⟨heq, -⟩)
  · exact hne rfl
  · exact ne_append_value t.className heq

/-- The lines of a class end with those of its properties. -/
theorem exists_code_eq (w : Writer) (t : TypeSource) :
    ∃ front, code w t = front ++ spaced (t.fields.map (propertyLines w t.className)) ++ ["\x7d"] :=
  ⟨_, rfl⟩

end CSharp

/-! ## Main result -/

namespace Generator

/-- **The members of C# classes.** No property of a generated class has the name of the class. The
names of the properties are different exactly if no field has the name of the class while another has
this name with `Value` behind it, and in snake case they always are. For objects whose references are
texts, a class is generated. -/
theorem memberNames_nodup_iff {g : Generator} (htarget : g.target = .csharp) {schema : Schema}
    (hkeys : schema.properties.keys.Nodup) :
    (schema.isObject = true →
      (∀ p ∈ schema.properties, ∀ ref, Writer.refOf p.2 = some ref → ∃ stem, ref = .str stem) →
      ∀ name, ∃ code, g.generate schema (.str name) = .ok code) ∧
    ∀ name code, g.generate schema name = .ok code →
      ∃ stem t, name = .str stem ∧ g.source schema stem = .ok t ∧ code = g.written t ∧
        (∃ front, g.codeOf t = front ++
          CSharp.spaced (t.fields.map (CSharp.propertyLines g.writer t.className)) ++ ["\x7d"]) ∧
        t.className ∉ CSharp.memberNames t ∧
        ((CSharp.memberNames t).Nodup ↔ ¬ (t.className ∈ t.fields.map (·.name) ∧
          t.className ++ "Value" ∈ t.fields.map (·.name))) ∧
        (g.options.naming = .snake → (CSharp.memberNames t).Nodup) := by
  have hcase : g.writer.fieldCase ≠ .original := fieldCase_ne_original fun h => by
    rw [htarget] at h
    cases h
  constructor
  · exact g.exists_generate_of_ne_go (by simp [htarget])
  · intro name code hcode
    obtain ⟨stem, t, rfl, ht, rfl⟩ := exists_source_of_generate_eq_ok hcode
    have hnodup : (CSharp.memberNames t).Nodup ↔ ¬ (t.className ∈ t.fields.map (·.name) ∧
        t.className ++ "Value" ∈ t.fields.map (·.name)) := by
      rw [CSharp.memberNames_eq, nodup_map_replace_iff (CSharp.ne_append_value _)]
      exact and_iff_right (names_nodup_of_source hcase hkeys ht)
    refine ⟨stem, t, rfl, ht, rfl, ?_, CSharp.className_not_mem_memberNames t, hnodup, ?_⟩
    · rw [codeOf, htarget]
      exact CSharp.exists_code_eq g.writer t
    · intro hsnake
      rw [hnodup]
      rintro ⟨-, hvalue⟩
      obtain ⟨f, hf, hname⟩ := List.mem_map.mp hvalue
      obtain ⟨-, hfields⟩ := fieldsFrom_of_source ht
      have hfieldCase : g.writer.fieldCase = .snake := by
        rw [Writer.fieldCase, writer, htarget, hsnake]
        rfl
      have hcapital : 'V' ∈ f.name.toList := by
        rw [hname, String.toList_append]
        exact List.mem_append_right _ (by decide)
      exact absurd (Writer.not_isUpper_of_snake hfieldCase hfields f hf 'V' hcapital) (by decide)

/-- A property that has the name of its class makes room, and no other one is in its way. -/
theorem memberNames_nodup_iff_user :
    let g : Generator := ⟨.csharp, {}⟩
    let schema : Schema :=
      .object [("user", .leaf .string none), ("userName", .leaf .string none)] [] none
    g.target = .csharp ∧ schema.properties.keys.Nodup ∧
      ∃ t, g.source schema "User" = .ok t ∧ CSharp.memberNames t = ["UserValue", "UserName"] ∧
        (CSharp.memberNames t).Nodup := by
  intro g schema
  have hkeys : schema.properties.keys.Nodup := by decide
  have hrefs : ∀ p ∈ schema.properties, ∀ ref, Writer.refOf p.2 = some ref →
      ∃ stem, ref = .str stem := by
    simp [schema, Schema.properties, Writer.refOf, Writer.itemOf]
  obtain ⟨hgenerates, hmembers⟩ := memberNames_nodup_iff (g := g) rfl hkeys
  obtain ⟨code, hcode⟩ := hgenerates rfl hrefs "User"
  obtain ⟨stem, t, hstem, ht, -, -, -, hnodup, -⟩ := hmembers _ _ hcode
  obtain rfl := Json.str.inj hstem
  have hnames : (g.source schema "User").map (fun t => (t.className, t.fields.map (·.name))) =
      .ok ("User", ["User", "UserName"]) := by decide +kernel
  rw [ht] at hnames
  obtain ⟨hclass, hfields⟩ := Prod.mk.inj (Except.ok.inj hnames)
  refine ⟨rfl, hkeys, t, ht, ?_, ?_⟩
  · rw [CSharp.memberNames_eq, hclass, hfields]
    decide
  · rw [hnodup, hclass, hfields]
    decide

/-- The new name of a property that had the name of its class is that of another one. -/
theorem exists_memberNames_not_nodup :
    let g : Generator := ⟨.csharp, {}⟩
    let schema : Schema :=
      .object [("user", .leaf .string none), ("userValue", .leaf .string none)] [] none
    ∃ t, g.source schema "User" = .ok t ∧ CSharp.memberNames t = ["UserValue", "UserValue"] ∧
      ¬ (CSharp.memberNames t).Nodup := by
  intro g schema
  have hnames : (g.source schema "User").map CSharp.memberNames =
      .ok ["UserValue", "UserValue"] := by decide +kernel
  cases ht : g.source schema "User" with
  | error e =>
      rw [ht] at hnames
      cases hnames
  | ok t =>
      rw [ht] at hnames
      have hmembers : CSharp.memberNames t = ["UserValue", "UserValue"] := Except.ok.inj hnames
      refine ⟨t, rfl, hmembers, ?_⟩
      rw [hmembers]
      decide

end Generator

end DtoForge
