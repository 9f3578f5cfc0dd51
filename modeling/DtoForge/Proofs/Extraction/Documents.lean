import DtoForge.Proofs.Extraction.Linking
import DtoForge.Proofs.Extraction.References
import DtoForge.Proofs.Schema.RoundTrip

/-! # Documents — extracted schemas are kept by their documents

What is inferred from an example requires texts and refers to nothing. The extraction adds
references to objects and to items that are objects, each by a name that ends in the suffix of a
role and so is never empty. A document keeps all that, and reading it gives the schema back. -/

namespace DtoForge.Extraction

open Schema (Documented Same documented_object_iff documented_array_iff isReference_none
  isReference_str)

theorem infer_documented (v : Json) : (Schema.infer v).Documented := by
  apply Schema.infer_everywhere
  · intro v
    have href : (Schema.infer v).ref = none := (Schema.infer_unreferenced v).self
    exact ⟨(Schema.infer_named v).self, href ▸ isReference_none, fun _ _ => href⟩
  · exact Schema.documented_leaf_iff.mpr rfl

/-! ## Properties -/

section Property

variable {source : ObjectSource} {name : RawText} {property : Schema} {o : Occurrence}

theorem Occurrence.documented_of_under? (h : Occurrence.under? source name property = some o)
    (hproperty : property.Documented) : o.schema.Documented := by
  obtain ⟨-, -, ⟨ref, rfl, -⟩ | ⟨ref, ref', rfl, -⟩⟩ := Occurrence.under?_eq_some h
  · obtain ⟨hrequired, -, hps⟩ := documented_object_iff.mp hproperty
    exact documented_object_iff.mpr ⟨hrequired, isReference_none, hps⟩
  · obtain ⟨hrequired, -, hps⟩ := documented_object_iff.mp (documented_array_iff.mp hproperty).2
    exact documented_object_iff.mpr ⟨hrequired, isReference_none, hps⟩

/-- A property that was made to refer to a name is kept with the name. -/
theorem documented_referTo (h : Occurrence.under? source name property = some o)
    (hproperty : property.Documented) {target : String} (htarget : target ≠ "") :
    (referTo target property).Documented := by
  have hname : RawText.whole target ≠ "" := fun h => htarget (RawText.whole.inj h)
  obtain ⟨-, -, ⟨ref, rfl, -⟩ | ⟨ref, ref', rfl, -⟩⟩ := Occurrence.under?_eq_some h
  · obtain ⟨hrequired, -, hps⟩ := documented_object_iff.mp hproperty
    exact documented_object_iff.mpr ⟨hrequired, isReference_str hname, hps⟩
  · obtain ⟨hrequired, -, hps⟩ := documented_object_iff.mp (documented_array_iff.mp hproperty).2
    exact documented_array_iff.mpr ⟨isReference_none,
      documented_object_iff.mpr ⟨hrequired, isReference_str hname, hps⟩⟩

end Property

/-! ## Tables -/

theorem objectName_ne_empty (base : String) (role : Role) : objectName base role ≠ "" := by
  cases role <;> simp [objectName, Role.suffix, String.append_eq_empty_iff]

/-- Every object has a name, and its schema is kept by a document. -/
structure Table.Documented (table : Table) : Prop where
  named : ∀ key d, table.find? key = some d → d.name ≠ ""
  schema : ∀ d ∈ table.objects, d.schema.Documented

theorem Table.documented_empty : Table.Documented {} where
  named := by simp [Table.find?]
  schema := by simp [Table.objects]

section Table

variable {table : Table}

theorem Table.Documented.reserve (h : table.Documented) : table.reserve.Documented where
  named := h.named
  schema := by
    rw [Table.objects_reserve]
    exact h.schema

theorem Table.Documented.fill (h : table.Documented) {d : ObjectDefinition} (hname : d.name ≠ "")
    (hd : d.schema.Documented) (place : Nat) (key : SeenKey) :
    (table.fill place key d).Documented where
  named := by
    intro key' e he
    by_cases hkey : key' = key
    · rw [hkey, Table.find?_fill_self] at he
      exact Option.some.inj he ▸ hname
    · rw [Table.find?_fill_of_ne hkey] at he
      exact h.named key' e he
  schema := by
    intro e he
    obtain ⟨_, he, rfl⟩ := List.mem_filterMap.mp he
    rcases List.mem_or_eq_of_mem_set he with he | he
    · exact h.schema e (List.mem_filterMap.mpr ⟨_, he, rfl⟩)
    · exact Option.some.inj he ▸ hd

end Table

/-! ## The recursion -/

/-- Hoisting an object keeps what documents keep, and the object that is given has a name. -/
theorem extract_documented (o : Occurrence) (table : Table) :
    o.schema.Documented → table.Documented →
      (o.extract table).table.Documented ∧ (o.extract table).definition.name ≠ "" := by
  apply extract_induction
    (fun o table h => o.schema.Documented → table.Documented →
      h.table.Documented ∧ h.definition.name ≠ "")
    (fun _ ps w w' => (∀ p ∈ ps, p.2.Documented) → w.table.Documented →
      (∀ p ∈ w.properties, p.2.Documented) →
      w'.table.Documented ∧ ∀ p ∈ w'.properties, p.2.Documented)
  case hit => exact fun o table d hfound _ h => ⟨h, h.named _ d hfound⟩
  case miss =>
    intro o table inner _ ih ho h
    obtain ⟨hrequired, -, hps⟩ := documented_object_iff.mp ho
    obtain ⟨hinner, hproperties⟩ := ih hps h.reserve nofun
    have hname := objectName_ne_empty o.base o.source.role
    exact ⟨hinner.fill hname
      (documented_object_iff.mpr ⟨hrequired, isReference_none, hproperties⟩) _ _, hname⟩
  case nil => exact fun _ w _ h hproperties => ⟨h, hproperties⟩
  case refer =>
    intro source name property ps o w hoisted w' hunder ihoist iwalk hps h hproperties
    obtain ⟨hproperty, hps⟩ := List.forall_mem_cons.mp hps
    obtain ⟨hhoisted, hname⟩ := ihoist (Occurrence.documented_of_under? hunder hproperty) h
    apply iwalk hps hhoisted
    exact List.forall_mem_append.mpr ⟨hproperties,
      List.forall_mem_singleton.mpr (documented_referTo hunder hproperty hname)⟩
  case keep =>
    intro source name property ps w w' _ iwalk hps h hproperties
    obtain ⟨hproperty, hps⟩ := List.forall_mem_cons.mp hps
    apply iwalk hps h
    exact List.forall_mem_append.mpr ⟨hproperties, List.forall_mem_singleton.mpr hproperty⟩

theorem extractAll_documented {roots : List Occurrence} {table : Table}
    (hroots : ∀ root ∈ roots, root.schema.Documented) (h : table.Documented) :
    (extractAll roots table).Documented := by
  induction roots generalizing table with
  | nil => exact h
  | cons root roots ih =>
      obtain ⟨hroot, hroots⟩ := List.forall_mem_cons.mp hroots
      exact ih hroots (extract_documented root table hroot h).1

theorem run_documented (endpoints : List Endpoint) (roles : List Role) :
    ∀ d ∈ (run endpoints roles).2.objects, d.schema.Documented := by
  have hroots : ∀ root ∈ rootsOf (wantedBodies endpoints roles), root.schema.Documented := by
    intro root hroot
    obtain ⟨-, -, -, v, -, -, hv⟩ := exists_infer_of_mem_rootsOf hroot
    exact hv ▸ infer_documented v
  have hall := (extractAll_documented hroots Table.documented_empty).schema
  rwa [← readBodies_table _ {}] at hall

theorem ofValue_documented (value : Json) (base : String) (role : Role) :
    ∀ d ∈ ofValue value base role, d.schema.Documented := by
  have hvalue := infer_documented value
  unfold ofValue
  split
  · next properties required ref hinfer =>
      obtain ⟨hrequired, -, hps⟩ := documented_object_iff.mp (hinfer ▸ hvalue)
      refine (extract_documented _ {} ?_ Table.documented_empty).1.schema
      exact documented_object_iff.mpr ⟨hrequired, isReference_none, hps⟩
  · nofun

/-! ## Main result -/

/-- **A schema is read back from its document**, the same at every depth, when required names are
texts, references are names and leaves refer to nothing. The schemas of extracted objects are
such. -/
theorem ofJson_toJson_and_extracted :
    (∀ s : Schema, s.Documented →
      s.checkRequired = .ok () ∧ ∃ t, Schema.ofJson (s.toJson true) = .ok t ∧ t.Same s) ∧
    (∀ endpoints roles, ∀ d ∈ (run endpoints roles).2.objects, d.schema.Documented) ∧
    ∀ value base role, ∀ d ∈ ofValue value base role, d.schema.Documented :=
  ⟨fun _ h => h.exists_ofJson, run_documented, ofValue_documented⟩

/-- An object with a list of objects of which each refers by name. -/
theorem ofJson_toJson_and_extracted_orders :
    let item : Schema := .object [("id", .leaf .number none)] [.str "id"] (some (.str "ItemResponse"))
    let order : Schema := .object [("z", .array item none), ("a", .leaf .null none)]
      [.str "z", .str "a"] none
    order.Documented ∧ order.checkRequired = .ok () ∧
      (∃ t, Schema.ofJson (order.toJson true) = .ok t ∧ t.Same order) ∧
      Schema.ofJson (order.toJson true) = .ok (.object
        [("z", .array item none), ("a", .leaf .null none)] [.str "a", .str "z"] none) := by
  intro item order
  have hitem : item.Documented := by
    refine documented_object_iff.mpr ⟨?_, isReference_str (by decide), ?_⟩
    · simp [Json.AllTexts]
    · simp [Schema.documented_leaf_iff]
  have horder : order.Documented := by
    refine documented_object_iff.mpr ⟨?_, isReference_none, ?_⟩
    · simp [Json.AllTexts]
    · simp [Schema.documented_leaf_iff, documented_array_iff, isReference_none, hitem]
  obtain ⟨hcheck, hread⟩ := ofJson_toJson_and_extracted.1 order horder
  exact ⟨horder, hcheck, hread, rfl⟩

end DtoForge.Extraction
