import DtoForge.Proofs.Extraction.Walk
import DtoForge.Proofs.Schema.Structure

/-! # Linking — references lead to listed objects

Whatever an extracted object refers to is an extracted object. `Schema.Linked` says what becomes of
a property: where it hoists an object it refers to one of some names, and everywhere else it refers
to nothing. `extract_linked` keeps this for all objects of a table, also where two structures share
a fingerprint: a remembered object is a listed one, whatever its structure. -/

namespace DtoForge

namespace Schema

/-- What becomes of a property when the objects of some names are listed. -/
inductive Linked (names : List String) : Schema → Prop
  /-- An object with properties refers to a listed one. -/
  | object {p ps required name} : name ∈ names →
      Linked names (.object (p :: ps) required (some (.str name)))
  /-- The items of an array are objects with properties and refer to a listed one. -/
  | items {p ps required name} : name ∈ names →
      Linked names (.array (.object (p :: ps) required (some (.str name))) none)
  /-- A property that hoists nothing refers to nothing. -/
  | plain {s} : s.Unreferenced →
      (∀ source name, Extraction.Occurrence.under? source name s = none) → Linked names s

theorem Linked.mono {names names' : List String} {s : Schema} (h : Linked names s)
    (hsub : names ⊆ names') : Linked names' s := by
  cases h with
  | object hname => exact Linked.object (hsub hname)
  | items hname => exact Linked.items (hsub hname)
  | plain hs hunder => exact Linked.plain hs hunder

end Schema

namespace Extraction

/-! ## Properties -/

/-- A property that was made to refer to a listed object is linked. -/
theorem linked_referTo {source : ObjectSource} {name : RawText} {s : Schema} {o : Occurrence}
    (h : Occurrence.under? source name s = some o) {names : List String} {target : String}
    (htarget : target ∈ names) : (referTo target s).Linked names := by
  obtain ⟨-, hne, ⟨ref, rfl, -⟩ | ⟨ref, ref', rfl, -⟩⟩ := Occurrence.under?_eq_some h
  all_goals obtain ⟨p, ps, hps⟩ := List.exists_cons_of_ne_nil hne
  · rw [hps]
    exact Schema.Linked.object htarget
  · rw [hps]
    exact Schema.Linked.items htarget

/-- Whether a property hoists an object does not hang on where it was found. -/
theorem Occurrence.under?_eq_none {source : ObjectSource} {name : RawText} {s : Schema}
    (h : Occurrence.under? source name s = none) (source' : ObjectSource) (name' : RawText) :
    Occurrence.under? source' name' s = none := by
  cases h' : Occurrence.under? source' name' s with
  | none => rfl
  | some o =>
      obtain ⟨-, hne, ⟨ref, rfl, -⟩ | ⟨ref, ref', rfl, -⟩⟩ := Occurrence.under?_eq_some h'
      all_goals
        obtain ⟨p, ps, hps⟩ := List.exists_cons_of_ne_nil hne
        rw [hps] at h
        cases h

/-- The properties of an object that a property without references hoists have none. -/
theorem Occurrence.unreferenced_of_under? {source : ObjectSource} {name : RawText} {s : Schema}
    {o : Occurrence} (h : Occurrence.under? source name s = some o) (hs : s.Unreferenced) :
    ∀ p ∈ o.properties, p.2.Unreferenced := by
  obtain ⟨-, -, ⟨ref, rfl, -⟩ | ⟨ref, ref', rfl, -⟩⟩ := Occurrence.under?_eq_some h
  · exact (Schema.everywhere_object_iff.mp hs).2
  · exact (Schema.everywhere_object_iff.mp hs.2).2

/-! ## Tables -/

/-- The names of the objects of a table. -/
def Table.names (t : Table) : List String :=
  t.objects.map (·.name)

/-- A later table, with the same places and more behind them. -/
def Table.Within (table table' : Table) : Prop :=
  table.places <+: table'.places

theorem Table.Within.names_subset {table table' : Table} (h : table.Within table') :
    table.names ⊆ table'.names :=
  List.map_subset _ (h.filterMap id).subset

/-- Remembered objects are listed, and every listed object refers to listed objects. -/
structure Table.Linked (table : Table) : Prop where
  remembered : ∀ key d, table.find? key = some d → d ∈ table.objects
  properties : ∀ d ∈ table.objects, ∀ p ∈ d.schema.properties, p.2.Linked table.names

theorem Table.linked_empty : Table.Linked {} where
  remembered := by simp [Table.find?]
  properties := by simp [Table.objects]

section Table

variable {table inner : Table} {places : List (Option ObjectDefinition)}
  {key : SeenKey} {d : ObjectDefinition}

theorem Table.objects_reserve : table.reserve.objects = table.objects := by
  simp [Table.reserve, Table.objects]

theorem Table.Linked.reserve (h : table.Linked) : table.reserve.Linked where
  remembered := by
    intro key d hfound
    rw [Table.objects_reserve]
    exact h.remembered key d hfound
  properties := by
    rw [Table.names, Table.objects_reserve]
    exact h.properties

/-- Filling a reserved place lists one object more. -/
theorem Table.mem_objects_fill (hplaces : places ++ [none] <+: table.places)
    {e : ObjectDefinition} :
    e ∈ (table.fill places.length key d).objects ↔ e = d ∨ e ∈ table.objects := by
  obtain ⟨behind, hbehind⟩ := hplaces
  have hfilled : (table.fill places.length key d).places = places ++ some d :: behind := by
    simp [Table.fill, ← hbehind]
  rw [Table.objects, Table.objects, hfilled, ← hbehind]
  simp only [List.filterMap_append, List.filterMap_cons, List.filterMap_nil, List.append_nil, id_eq,
    List.mem_append, List.mem_cons]
  exact or_left_comm

theorem Table.Linked.fill (h : table.Linked) (hplaces : places ++ [none] <+: table.places)
    (hd : ∀ p ∈ d.schema.properties, p.2.Linked table.names) :
    (table.fill places.length key d).Linked ∧ d.name ∈ (table.fill places.length key d).names := by
  have hnames : table.names ⊆ (table.fill places.length key d).names := by
    apply List.map_subset
    intro e he
    exact (Table.mem_objects_fill hplaces).mpr (Or.inr he)
  have hlinked : (table.fill places.length key d).Linked := {
    remembered := by
      intro key' e he
      rw [Table.mem_objects_fill hplaces]
      by_cases hkey : key' = key
      · rw [hkey, Table.find?_fill_self] at he
        exact Or.inl (Option.some.inj he).symm
      · rw [Table.find?_fill_of_ne hkey] at he
        exact Or.inr (h.remembered key' e he)
    properties := by
      intro e he p hp
      rcases (Table.mem_objects_fill hplaces).mp he with rfl | he
      · exact (hd p hp).mono hnames
      · exact (h.properties e he p hp).mono hnames }
  exact ⟨hlinked, List.mem_map_of_mem ((Table.mem_objects_fill hplaces).mpr (Or.inl rfl))⟩

end Table

/-! ## The recursion -/

/-- **Hoisting an object keeps a table linked**, and the object that is given is a listed one. -/
theorem extract_linked (o : Occurrence) (table : Table) :
    (∀ p ∈ o.properties, p.2.Unreferenced) → table.Linked →
      (o.extract table).table.Linked ∧ table.Within (o.extract table).table ∧
        (o.extract table).definition.name ∈ (o.extract table).table.names := by
  apply extract_induction
    (fun o table h => (∀ p ∈ o.properties, p.2.Unreferenced) → table.Linked →
      h.table.Linked ∧ table.Within h.table ∧ h.definition.name ∈ h.table.names)
    (fun _ ps w w' => (∀ p ∈ ps, p.2.Unreferenced) → w.table.Linked →
      (∀ p ∈ w.properties, p.2.Linked w.table.names) →
      w'.table.Linked ∧ w.table.Within w'.table ∧ ∀ p ∈ w'.properties, p.2.Linked w'.table.names)
  case hit =>
    intro o table d hfound _ h
    exact ⟨h, List.prefix_rfl, List.mem_map_of_mem (h.remembered _ d hfound)⟩
  case miss =>
    intro o table inner _ ih hplain h
    obtain ⟨hinner, hwithin, hproperties⟩ := ih hplain h.reserve (by simp)
    -- the place that was reserved is still empty
    have hfilled : (o.complete table inner).table.Linked ∧
        (o.complete table inner).definition.name ∈ (o.complete table inner).table.names :=
      hinner.fill hwithin hproperties
    refine ⟨hfilled.1, ?_, hfilled.2⟩
    obtain ⟨behind, hbehind⟩ := hwithin
    refine ⟨some (o.complete table inner).definition :: behind, ?_⟩
    simp [Occurrence.complete, Table.fill, ← hbehind, Table.reserve]
  case nil =>
    intro _ w _ h hproperties
    exact ⟨h, List.prefix_rfl, hproperties⟩
  case refer =>
    intro source name property ps o w hoisted w' hunder ihoist iwalk hplain h hproperties
    obtain ⟨hproperty, hplain⟩ := List.forall_mem_cons.mp hplain
    obtain ⟨hhoisted, hwithin, hname⟩ :=
      ihoist (Occurrence.unreferenced_of_under? hunder hproperty) h
    have hreferred : ∀ p ∈ w.properties ++ [(name, referTo hoisted.definition.name property)],
        p.2.Linked hoisted.table.names := by
      intro p hp
      rcases List.mem_append.mp hp with hp | hp
      · exact (hproperties p hp).mono hwithin.names_subset
      · rw [List.mem_singleton.mp hp]
        exact linked_referTo hunder hname
    obtain ⟨hwalked, hwithin', hproperties'⟩ := iwalk hplain hhoisted hreferred
    exact ⟨hwalked, hwithin.trans hwithin', hproperties'⟩
  case keep =>
    intro source name property ps w w' hunder iwalk hplain h hproperties
    obtain ⟨hproperty, hplain⟩ := List.forall_mem_cons.mp hplain
    have hkept : ∀ p ∈ w.properties ++ [(name, property)], p.2.Linked w.table.names := by
      intro p hp
      rcases List.mem_append.mp hp with hp | hp
      · exact hproperties p hp
      · rw [List.mem_singleton.mp hp]
        exact Schema.Linked.plain hproperty (Occurrence.under?_eq_none hunder)
    exact iwalk hplain h hkept

/-- The properties of the objects of a document are linked to one another. -/
theorem ofValue_linked (value : Json) (base : String) (role : Role) :
    ∀ d ∈ ofValue value base role, ∀ p ∈ d.schema.properties,
      p.2.Linked ((ofValue value base role).map (·.name)) := by
  have hplain := Schema.infer_unreferenced value
  unfold ofValue
  split
  · next properties required ref hvalue =>
      rw [hvalue] at hplain
      exact (extract_linked _ {} (Schema.everywhere_object_iff.mp hplain).2
        Table.linked_empty).1.properties
  · simp

theorem extractAll_linked {roots : List Occurrence} {table : Table}
    (hplain : ∀ root ∈ roots, ∀ p ∈ root.properties, p.2.Unreferenced) (h : table.Linked) :
    (extractAll roots table).Linked := by
  induction roots generalizing table with
  | nil => exact h
  | cons root roots ih =>
      obtain ⟨hroot, hroots⟩ := List.forall_mem_cons.mp hplain
      exact ih hroots (extract_linked root table hroot h).1

/-- The properties of the objects of a run are linked to one another. -/
theorem run_linked (endpoints : List Endpoint) (roles : List Role) :
    ∀ d ∈ (run endpoints roles).2.objects, ∀ p ∈ d.schema.properties,
      p.2.Linked ((run endpoints roles).2.objects.map (·.name)) := by
  have hplain : ∀ root ∈ rootsOf (wantedBodies endpoints roles),
      ∀ p ∈ root.properties, p.2.Unreferenced := by
    intro root hroot
    obtain ⟨b, -, hbody⟩ := exists_readBody_of_mem_rootsOf hroot
    obtain ⟨⟨body, value, ref, -, -, hvalue⟩, -⟩ := exists_infer_of_readBody hbody
    exact (Schema.everywhere_object_iff.mp (hvalue ▸ Schema.infer_unreferenced value)).2
  have hlinked := (extractAll_linked hplain Table.linked_empty).properties
  rwa [← readBodies_table _ {}] at hlinked

end Extraction

end DtoForge
