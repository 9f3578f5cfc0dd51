import DtoForge.Proofs.Extraction.Completion

/-! # Renumbering — extraction into a table that is not empty

An object of one endpoint and role only looks up structures of its own endpoint and role. So two
tables that agree on these, one of them behind some more places, stay in step: `Behind` ties them,
and `extract_behind` keeps the tie through the recursion. What is hoisted into the table behind is
what is hoisted into the other one, with all numbers raised by the number of places before it. -/

namespace DtoForge

namespace Extraction

/-! ## Numbers of identifiers -/

/-- The identifier with the number behind its last underscore raised. -/
def renumberId (offset : Nat) (id : String) : String :=
  let back := id.toList.reverse
  let digits := (back.takeWhile (· != '_')).reverse
  String.ofList (back.dropWhile (· != '_')).reverse ++
    toString (Nat.ofDigitChars 10 digits 0 + offset)

/-- An identifier that ends in the number it was given. -/
def Numbered (id : String) : Prop :=
  ∃ key n, id = objectId key n

theorem renumberId_objectId (offset : Nat) (key : SeenKey) (n : Nat) :
    renumberId offset (objectId key n) = objectId key (n + offset) := by
  have hback : (objectId key n).toList.reverse =
      (toString n).toList.reverse ++ '_' :: (idStem key).toList.reverse := by
    simp [toList_objectId]
  have hdigits : '_' ∉ (toString n).toList.reverse := by
    rw [List.mem_reverse]
    exact Text.underscore_not_mem_toString n
  apply String.toList_inj.mp
  rw [toList_objectId, renumberId, hback, Text.takeWhile_ne_append hdigits,
    Text.dropWhile_ne_append hdigits, List.reverse_reverse, Text.ofDigitChars_toString]
  simp

theorem renumberId_inj {offset : Nat} {id id' : String} (h : Numbered id) (h' : Numbered id')
    (heq : renumberId offset id = renumberId offset id') : id = id' := by
  obtain ⟨key, n, rfl⟩ := h
  obtain ⟨key', n', rfl⟩ := h'
  rw [renumberId_objectId, renumberId_objectId, objectId_eq_iff] at heq
  exact objectId_eq_iff.mpr ⟨heq.1, by omega⟩

end Extraction

open Extraction

/-- The object with all numbers raised, its own and those of its dependencies. -/
def ObjectDefinition.renumber (offset : Nat) (d : ObjectDefinition) : ObjectDefinition :=
  { d with id := renumberId offset d.id, dependencies := d.dependencies.map (renumberId offset) }

namespace Extraction

/-! ## Tables in step -/

/-- A key of an endpoint and a role. -/
def SeenKey.From (endpointId : String) (role : Role) (key : SeenKey) : Prop :=
  key.endpointId = endpointId ∧ key.role = role

theorem Occurrence.key_from (o : Occurrence) : o.key.From o.source.endpointId o.source.role :=
  ⟨rfl, rfl⟩

/-- A table agrees with another one behind some places, as far as one source is concerned. -/
structure Behind (front : List (Option ObjectDefinition)) (source : ObjectSource)
    (table shared : Table) : Prop where
  counter : shared.counter = table.counter + front.length
  places : shared.places = front ++ table.places.map (Option.map (·.renumber front.length))
  found : ∀ key, key.From source.endpointId source.role →
    shared.find? key = (table.find? key).map (·.renumber front.length)
  numbered : ∀ key d, table.find? key = some d → Numbered d.id

/-- Walks in step: the same properties, and the same dependencies but for their numbers. -/
structure Walk.Behind (front : List (Option ObjectDefinition)) (source : ObjectSource)
    (w shared : Walk) : Prop where
  table : Extraction.Behind front source w.table shared.table
  properties : shared.properties = w.properties
  dependencies : shared.dependencies = w.dependencies.map (renumberId front.length)
  numbered : ∀ id ∈ w.dependencies, Numbered id

section Behind

variable {front : List (Option ObjectDefinition)} {source : ObjectSource} {table shared : Table}

theorem Behind.length_places (h : Behind front source table shared) :
    shared.places.length = front.length + table.places.length := by
  rw [h.places, List.length_append, List.length_map]

theorem Behind.reserve (h : Behind front source table shared) :
    Behind front source table.reserve shared.reserve where
  counter := by
    simp only [Table.reserve, h.counter]
    omega
  places := by simp [Table.reserve, h.places]
  found := h.found
  numbered := h.numbered

theorem Behind.fill (h : Behind front source table shared) (place : Nat) (key : SeenKey)
    {d : ObjectDefinition} (hd : Numbered d.id) :
    Behind front source (table.fill place key d)
      (shared.fill (front.length + place) key (d.renumber front.length)) where
  counter := h.counter
  places := by
    simp only [Table.fill]
    rw [h.places, List.set_append_right _ _ (Nat.le_add_right _ _), Nat.add_sub_cancel_left,
      List.map_set]
    rfl
  found := by
    intro key' hkey'
    by_cases heq : key' = key
    · rw [heq, Table.find?_fill_self, Table.find?_fill_self]
      rfl
    · rw [Table.find?_fill_of_ne heq, Table.find?_fill_of_ne heq]
      exact h.found key' hkey'
  numbered := by
    intro key' e he
    by_cases heq : key' = key
    · rw [heq, Table.find?_fill_self] at he
      exact Option.some.inj he ▸ hd
    · rw [Table.find?_fill_of_ne heq] at he
      exact h.numbered key' e he

/-- Renumbering keeps identifiers apart, so it does not matter for what is listed already. -/
theorem map_addDependency {offset : Nat} {ids : List String} {id : String}
    (hids : ∀ id ∈ ids, Numbered id) (hid : Numbered id) :
    (addDependency ids id).map (renumberId offset) =
      addDependency (ids.map (renumberId offset)) (renumberId offset id) := by
  have hcontains : (ids.map (renumberId offset)).contains (renumberId offset id) =
      ids.contains id := by
    rw [Bool.eq_iff_iff, List.contains_iff_mem, List.contains_iff_mem]
    constructor
    · intro hmem
      obtain ⟨id', hid', heq⟩ := List.mem_map.mp hmem
      exact renumberId_inj (hids id' hid') hid heq ▸ hid'
    · exact List.mem_map_of_mem
  rw [addDependency, addDependency, hcontains]
  split
  · rfl
  · rw [List.map_append, List.map_singleton]

theorem numbered_addDependency {ids : List String} {id : String} (hids : ∀ id ∈ ids, Numbered id)
    (hid : Numbered id) : ∀ id' ∈ addDependency ids id, Numbered id' := by
  intro id' hid'
  unfold addDependency at hid'
  split at hid'
  · exact hids id' hid'
  · rcases List.mem_append.mp hid' with hid' | hid'
    · exact hids id' hid'
    · exact List.mem_singleton.mp hid' ▸ hid

end Behind

/-! ## The recursion -/

/-- **Objects of one source are hoisted alike into tables in step**, but for their numbers. -/
theorem extract_behind (o : Occurrence) (table : Table) : ∀ front shared,
    Behind front o.source table shared →
      Behind front o.source (o.extract table).table (o.extract shared).table ∧
        (o.extract shared).definition = (o.extract table).definition.renumber front.length ∧
        Numbered (o.extract table).definition.id := by
  apply extract_induction
    (fun o table h => ∀ front shared, Behind front o.source table shared →
      Behind front o.source h.table (o.extract shared).table ∧
        (o.extract shared).definition = h.definition.renumber front.length ∧
        Numbered h.definition.id)
    (fun source ps w w' => ∀ front shared, Walk.Behind front source w shared →
      Walk.Behind front source w' (walkFrom source ps shared))
  case hit =>
    intro o table d hfound front shared h
    have hshared : shared.find? o.key = some (d.renumber front.length) := by
      rw [h.found _ o.key_from, hfound]
      rfl
    rw [extract_of_find?_eq_some hshared]
    exact ⟨h, rfl, h.numbered _ d hfound⟩
  case miss =>
    intro o table inner hnone ih front shared h
    have hshared : shared.find? o.key = none := by
      rw [h.found _ o.key_from, hnone]
      rfl
    rw [extract_of_find?_eq_none hshared]
    have hinner := ih front { table := shared.reserve } {
      table := h.reserve
      properties := rfl
      dependencies := rfl
      numbered := by simp }
    have hid : Numbered (o.complete table inner).definition.id := ⟨o.key, table.counter, rfl⟩
    -- both get the number that was next before anything below them was hoisted
    have hdefinition : (o.complete shared
        (walkFrom o.source o.properties { table := shared.reserve })).definition =
          (o.complete table inner).definition.renumber front.length := by
      simp only [Occurrence.complete, ObjectDefinition.renumber, hinner.properties,
        hinner.dependencies, h.counter, renumberId_objectId]
    refine ⟨?_, hdefinition, hid⟩
    have hfill := hinner.table.fill table.places.length o.key hid
    rw [← hdefinition, ← h.length_places] at hfill
    exact hfill
  case nil =>
    intro source w front shared h
    rw [walkFrom]
    exact h
  case refer =>
    intro source name property ps o w hoisted w' hunder ihoist iwalk front shared h
    obtain rfl := (Occurrence.under?_eq_some hunder).1
    obtain ⟨htable, hdefinition, hid⟩ := ihoist front shared.table h.table
    rw [walkFrom_cons_of_some hunder]
    apply iwalk
    exact {
      table := htable
      properties := by
        rw [hdefinition]
        simp [Walk.refer, h.properties, ObjectDefinition.renumber]
      dependencies := by
        show addDependency shared.dependencies (o.extract shared.table).definition.id = _
        rw [h.dependencies, hdefinition]
        exact (map_addDependency h.numbered hid).symm
      numbered := numbered_addDependency h.numbered hid }
  case keep =>
    intro source name property ps w w' hunder iwalk front shared h
    rw [walkFrom_cons_of_none hunder]
    apply iwalk
    exact {
      table := h.table
      properties := by simp [Walk.keep, h.properties]
      dependencies := h.dependencies
      numbered := h.numbered }

/-! ## What stays -/

/-- A later table, in which only structures of one endpoint and role are remembered anew and only
objects of one source are listed anew. -/
structure Table.Frame (source : ObjectSource) (table table' : Table) : Prop where
  found : ∀ key : SeenKey, ¬ key.From source.endpointId source.role →
    table'.find? key = table.find? key
  listed : ∀ d, some d ∈ table'.places → some d ∈ table.places ∨ d.source = source

theorem Table.Frame.refl (source : ObjectSource) (table : Table) : Table.Frame source table table :=
  ⟨fun _ _ => rfl, fun _ => Or.inl⟩

theorem Table.Frame.trans {source : ObjectSource} {table table' table'' : Table}
    (h : Table.Frame source table table') (h' : Table.Frame source table' table'') :
    Table.Frame source table table'' where
  found := fun key hkey => (h'.found key hkey).trans (h.found key hkey)
  listed := by
    intro d hd
    rcases h'.listed d hd with hd | hd
    · exact h.listed d hd
    · exact Or.inr hd

/-- Hoisting an object leaves all other endpoints and roles as they are. -/
theorem extract_frame (o : Occurrence) (table : Table) :
    Table.Frame o.source table (o.extract table).table := by
  apply extract_induction (fun o table h => Table.Frame o.source table h.table)
    (fun source _ w w' => Table.Frame source w.table w'.table)
  case hit =>
    intro o table d _
    exact Table.Frame.refl o.source table
  case miss =>
    intro o table inner _ ih
    refine ⟨?_, ?_⟩
    · intro key hkey
      have hne : key ≠ o.key := by
        rintro rfl
        exact hkey o.key_from
      rw [Occurrence.complete, Table.find?_fill_of_ne hne]
      exact ih.found key hkey
    · intro d hd
      rcases List.mem_or_eq_of_mem_set hd with hd | hd
      · rcases ih.listed d hd with hd | hd
        · exact Or.inl (by simpa [Table.reserve] using hd)
        · exact Or.inr hd
      · exact Or.inr (Option.some.inj hd ▸ rfl)
  case nil =>
    intro source w
    exact Table.Frame.refl source w.table
  case refer =>
    intro source name property ps o w hoisted w' hunder ihoist iwalk
    obtain rfl := (Occurrence.under?_eq_some hunder).1
    exact ihoist.trans iwalk
  case keep =>
    intro source name property ps w w' _ iwalk
    exact iwalk

end Extraction

end DtoForge
