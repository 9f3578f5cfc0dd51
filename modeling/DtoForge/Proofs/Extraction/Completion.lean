import DtoForge.Proofs.Extraction.Walk
import DtoForge.Proofs.Packaging.Exploration
import DtoForge.Proofs.Text.Separator

/-! # Completion — objects are completed after what they depend on

Objects stand in order of discovery, each before what it holds, so a dependency may stand on
either side of its dependent. The order that decides is another one, in which objects are
completed: a structure is remembered only when its object is complete, so whatever is referred to
was completed before. `Completed` ties the table to that order, and `extract_explored` keeps it,
also where two structures share a fingerprint. Hence extracted objects have no cycles, and the order
in which they were completed is the one in which they are put. -/

namespace DtoForge.Extraction

open scoped List
open Packaging (Grounded DependsOn Explored)

/-! ## Identifiers -/

/-- What stands before the number of an identifier. -/
def idStem (key : SeenKey) : String :=
  key.endpointId ++ "_" ++ key.role.word ++ "_" ++ String.ofList (key.fingerprint.toList.take 12)

theorem toList_objectId (key : SeenKey) (n : Nat) :
    (objectId key n).toList = (idStem key).toList ++ '_' :: (toString n).toList := by
  have hstem : objectId key n = idStem key ++ "_" ++ toString n := rfl
  rw [hstem, String.toList_append, String.toList_append, List.append_assoc]
  rfl

/-- An identifier is determined by its number and what stands before it. -/
theorem objectId_eq_iff {key key' : SeenKey} {m n : Nat} :
    objectId key m = objectId key' n ↔ idStem key = idStem key' ∧ m = n := by
  rw [← String.toList_inj, toList_objectId, toList_objectId]
  constructor
  · intro h
    obtain ⟨hstem, hnumber⟩ := Text.last_separator_inj (Text.underscore_not_mem_toString m)
      (Text.underscore_not_mem_toString n) h
    exact ⟨String.toList_inj.mp hstem, Text.toString_injective (String.toList_inj.mp hnumber)⟩
  · rintro ⟨hstem, rfl⟩
    rw [hstem]

/-- Identifiers with different numbers are different, whatever they are made of. -/
theorem objectId_inj {key key' : SeenKey} {m n : Nat} (h : objectId key m = objectId key' n) :
    m = n :=
  (objectId_eq_iff.mp h).2

/-! ## The order of completion -/

/-- The objects of a table in the order in which they were completed, the last one first. -/
structure Completed (table : Table) (done : List ObjectDefinition) : Prop where
  counter : table.counter = table.places.length
  perm : done.Perm table.objects
  numbered : ∀ i d, table.places[i]? = some (some d) → ∃ key, d.id = objectId key i
  remembered : ∀ key d, table.find? key = some d → d ∈ done
  grounded : Grounded done

/-- A later table, all of whose new places are filled. -/
def Grows (table table' : Table) : Prop :=
  ∃ found : List ObjectDefinition, table'.places = table.places ++ found.map some

theorem Table.objects_of_places {table : Table} {objects : List ObjectDefinition}
    (h : table.places = objects.map some) : table.objects = objects := by
  simp [Table.objects, h, List.filterMap_map]

/-- A table that grew out of an empty one has no empty places. -/
theorem Grows.places_eq {table : Table} (h : Grows {} table) :
    table.places = table.objects.map some := by
  obtain ⟨found, hplaces⟩ := h
  have hfound : table.places = found.map some := hplaces
  rw [Table.objects_of_places hfound, hfound]

theorem completed_empty : Completed {} [] where
  counter := rfl
  perm := List.Perm.nil
  numbered := by simp
  remembered := by simp [Table.find?]
  grounded := trivial

section Table

variable {table : Table} {done : List ObjectDefinition}

theorem Completed.reserve (h : Completed table done) : Completed table.reserve done where
  counter := by simp [Table.reserve, h.counter]
  perm := by simpa [Table.reserve, Table.objects] using h.perm
  numbered := by
    intro i d hi
    apply h.numbered i d
    rw [Table.reserve, List.getElem?_append] at hi
    split at hi
    · exact hi
    · simp [List.getElem?_singleton] at hi
  remembered := h.remembered
  grounded := h.grounded

/-- Filling the place that was reserved first completes one object more. -/
theorem Completed.fill {places : List (Option ObjectDefinition)}
    {found : List ObjectDefinition} {key : SeenKey} {d : ObjectDefinition}
    (h : Completed table done) (hplaces : table.places = (places ++ [none]) ++ found.map some)
    (hid : d.id = objectId key places.length)
    (hdeps : ∀ id ∈ d.dependencies, id ∈ done.map (·.id)) :
    Completed (table.fill places.length key d) (d :: done) ∧
      (table.fill places.length key d).places = places ++ some d :: found.map some := by
  have hfilled : (table.fill places.length key d).places = places ++ some d :: found.map some := by
    simp [Table.fill, hplaces]
  refine ⟨?_, hfilled⟩
  exact {
    counter := by
      rw [hfilled]
      simp [Table.fill, h.counter, hplaces]
    perm := by
      have hperm := h.perm
      simp only [Table.objects, hplaces, hfilled] at hperm ⊢
      simp only [List.filterMap_append, List.filterMap_cons, id_eq, List.filterMap_nil,
        List.append_nil] at hperm ⊢
      exact (hperm.cons d).trans List.perm_middle.symm
    numbered := by
      intro i e hi
      rw [hfilled, List.getElem?_append] at hi
      split at hi
      · next hlt =>
          apply h.numbered i e
          rw [hplaces, List.append_assoc, List.getElem?_append_left hlt]
          exact hi
      · next hge =>
          -- the filled place itself, or one behind it
          cases hsub : i - places.length with
          | zero =>
              have hi' : i = places.length := by omega
              simp only [hsub, List.getElem?_cons_zero, Option.some.injEq] at hi
              exact ⟨key, by rw [← hi, hi', hid]⟩
          | succ k =>
              apply h.numbered i e
              rw [hplaces, List.append_assoc, List.getElem?_append_right (by omega), hsub]
              simpa [hsub] using hi
    remembered := by
      intro key' e he
      by_cases hkey : key' = key
      · subst hkey
        rw [Table.find?_fill_self, Option.some.injEq] at he
        exact he ▸ List.mem_cons_self
      · rw [Table.find?_fill_of_ne hkey] at he
        exact List.mem_cons_of_mem _ (h.remembered key' e he)
    grounded := ⟨hdeps, h.grounded⟩ }

end Table

/-- The next identifier is that of no completed object. -/
theorem Completed.fresh {table : Table} {done : List ObjectDefinition} (h : Completed table done)
    (key : SeenKey) : objectId key table.places.length ∉ done.map (·.id) := by
  intro hmem
  obtain ⟨d, hd, hid⟩ := List.mem_map.mp hmem
  have hlisted : some d ∈ table.places := by
    obtain ⟨place, hplace, rfl⟩ := List.mem_filterMap.mp (h.perm.mem_iff.mp hd)
    exact hplace
  obtain ⟨i, hi, hplace⟩ := List.mem_iff_getElem.mp hlisted
  obtain ⟨key', hkey'⟩ := h.numbered i d (by rw [List.getElem?_eq_getElem hi, hplace])
  have hnumber := objectId_inj (hkey'.symm.trans hid)
  omega

/-- **Hoisting an object explores it**, and keeps the order of completion. -/
theorem extract_explored (o : Occurrence) {table : Table} {done : List ObjectDefinition}
    (h : Completed table done) :
    ∃ found completed, Explored done [(o.extract table).definition.id] found completed ∧
      Completed (o.extract table).table (completed.reverse ++ done) ∧
      (o.extract table).definition ∈ completed.reverse ++ done ∧
      (o.extract table).table.places = table.places ++ found.map some := by
  revert done
  apply extract_induction
    (fun _ table h => ∀ {done}, Completed table done →
      ∃ found completed, Explored done [h.definition.id] found completed ∧
        Completed h.table (completed.reverse ++ done) ∧
        h.definition ∈ completed.reverse ++ done ∧ h.table.places = table.places ++ found.map some)
    (fun _ _ w w' => ∀ {done}, Completed w.table done →
      (∀ id ∈ w.dependencies, id ∈ done.map (·.id)) →
      ∃ ids found completed, w'.dependencies = w.dependencies ++ ids ∧
        Explored done ids found completed ∧
        Completed w'.table (completed.reverse ++ done) ∧
        w'.table.places = w.table.places ++ found.map some)
  case hit =>
    intro o table d hfound done h
    have hd := h.remembered _ d hfound
    exact ⟨[], [], .known (List.mem_map_of_mem hd) (.nil done), h, hd, by simp⟩
  case miss =>
    intro o table inner _ ih done h
    -- what the object holds is completed first, then the object itself
    obtain ⟨ids, found, completed, hdeps, hexplored, hinner, hplaces⟩ := ih h.reserve (by simp)
    have hid : (o.complete table inner).definition.id = objectId o.key table.places.length := by
      simp only [Occurrence.complete, h.counter]
    obtain rfl : inner.dependencies = ids := hdeps
    obtain ⟨hcompleted, hfilled⟩ := hinner.fill hplaces hid hexplored.ids_done
    refine ⟨_ :: (found ++ []), completed ++ [(o.complete table inner).definition],
      .new (hid ▸ h.fresh o.key) hexplored (.nil _), ?_, ?_, ?_⟩
    · rw [List.reverse_concat]
      exact hcompleted
    · rw [List.reverse_concat]
      exact List.mem_cons_self
    · rw [List.append_nil]
      exact hfilled
  case nil =>
    intro _ w done h hdeps
    exact ⟨[], [], [], by simp, .nil done, h, by simp⟩
  case refer =>
    intro source name property ps o w hoisted w' _ ihoist iwalk done h hdeps
    obtain ⟨found, completed, hexplored, hhoisted, hmem, hplaces⟩ := ihoist h
    -- an identifier that is listed already was explored before
    obtain ⟨ids, hadded, hexplored⟩ : ∃ ids,
        addDependency w.dependencies hoisted.definition.id = w.dependencies ++ ids ∧
          Explored done ids found completed := by
      unfold addDependency
      split
      next hlisted =>
        obtain ⟨rfl, rfl⟩ := hexplored.eq_nil_of_known (hdeps _ (by simpa using hlisted))
        exact ⟨[], by simp, .nil done⟩
      next => exact ⟨_, rfl, hexplored⟩
    have hdeps' : ∀ id ∈ w.dependencies ++ ids, id ∈ (completed.reverse ++ done).map (·.id) := by
      intro id hid
      rcases List.mem_append.mp hid with hid | hid
      · rw [List.map_append]
        exact List.mem_append_right _ (hdeps id hid)
      · exact hexplored.ids_done id hid
    obtain ⟨ids', found', completed', hdeps', hexplored', hwalked, hplaces'⟩ :=
      iwalk hhoisted (by rw [Walk.refer, hadded]; exact hdeps')
    refine ⟨ids ++ ids', found ++ found', completed ++ completed', ?_, hexplored.append hexplored',
      ?_, ?_⟩
    · rw [hdeps', ← List.append_assoc, ← hadded]
      rfl
    · rw [List.reverse_append, List.append_assoc]
      exact hwalked
    · rw [hplaces', List.map_append, ← List.append_assoc, ← hplaces]
      rfl
  case keep =>
    intro source name property ps w w' _ iwalk done h hdeps
    exact iwalk h hdeps

theorem extractAll_explored (roots : List Occurrence) {table : Table}
    {done : List ObjectDefinition} (h : Completed table done) :
    ∃ ids found completed, Explored done ids found completed ∧
      Completed (extractAll roots table) (completed.reverse ++ done) ∧
      (extractAll roots table).places = table.places ++ found.map some := by
  induction roots generalizing table done with
  | nil => exact ⟨[], [], [], .nil done, h, by simp [extractAll]⟩
  | cons root roots ih =>
      obtain ⟨found, completed, hexplored, hroot, -, hplaces⟩ := extract_explored root h
      obtain ⟨ids, found', completed', hexplored', hrest, hplaces'⟩ := ih hroot
      refine ⟨_, found ++ found', completed ++ completed', hexplored.append hexplored', ?_, ?_⟩
      · rw [List.reverse_append, List.append_assoc]
        exact hrest
      · rw [List.map_append, ← List.append_assoc, ← hplaces, ← hplaces']
        rfl

/-! ## Extracted objects -/

/-- Identifiers that carry the numbers of their places are different. -/
theorem Completed.ids_nodup {table : Table} {done objects : List ObjectDefinition}
    (h : Completed table done) (hplaces : table.places = objects.map some) :
    (objects.map (·.id)).Nodup := by
  rw [List.nodup_iff_injective_getElem]
  intro i j hij
  have hnumbered : ∀ k : Fin (objects.map (·.id)).length,
      ∃ key, (objects.map (·.id))[k] = objectId key k := by
    intro k
    have hk : k.val < objects.length := by simpa using k.isLt
    obtain ⟨key, hkey⟩ := h.numbered k objects[k.val] (by simp [hplaces, hk])
    exact ⟨key, by simpa using hkey⟩
  obtain ⟨key, hi⟩ := hnumbered i
  obtain ⟨key', hj⟩ := hnumbered j
  exact Fin.ext (objectId_inj (hi.symm.trans (hij.trans hj)))

/-- What a run over roots leaves: all places are filled, and there is an order of completion. -/
theorem extractAll_empty (roots : List Occurrence) :
    ∃ done, Completed (extractAll roots {}) done ∧
      (extractAll roots {}).places = (extractAll roots {}).objects.map some := by
  obtain ⟨_, found, completed, -, hdone, hplaces⟩ := extractAll_explored roots completed_empty
  exact ⟨_, hdone, Grows.places_eq ⟨found, hplaces⟩⟩

theorem run_explored (endpoints : List Endpoint) (roles : List Role) :
    ∃ ids completed, Explored [] ids (run endpoints roles).2.objects completed := by
  obtain ⟨ids, found, completed, hexplored, -, hplaces⟩ :=
    extractAll_explored (rootsOf (wantedBodies endpoints roles)) completed_empty
  have hobjects : (run endpoints roles).2.objects = found := by
    rw [Run.objects, run, readBodies_table]
    exact Table.objects_of_places hplaces
  exact ⟨ids, completed, hobjects ▸ hexplored⟩

/-- Whatever an object of a table depends on is one of them. -/
theorem Completed.exists_of_mem_dependencies {table : Table} {done : List ObjectDefinition}
    (h : Completed table done) {d : ObjectDefinition} (hd : d ∈ table.objects) {id : String}
    (hid : id ∈ d.dependencies) : ∃ n ∈ table.objects, n.id = id := by
  have hknown := h.grounded.dependencies_known (h.perm.mem_iff.mpr hd) hid
  obtain ⟨n, hn, hnid⟩ := List.mem_map.mp hknown
  exact ⟨n, h.perm.mem_iff.mp hn, hnid⟩

/-- What a run leaves: objects with different identifiers, and an order of completion. -/
theorem run_completed (endpoints : List Endpoint) (roles : List Role) :
    ((run endpoints roles).2.objects.map (·.id)).Nodup ∧
      ∃ done, Completed (run endpoints roles).2.table done := by
  obtain ⟨done, hdone, hplaces⟩ := extractAll_empty (rootsOf (wantedBodies endpoints roles))
  have htable : (run endpoints roles).2.table =
      extractAll (rootsOf (wantedBodies endpoints roles)) {} := readBodies_table _ _
  rw [← htable] at hdone hplaces
  exact ⟨hdone.ids_nodup hplaces, done, hdone⟩

/-- **Extracted objects have no cycles.** Their identifiers are different, no cycle is reported
when they are ordered, each is listed once, and everything that one of them depends on is one of
them and stands before it. -/
theorem run_acyclic (endpoints : List Endpoint) (roles : List Role) :
    let objects := (run endpoints roles).2.objects
    (objects.map (·.id)).Nodup ∧ Packaging.cycleRecords objects = [] ∧
      (Packaging.orderByDependency objects).Perm objects ∧
      ∀ d ∈ objects, ∀ id ∈ d.dependencies, ∃ n ∈ objects, n.id = id ∧
        [n, d] <+ Packaging.orderByDependency objects := by
  intro objects
  obtain ⟨done, hdone, hplaces⟩ := extractAll_empty (rootsOf (wantedBodies endpoints roles))
  have hrun : objects = (extractAll (rootsOf (wantedBodies endpoints roles)) {}).objects := by
    show (readBodies _ _).2.table.objects = _
    rw [readBodies_table]
  rw [← hrun] at hplaces
  have hperm : done.Perm objects := hrun ▸ hdone.perm
  have hids := hdone.ids_nodup hplaces
  have hdone_nodup : done.Nodup := hperm.nodup_iff.mpr (List.Nodup.of_map _ hids)
  have hacyclic : ∀ a ∈ objects, ¬ Relation.TransGen (DependsOn objects) a a :=
    fun a ha => hdone.grounded.acyclic hids hperm.subset hdone_nodup a (hperm.mem_iff.mpr ha)
  have hnone := Packaging.cycles_eq_nil_of_acyclic hids hacyclic
  refine ⟨hids, by simp [Packaging.cycleRecords, hnone],
    Packaging.orderByDependency_perm_of_nodup hids, ?_⟩
  intro d hd id hid
  obtain ⟨n, hn, rfl⟩ : ∃ n ∈ objects, n.id = id := by
    have hknown := hdone.grounded.dependencies_known (hperm.mem_iff.mpr hd) hid
    obtain ⟨n, hn, hnid⟩ := List.mem_map.mp hknown
    exact ⟨n, hperm.mem_iff.mp hn, hnid⟩
  exact ⟨n, hn, rfl, Packaging.before_of_cycles_eq_nil hids hnone hd ⟨hn, hid⟩⟩

end DtoForge.Extraction
