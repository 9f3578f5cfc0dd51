import Mathlib.Data.List.Nodup
import DtoForge.Proofs.Extraction.Outline

/-! # Tracking — the table while objects are hoisted

`Tracks` ties a table to the occurrences kept so far and to those that are opened: reserved a place
each, but not yet completed. An opened occurrence is not found under its key, yet it is not hoisted
twice: what it holds has a shorter canonical text, and where digests do not collide another key.
`extract_tracks` keeps the tie through the recursion, so in the end every place holds the
definition of its occurrence. -/

namespace DtoForge.Extraction

/-! ## Digests -/

/-- The digests of texts tell them apart. -/
def CollisionFree (texts : List String) : Prop :=
  ∀ s ∈ texts, ∀ t ∈ texts, Digest.sha1Text s = Digest.sha1Text t → s = t

instance (texts : List String) : Decidable (CollisionFree texts) :=
  inferInstanceAs (Decidable (∀ s ∈ texts, ∀ t ∈ texts, _ → _))

/-- The canonical texts of the objects in the bodies of some roots. -/
def involved (roots : List Occurrence) : List String :=
  (roots.flatMap Occurrence.preorder).map fun o => o.schema.canonicalText

/-- Occurrences among which the key tells the canonical text. -/
structure Separated (all : List Occurrence) : Prop where
  named : ∀ o ∈ all, o.schema.Named
  text_eq : ∀ o ∈ all, ∀ o' ∈ all, o.key = o'.key → o.schema.text = o'.schema.text

theorem separated_of_collisionFree {roots : List Occurrence}
    (hfree : CollisionFree (involved roots)) (hroots : ∀ root ∈ roots, root.schema.Named) :
    Separated (roots.flatMap Occurrence.preorder) where
  named := by
    intro o ho
    obtain ⟨root, hroot, ho⟩ := List.mem_flatMap.mp ho
    exact everywhere_of_mem_preorder named_ref ho (hroots root hroot)
  text_eq := by
    intro o ho o' ho' hkey
    have hdigest : o.schema.fingerprint = o'.schema.fingerprint :=
      congrArg SeenKey.fingerprint hkey
    exact congrArg String.toList
      (hfree _ (List.mem_map_of_mem ho) _ (List.mem_map_of_mem ho') hdigest)

/-! ## Places of opened occurrences -/

/-- What stands in the place of a kept occurrence: nothing while it is opened. -/
def slot (kept opened : List Occurrence) (place : Nat) (o : Occurrence) : Option ObjectDefinition :=
  if o.key ∈ opened.map Occurrence.key then none else some (o.define kept place)

section Stable

variable {kept : List Occurrence}

theorem linked_append {source : ObjectSource} {p : RawText × Schema}
    (h : ∀ x, Occurrence.under? source p.1 p.2 = some x → x.key ∈ kept.map Occurrence.key)
    (new : List Occurrence) : linked (kept ++ new) source p = linked kept source p := by
  unfold linked
  split
  · next x hx => rw [nameOf_append (h x hx)]
  · rfl

/-- The definition of an occurrence stays the same when everything below it is kept. -/
theorem define_append {o : Occurrence} (h : ∀ x ∈ o.below, x.key ∈ kept.map Occurrence.key)
    (new : List Occurrence) (place : Nat) :
    o.define (kept ++ new) place = o.define kept place := by
  have hunder : ∀ p ∈ o.properties, ∀ x, Occurrence.under? o.source p.1 p.2 = some x →
      x.key ∈ kept.map Occurrence.key :=
    fun p hp x hx => h x (mem_belowAll.mpr (Below.here hp hx))
  have hlinked : o.properties.map (linked (kept ++ new) o.source) =
      o.properties.map (linked kept o.source) :=
    List.map_congr_left fun p hp => linked_append (hunder p hp) new
  have hids : (targets o.source o.properties).map (idOf (kept ++ new)) =
      (targets o.source o.properties).map (idOf kept) := by
    apply List.map_congr_left
    intro key hkey
    obtain ⟨p, hp, hkey⟩ := List.mem_filterMap.mp hkey
    obtain ⟨x, hx, rfl⟩ := Option.map_eq_some_iff.mp hkey
    exact idOf_append (hunder p hp x hx) new
  rw [Occurrence.define, Occurrence.define, hlinked, hids]

end Stable

/-! ## Tracking -/

/-- A table holds what the outline says of the occurrences kept so far, of which some are
opened. -/
structure Tracks (table : Table) (kept opened : List Occurrence) : Prop where
  nodup : (kept.map Occurrence.key).Nodup
  counter : table.counter = kept.length
  places : table.places = kept.mapIdx (slot kept opened)
  seen : table.seen.length + opened.length = kept.length
  found : ∀ place o, kept[place]? = some o → table.find? o.key = slot kept opened place o
  unknown : ∀ key, key ∉ kept.map Occurrence.key → table.find? key = none
  closed : ∀ o ∈ kept, o.key ∉ opened.map Occurrence.key →
    ∀ x ∈ o.below, x.key ∈ kept.map Occurrence.key

theorem tracks_empty : Tracks {} [] [] where
  nodup := List.nodup_nil
  counter := rfl
  places := rfl
  seen := rfl
  found := by simp
  unknown := by simp [Table.find?]
  closed := by simp

section Tracks

variable {table : Table} {kept opened : List Occurrence} {o : Occurrence}

theorem Tracks.place_eq (h : Tracks table kept opened) {i j : Nat} {s s' : Occurrence}
    (hi : kept[i]? = some s) (hj : kept[j]? = some s') (hkey : s.key = s'.key) : i = j := by
  have hlt : i < (kept.map Occurrence.key).length := by
    rw [List.length_map]
    exact (List.getElem?_eq_some_iff.mp hi).1
  apply (List.getElem?_inj hlt h.nodup).mp
  rw [List.getElem?_map, List.getElem?_map, hi, hj]
  exact congrArg some hkey

/-- Opening an occurrence of a new structure changes no other place. -/
theorem Tracks.slot_reserve (h : Tracks table kept opened) (hnew : o.key ∉ kept.map Occurrence.key)
    {s : Occurrence} (hs : s ∈ kept) (place : Nat) :
    slot (kept ++ [o]) (o :: opened) place s = slot kept opened place s := by
  have hne : s.key ≠ o.key := ne_of_mem_of_not_mem (List.mem_map_of_mem hs) hnew
  unfold slot
  by_cases hopened : s.key ∈ opened.map Occurrence.key
  · simp only [List.map_cons, List.mem_cons, hopened, or_true, if_true]
  · simp only [List.map_cons, List.mem_cons, hne, hopened, or_self, if_false]
    rw [define_append (h.closed s hs hopened)]

/-- Reserving a place opens an occurrence. -/
theorem Tracks.reserve (h : Tracks table kept opened) (hnew : o.key ∉ kept.map Occurrence.key) :
    Tracks table.reserve (kept ++ [o]) (o :: opened) := by
  have hempty : ∀ place, slot (kept ++ [o]) (o :: opened) place o = none :=
    fun place => if_pos List.mem_cons_self
  exact {
    nodup := by
      rw [List.map_append, List.map_singleton, ← List.concat_eq_append]
      exact h.nodup.concat hnew
    counter := by simp [Table.reserve, h.counter]
    places := by
      -- the new place is empty, the others are as before
      have hold : kept.mapIdx (slot (kept ++ [o]) (o :: opened)) =
          kept.mapIdx (slot kept opened) := by
        rw [List.mapIdx_eq_mapIdx_iff]
        intro place hplace
        exact h.slot_reserve hnew (List.getElem_mem hplace) place
      rw [List.mapIdx_concat, hold, hempty, ← h.places]
      rfl
    seen := by
      have hseen := h.seen
      simp only [Table.reserve, List.length_cons, List.length_append, List.length_nil]
      omega
    found := by
      intro place s hs
      rw [Table.find?_reserve]
      rw [List.getElem?_append] at hs
      split at hs
      · rw [h.slot_reserve hnew (List.mem_of_getElem? hs)]
        exact h.found place s hs
      · obtain rfl : s = o := by simpa using List.mem_of_getElem? hs
        rw [hempty]
        exact h.unknown _ hnew
    unknown := by
      intro key hkey
      exact h.unknown key fun hmem => hkey (by simp [hmem])
    closed := by
      intro s hs hopened x hx
      rw [List.map_cons, List.mem_cons, not_or] at hopened
      -- the last one is opened, so nothing is asked of it
      rcases List.mem_append.mp hs with hs | hs
      · rw [List.map_append]
        exact List.mem_append_left _ (h.closed s hs hopened.2 x hx)
      · exact absurd (congrArg Occurrence.key (List.mem_singleton.mp hs)) hopened.1 }

theorem Tracks.slot_fill (h : Tracks table kept (o :: opened)) {place : Nat}
    (hplace : kept[place]? = some o) {i : Nat} {s : Occurrence} (hi : kept[i]? = some s)
    (hne : i ≠ place) : slot kept opened i s = slot kept (o :: opened) i s := by
  have hkey : s.key ≠ o.key := fun heq => hne (h.place_eq hi hplace heq)
  simp only [slot, List.map_cons, List.mem_cons, hkey, false_or]

/-- Filling a place completes the occurrence that was opened last. -/
theorem Tracks.fill (h : Tracks table kept (o :: opened)) {place : Nat}
    (hplace : kept[place]? = some o) (hopened : o.key ∉ opened.map Occurrence.key)
    (hbelow : ∀ x ∈ o.below, x.key ∈ kept.map Occurrence.key) :
    Tracks (table.fill place o.key (o.define kept place)) kept opened := by
  have hslot : slot kept opened place o = some (o.define kept place) := if_neg hopened
  exact {
    nodup := h.nodup
    counter := h.counter
    places := by
      apply List.ext_getElem?
      intro i
      rw [Table.fill, h.places, List.getElem?_set, List.getElem?_mapIdx, List.getElem?_mapIdx]
      by_cases hi : place = i
      · subst hi
        have hlt := (List.getElem?_eq_some_iff.mp hplace).1
        simp only [if_true, List.length_mapIdx, hlt, hplace, Option.map_some, hslot]
      · rw [if_neg hi]
        cases hs : kept[i]? with
        | none => rfl
        | some s => simp only [Option.map_some, h.slot_fill hplace hs (Ne.symm hi)]
    seen := by
      have hseen := h.seen
      -- an opened occurrence is not remembered yet, so nothing is replaced
      have hnone : table.find? o.key = none := by
        rw [h.found place o hplace]
        exact if_pos List.mem_cons_self
      rw [Table.length_seen_fill hnone]
      simp only [List.length_cons] at hseen
      omega
    found := by
      intro i s hs
      by_cases hkey : s.key = o.key
      · obtain rfl := h.place_eq hs hplace hkey
        obtain rfl : s = o := Option.some.inj (hs.symm.trans hplace)
        rw [Table.find?_fill_self, hslot]
      · have hne : i ≠ place := by
          rintro rfl
          exact hkey (congrArg Occurrence.key (Option.some.inj (hs.symm.trans hplace)))
        rw [Table.find?_fill_of_ne hkey, h.found i s hs, h.slot_fill hplace hs hne]
    unknown := by
      intro key hkey
      have hne : key ≠ o.key := by
        rintro rfl
        exact hkey (List.mem_map_of_mem (List.mem_of_getElem? hplace))
      rw [Table.find?_fill_of_ne hne]
      exact h.unknown key hkey
    closed := by
      intro s hs hnot
      by_cases hkey : s.key = o.key
      · obtain ⟨i, hi⟩ := List.mem_iff_getElem?.mp hs
        obtain rfl := h.place_eq hi hplace hkey
        obtain rfl : s = o := Option.some.inj (hi.symm.trans hplace)
        exact hbelow
      · apply h.closed s hs
        rw [List.map_cons, List.mem_cons, not_or]
        exact ⟨hkey, hnot⟩ }

/-- An occurrence that is found under the key of an object is kept and completed. -/
theorem Tracks.exists_of_find? (h : Tracks table kept opened) {d : ObjectDefinition}
    (hfound : table.find? o.key = some d) :
    ∃ s ∈ kept, s.key = o.key ∧ s.key ∉ opened.map Occurrence.key ∧
      d.id = idOf kept o.key ∧ d.name = nameOf kept o.key := by
  have hmem : o.key ∈ kept.map Occurrence.key := by
    by_contra hnot
    rw [h.unknown _ hnot] at hfound
    cases hfound
  obtain ⟨s, hs, hkey⟩ := getElem?_placeOf hmem
  have hslot := h.found _ s hs
  rw [hkey, hfound, slot] at hslot
  split at hslot
  · cases hslot
  · next hopened =>
      obtain rfl := Option.some.inj hslot
      refine ⟨s, List.mem_of_getElem? hs, hkey, hopened, ?_, ?_⟩
      · rw [Occurrence.define, idOf, hkey]
      · rw [nameOf, hs]
        rfl

end Tracks

/-! ## Occurrences about to be hoisted -/

/-- What is known of occurrences before they are hoisted: they are shorter than whatever is opened,
because they are below it. -/
structure Ahead (all kept opened os : List Occurrence) : Prop where
  os_subset : os ⊆ all
  kept_subset : kept ⊆ all
  opened_subset : opened ⊆ all
  shorter : ∀ x ∈ os, ∀ s ∈ opened, x.schema.text.length < s.schema.text.length

section Ahead

variable {all kept opened os os' : List Occurrence} {o : Occurrence}

theorem Ahead.left (h : Ahead all kept opened (os ++ os')) : Ahead all kept opened os where
  os_subset := fun _ hx => h.os_subset (List.mem_append_left _ hx)
  kept_subset := h.kept_subset
  opened_subset := h.opened_subset
  shorter := fun x hx => h.shorter x (List.mem_append_left _ hx)

theorem Ahead.right (h : Ahead all kept opened (os ++ os')) :
    Ahead all (os.foldl keepFirst kept) opened os' where
  os_subset := fun _ hx => h.os_subset (List.mem_append_right _ hx)
  kept_subset := by
    obtain ⟨new, hnew, hsub, -⟩ := foldl_keepFirst os kept
    rw [hnew]
    exact List.append_subset.mpr ⟨h.kept_subset, List.Subset.trans hsub h.left.os_subset⟩
  opened_subset := h.opened_subset
  shorter := fun x hx => h.shorter x (List.mem_append_right _ hx)

theorem Ahead.enter (h : Ahead all kept opened o.preorder) :
    Ahead all (kept ++ [o]) (o :: opened) o.below := by
  have ho : o ∈ all := h.os_subset List.mem_cons_self
  exact {
    os_subset := fun x hx => h.os_subset (List.mem_cons_of_mem _ hx)
    kept_subset := List.append_subset.mpr ⟨h.kept_subset, by simpa using ho⟩
    opened_subset := List.cons_subset.mpr ⟨ho, h.opened_subset⟩
    shorter := by
      intro x hx s hs
      rcases List.mem_cons.mp hs with rfl | hs
      · exact (mem_belowAll.mp hx).length_text_lt _ none
      · exact h.shorter x (List.mem_cons_of_mem _ hx) s hs }

/-- What is ahead is not opened: an opened occurrence of its key would have its text. -/
theorem Ahead.not_opened (h : Ahead all kept opened (o :: os)) (hall : Separated all) :
    o.key ∉ opened.map Occurrence.key := by
  intro hmem
  obtain ⟨s, hs, hkey⟩ := List.mem_map.mp hmem
  have htext := hall.text_eq s (h.opened_subset hs) o (h.os_subset List.mem_cons_self) hkey
  have hlt := h.shorter o List.mem_cons_self s hs
  rw [htext] at hlt
  exact Nat.lt_irrefl _ hlt

/-- Nothing is kept of an object whose structure is completed: whatever is below it was kept with
the completed one, which has the same text. -/
theorem Tracks.foldl_keepFirst_eq {table : Table} {s : Occurrence} (h : Tracks table kept opened)
    (hall : Separated all) (hahead : Ahead all kept opened o.preorder) (hs : s ∈ kept)
    (hkey : s.key = o.key) (hopened : s.key ∉ opened.map Occurrence.key) :
    o.preorder.foldl keepFirst kept = kept := by
  have hoall : o ∈ all := hahead.os_subset List.mem_cons_self
  have hsall : s ∈ all := hahead.kept_subset hs
  apply foldl_keepFirst_of_forall_mem
  intro x hx
  rcases List.mem_cons.mp hx with rfl | hx
  · exact hkey ▸ List.mem_map_of_mem hs
  · -- the structure of `x` also stands below `s`, and all of that was kept
    obtain ⟨y, hy, hxy⟩ := (mem_belowAll.mp hx).exists_of_text_eq (hall.named o hoall)
      (hall.named s hsall) (hall.text_eq o hoall s hsall hkey.symm)
      (congrArg SeenKey.endpointId hkey).symm (congrArg SeenKey.role hkey).symm
    exact hxy ▸ h.closed s hs hopened y (mem_belowAll.mpr hy)

end Ahead

/-! ## Dependencies -/

theorem foldl_addDependency (ids acc : List String) :
    ids.foldl addDependency acc = acc ++ (ids.filter fun id => !acc.contains id).eraseDups := by
  induction ids generalizing acc with
  | nil => simp
  | cons id ids ih =>
      rw [List.foldl_cons, ih, addDependency]
      by_cases hid : acc.contains id
      · rw [if_pos hid, List.filter_cons_of_neg (by simpa using hid)]
      · rw [if_neg hid, List.filter_cons_of_pos (by simpa using hid), List.eraseDups_cons,
          List.filter_filter, List.append_assoc, List.singleton_append]
        congr 3
        apply List.filter_congr
        intro id' _
        rw [Bool.eq_iff_iff]
        simp [and_comm]

/-- Listing identifiers that are not listed yet leaves the first of each. -/
theorem foldl_addDependency_nil (ids : List String) :
    ids.foldl addDependency [] = ids.eraseDups := by
  have h := foldl_addDependency ids []
  simpa using h

theorem nodup_foldl_addDependency (ids : List String) {acc : List String} (h : acc.Nodup) :
    (ids.foldl addDependency acc).Nodup := by
  induction ids generalizing acc with
  | nil => exact h
  | cons id ids ih =>
      rw [List.foldl_cons, addDependency]
      apply ih
      split
      · exact h
      · next hid =>
          rw [← List.concat_eq_append]
          exact List.Nodup.concat (by simpa using hid) h

/-! ## The recursion -/

/-- What is neither found nor opened is not kept. -/
theorem Tracks.not_mem_of_find?_eq_none {table : Table} {kept opened : List Occurrence}
    {o : Occurrence} (h : Tracks table kept opened) (hnone : table.find? o.key = none)
    (hopened : o.key ∉ opened.map Occurrence.key) : o.key ∉ kept.map Occurrence.key := by
  intro hmem
  obtain ⟨s, hs, hkey⟩ := getElem?_placeOf hmem
  have hslot := h.found _ s hs
  rw [hkey, hnone, slot, hkey, if_neg hopened] at hslot
  cases hslot

/-- Completing an object of a new structure when what is below it was hoisted: the object becomes
the definition at the place that was reserved for it. -/
theorem Tracks.complete {table : Table} {kept opened new : List Occurrence} {o : Occurrence}
    {inner : Walk} (h : Tracks table kept opened) (hnew : o.key ∉ kept.map Occurrence.key)
    (hopened : o.key ∉ opened.map Occurrence.key)
    (hinner : Tracks inner.table (kept ++ o :: new) (o :: opened))
    (hproperties : inner.properties = o.properties.map (linked (kept ++ o :: new) o.source))
    (hdependencies : inner.dependencies =
      ((targets o.source o.properties).map (idOf (kept ++ o :: new))).foldl addDependency [])
    (hbelow : ∀ x ∈ o.below, x.key ∈ (kept ++ o :: new).map Occurrence.key) :
    Tracks (o.complete table inner).table (kept ++ o :: new) opened ∧
      (o.complete table inner).definition.id = idOf (kept ++ o :: new) o.key ∧
      (o.complete table inner).definition.name = nameOf (kept ++ o :: new) o.key := by
  have hplace : (kept ++ o :: new)[kept.length]? = some o := by simp
  have hplaces : table.places.length = kept.length := by rw [h.places, List.length_mapIdx]
  have hdefinition : (o.complete table inner).definition =
      o.define (kept ++ o :: new) kept.length := by
    rw [foldl_addDependency_nil] at hdependencies
    rw [Occurrence.complete, Occurrence.define, h.counter, hproperties, hdependencies]
    rfl
  refine ⟨?_, ?_, ?_⟩
  · have hfill := hinner.fill hplace hopened hbelow
    rw [← hdefinition, ← hplaces] at hfill
    exact hfill
  · rw [hdefinition, idOf, placeOf_append_self hnew]
    rfl
  · rw [hdefinition, nameOf, placeOf_append_self hnew, hplace]
    rfl

/-- **Hoisting an object keeps the table tracked**: of the object and what is below it the first
occurrences are kept, and the object that is given is the definition of the structure. -/
theorem extract_tracks {all : List Occurrence} (hall : Separated all) (o : Occurrence)
    (table : Table) : ∀ kept opened, Ahead all kept opened o.preorder → Tracks table kept opened →
      let kept' := o.preorder.foldl keepFirst kept
      Tracks (o.extract table).table kept' opened ∧
        (o.extract table).definition.id = idOf kept' o.key ∧
        (o.extract table).definition.name = nameOf kept' o.key := by
  apply extract_induction
    (fun o table h => ∀ kept opened, Ahead all kept opened o.preorder → Tracks table kept opened →
      let kept' := o.preorder.foldl keepFirst kept
      Tracks h.table kept' opened ∧ h.definition.id = idOf kept' o.key ∧
        h.definition.name = nameOf kept' o.key)
    (fun source ps w w' => ∀ kept opened, Ahead all kept opened (belowAll source ps) →
      Tracks w.table kept opened →
      let kept' := (belowAll source ps).foldl keepFirst kept
      Tracks w'.table kept' opened ∧
        w'.properties = w.properties ++ ps.map (linked kept' source) ∧
        w'.dependencies = ((targets source ps).map (idOf kept')).foldl addDependency w.dependencies)
  case hit =>
    intro o table d hfound kept opened hahead h
    obtain ⟨s, hs, hkey, hopened, hid, hname⟩ := h.exists_of_find? hfound
    rw [h.foldl_keepFirst_eq hall hahead hs hkey hopened]
    exact ⟨h, hid, hname⟩
  case miss =>
    intro o table inner hnone ih kept opened hahead h
    have hopened := hahead.not_opened hall
    have hnew := h.not_mem_of_find?_eq_none hnone hopened
    obtain ⟨hinner, hproperties, hdependencies⟩ :=
      ih (kept ++ [o]) (o :: opened) hahead.enter (h.reserve hnew)
    obtain ⟨new, hkept', -, -, hbelow⟩ :=
      foldl_keepFirst (belowAll o.source o.properties) (kept ++ [o])
    rw [hkept', List.append_assoc, List.singleton_append] at hinner hproperties hdependencies
    rw [List.append_assoc, List.singleton_append] at hkept' hbelow
    -- the object itself is kept first, whatever is kept of what is below comes behind it
    have hpreorder : o.preorder.foldl keepFirst kept = kept ++ o :: new := by
      rw [Occurrence.preorder, List.foldl_cons, keepFirst_of_not_mem hnew]
      exact hkept'
    rw [hpreorder]
    exact h.complete hnew hopened hinner hproperties hdependencies hbelow
  case nil =>
    intro source w kept opened _ h
    exact ⟨h, by simp, rfl⟩
  case refer =>
    intro source name property ps o w hoisted w' hunder ihoist iwalk kept opened hahead h
    rw [belowAll_cons_of_some hunder] at hahead ⊢
    obtain ⟨hhoisted, hid, hname⟩ := ihoist kept opened hahead.left h
    obtain ⟨hwalked, hproperties, hdependencies⟩ :=
      iwalk (o.preorder.foldl keepFirst kept) opened hahead.right hhoisted
    rw [List.foldl_append, targets_cons_of_some hunder]
    -- what is kept later changes neither the name nor the identifier of what is kept by now
    obtain ⟨new, hnew, -⟩ := foldl_keepFirst (belowAll source ps) (o.preorder.foldl keepFirst kept)
    obtain ⟨new', hnew', -, -, hkeep⟩ := foldl_keepFirst o.preorder kept
    have hmem : o.key ∈ (o.preorder.foldl keepFirst kept).map Occurrence.key := by
      rw [hnew']
      exact hkeep o List.mem_cons_self
    refine ⟨hwalked, ?_, ?_⟩
    · rw [hproperties, List.map_cons, linked_of_some hunder, hnew, nameOf_append hmem, ← hname]
      simp [Walk.refer]
    · rw [hdependencies, List.map_cons, List.foldl_cons, hnew, idOf_append hmem, ← hid]
      rfl
  case keep =>
    intro source name property ps w w' hunder iwalk kept opened hahead h
    rw [belowAll_cons_of_none hunder] at hahead ⊢
    obtain ⟨hwalked, hproperties, hdependencies⟩ := iwalk kept opened hahead h
    rw [targets_cons_of_none hunder]
    refine ⟨hwalked, ?_, hdependencies⟩
    rw [hproperties, List.map_cons, linked_of_none hunder]
    simp [Walk.keep]

theorem extractAll_tracks {all : List Occurrence} (hall : Separated all) (roots : List Occurrence)
    {table : Table} {kept : List Occurrence}
    (hahead : Ahead all kept [] (roots.flatMap Occurrence.preorder)) (h : Tracks table kept []) :
    Tracks (extractAll roots table)
      ((roots.flatMap Occurrence.preorder).foldl keepFirst kept) [] := by
  induction roots generalizing table kept with
  | nil => exact h
  | cons root roots ih =>
      rw [List.flatMap_cons] at hahead ⊢
      rw [List.foldl_append]
      exact ih hahead.right (extract_tracks hall root table kept [] hahead.left h).1

/-- What extracting some roots leaves: every place holds the definition of its occurrence. -/
theorem extractAll_empty_tracks {roots : List Occurrence}
    (hall : Separated (roots.flatMap Occurrence.preorder)) :
    Tracks (extractAll roots {}) (outline roots) [] := by
  apply extractAll_tracks hall roots _ tracks_empty
  exact {
    os_subset := List.Subset.refl _
    kept_subset := List.nil_subset _
    opened_subset := List.nil_subset _
    shorter := by simp }

theorem Tracks.places_eq {table : Table} {kept : List Occurrence} (h : Tracks table kept []) :
    table.places = (definitions kept).map some := by
  rw [h.places, List.mapIdx_eq_iff]
  intro i
  rw [definitions, List.getElem?_map, List.getElem?_mapIdx, Option.map_map]
  rfl

theorem Tracks.objects_eq {table : Table} {kept : List Occurrence} (h : Tracks table kept []) :
    table.objects = definitions kept := by
  rw [Table.objects, h.places_eq, List.filterMap_map]
  simp

end DtoForge.Extraction
