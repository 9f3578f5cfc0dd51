import DtoForge.Proofs.Json.RoundTrip
import DtoForge.Proofs.Options.Precedence
import DtoForge.Proofs.Options.Settings

/-! # The dictionary of options — options out of their own entries

Every option has one key in the dictionary of options, and reading the dictionary gives the options
back, whatever their values are. What options of a document hold was in the document or is a plain
value, so a text can stand for it. -/

namespace DtoForge.Options

/-! ## Reading a dictionary -/

theorem storedKey_of_mem_keys {key : RawText} (h : key ∈ keys) : storedKey key = key :=
  (storedKey_eq_iff_of_mem h).mpr (snakeKey_of_mem_keys key h)

/-- Among options nothing is sorted to the settings. -/
theorem settings_sorted {es : Entries Json} (h : ∀ e ∈ es, e.1 ∈ keys)
    (start : Entries Json × CustomSettings) :
    (es.foldl (fun acc e => sortEntry acc.1 acc.2 e.1 e.2) start).2 = start.2 := by
  induction es generalizing start with
  | nil => rfl
  | cons e es ih =>
      obtain ⟨hfirst, hrest⟩ := List.forall_mem_cons.mp h
      rw [List.foldl_cons, ih hrest, sortEntry_of_stored (storedKey_of_mem_keys hfirst)]
      split
      · rfl
      · rfl

/-- Options are rebuilt from the values they are made of. -/
theorem rebuild_of_madeOf {args : Entries Json} {o : Options} (h : MadeOf args.get? o)
    (custom : CustomSettings) :
    rebuild {} args (pure custom) = .ok { o with custom := custom } := by
  have hnaming : readNaming ({} : Options).naming (args.get? "naming_convention") = .ok o.naming :=
    h.naming
  have htypes : readObjectTypes ({} : Options).objectTypes (args.get? "object_types") =
      .ok o.objectTypes := h.objectTypes
  have hsetting : (fun f : Feature => (args.get? f.key).getD (({} : Options).setting f)) =
      o.setting := funext fun f => (h.setting f).symm
  rw [rebuild_eq, hnaming, htypes, hsetting, h.namePrefix, h.nameSuffix, h.packageName]
  rfl

/-- A dictionary with nothing but options in it is read as the options that its values make. -/
theorem ofDictionary_of_madeOf {d : Dictionary} {o : Options} (hnodup : d.entries.keys.Nodup)
    (hkeys : ∀ e ∈ d.entries, e.1 ∈ keys) (h : MadeOf d.entries.get? o) :
    ofDictionary d = .ok { o with custom := d.custom } := by
  have hstored : ∀ e ∈ d.entries, storedKey e.1 = e.1 := fun e he =>
    storedKey_of_mem_keys (hkeys e he)
  have hargs : MadeOf
      (d.entries.foldl (fun acc e => sortEntry acc.1 acc.2 e.1 e.2) ([], d.custom)).1.get? o := by
    refine h.congr fun field hfield hcustom => ?_
    rw [(get?_sorted hstored ([], d.custom)).1 field hfield hcustom, Entries.get?_reverse hnodup]
    exact Option.or_none.symm
  show (rebuild {} (d.entries.foldl (fun acc e => sortEntry acc.1 acc.2 e.1 e.2)
    ([], d.custom)).1 (pure (d.entries.foldl (fun acc e => sortEntry acc.1 acc.2 e.1 e.2)
      ([], d.custom)).2)).mapError _ = _
  rw [settings_sorted hkeys, rebuild_of_madeOf hargs]
  rfl

/-! ## The dictionary of options -/

theorem keys_toDictionary (o : Options) : o.toDictionary.entries.keys = keys.dropLast := rfl

theorem nodup_keys_toDictionary (o : Options) : o.toDictionary.entries.keys.Nodup := by
  rw [keys_toDictionary]
  decide

theorem mem_keys_toDictionary {o : Options} {e : RawText × Json} (h : e ∈ o.toDictionary.entries) :
    e.1 ∈ keys ∧ e.1 ≠ "custom" := by
  have hkey : e.1 ∈ keys.dropLast := keys_toDictionary o ▸ List.mem_map_of_mem h
  exact (by decide : ∀ key ∈ keys.dropLast, key ∈ keys ∧ key ≠ "custom") e.1 hkey

theorem ofJson?_word (n : NamingConvention) : NamingConvention.ofJson? (.str n.word) = some n := by
  cases n <;> decide +kernel

theorem mapM_ofJson_word (ts : List ObjectType) :
    (ts.map fun t => Json.str t.word).mapM ObjectType.ofJson = .ok ts := by
  induction ts with
  | nil => rfl
  | cons t ts ih =>
      have hword : ObjectType.ofJson (.str t.word) = .ok t := by cases t <;> decide
      rw [List.map_cons, List.mapM_cons, hword, ih]
      rfl

/-- Options are made of the values in their dictionary. -/
theorem madeOf_toDictionary (o : Options) : MadeOf o.toDictionary.entries.get? o := by
  have hget : ∀ e ∈ o.toDictionary.entries, o.toDictionary.entries.get? e.1 = some e.2 :=
    fun e he => (Entries.mem_iff_get? (nodup_keys_toDictionary o)).mp he
  refine ⟨?_, ?_, ?_, ?_, fun f => ?_, ?_⟩
  · rw [hget ("naming_convention", .str o.naming.word) (by simp [toDictionary]), readNaming]
    simp only [ofJson?_word]
  · rw [hget ("object_types", .list (o.objectTypes.map fun t => .str t.word))
      (by simp [toDictionary])]
    show ((o.objectTypes.map fun t => Json.str t.word).mapM ObjectType.ofJson).mapError _ = _
    rw [mapM_ofJson_word]
    rfl
  · rw [hget ("prefix", o.namePrefix) (by simp [toDictionary])]
    rfl
  · rw [hget ("suffix", o.nameSuffix) (by simp [toDictionary])]
    rfl
  · have hall : f ∈ Feature.all := by cases f <;> decide
    have hmem : (.whole f.key, o.setting f) ∈ o.toDictionary.entries :=
      List.mem_append_left _ (List.mem_append_right _ (List.mem_map.mpr ⟨f, hall, rfl⟩))
    rw [hget _ hmem]
    rfl
  · rw [hget ("package_name", o.packageName) (by simp [toDictionary])]
    rfl

/-- **Options are read back from their dictionary.** -/
theorem ofDictionary_toDictionary (o : Options) : ofDictionary o.toDictionary = .ok o :=
  ofDictionary_of_madeOf (nodup_keys_toDictionary o) (fun _ he => (mem_keys_toDictionary he).1)
    (madeOf_toDictionary o)

/-! ## What the options of a document hold -/

theorem proper_of_elements {v : Json} {items : List Json} (h : v.Proper)
    (helements : v.elements = .ok items) : ∀ w ∈ items, w.Proper := by
  cases h with
  | list hitems =>
      cases helements
      exact hitems
  | @object es hkeys hunsplit =>
      cases helements
      intro w hw
      obtain ⟨e, he, rfl⟩ := List.mem_map.mp hw
      exact .str (hunsplit e he)
  | str =>
      cases helements
      intro w hw
      obtain ⟨p, -, rfl⟩ := List.mem_map.mp hw
      exact .str (RawText.unsplit_point p)
  | _ => cases helements

/-- Settings whose values a text can stand for, with each text once. -/
structure ProperSettings (settings : CustomSettings) : Prop where
  values : ∀ e ∈ settings, e.2.Proper
  nodup : settings.texts.keys.Nodup

theorem properSettings_nil : ProperSettings [] where
  values := nofun
  nodup := List.nodup_nil

theorem ProperSettings.put {settings : CustomSettings} (h : ProperSettings settings) (key : Json)
    {v : Json} (hv : v.Proper) : ProperSettings (settings.put key v) where
  values := by
    intro e he
    rcases CustomSettings.mem_of_mem_put he with hnew | he
    · exact hnew ▸ hv
    · exact h.values e he
  nodup := by
    by_cases hkey : ∃ text, key = .str text
    · obtain ⟨text, rfl⟩ := hkey
      rw [CustomSettings.texts_put]
      exact Entries.nodup_keys_put h.nodup text v
    · rw [CustomSettings.texts_put_of_ne (not_exists.mp hkey)]
      exact h.nodup

theorem properSettings_ofPairs {pairs : List (Json × Json)} (h : ∀ e ∈ pairs, e.2.Proper) :
    ProperSettings (CustomSettings.ofPairs pairs) := by
  have hfold : ∀ settings, ProperSettings settings →
      ProperSettings (pairs.foldl (fun settings e => settings.put e.1 e.2) settings) := by
    induction pairs with
    | nil => exact fun _ hsettings => hsettings
    | cons e pairs ih =>
        obtain ⟨he, hpairs⟩ := List.forall_mem_cons.mp h
        exact fun settings hsettings => ih hpairs _ (hsettings.put e.1 he)
  exact hfold [] properSettings_nil

theorem proper_of_pairOf {position : Nat} {v key value : Json} (hv : v.Proper)
    (h : pairOf position v = .ok (key, value)) : value.Proper := by
  unfold pairOf at h
  split at h
  · cases h
  · next first second helements =>
      obtain ⟨_, -, h⟩ := Steps.exists_of_bind_eq_ok h
      cases h
      exact proper_of_elements hv helements _ (by simp)
  · cases h

theorem properSettings_of_dictionaryOf {v : Json} {settings : CustomSettings} (hv : v.Proper)
    (h : dictionaryOf v = .ok settings) : ProperSettings settings := by
  unfold dictionaryOf at h
  split at h
  · next es =>
      cases h
      cases hv with
      | object hkeys _ hvalues =>
          refine ⟨fun e he => ?_, by rwa [CustomSettings.texts_ofEntries]⟩
          obtain ⟨f, hf, rfl⟩ := List.mem_map.mp he
          exact hvalues f hf
  · obtain ⟨items, hitems, h⟩ := Steps.exists_of_bind_eq_ok h
    obtain ⟨pairs, hpairs, h⟩ := Steps.exists_of_bind_eq_ok h
    cases h
    refine properSettings_ofPairs fun e he => ?_
    obtain ⟨⟨item, i⟩, hitem, hpair⟩ := (Steps.mem_of_mapM_eq_ok hpairs).2 e he
    have hmem : item ∈ items := by
      have hitem' := List.mem_zipIdx hitem
      simp_all
    exact proper_of_pairOf (proper_of_elements hv hitems item hmem) hpair

theorem properSettings_customOf {v : Json} (hv : v.Proper) : ProperSettings (customOf v) := by
  unfold customOf
  split
  · next w hw =>
      obtain rfl : v = w := by
        rw [Json.given?] at hw
        split at hw
        · exact Option.some.inj hw
        · cases hw
      cases hsettings : dictionaryOf v with
      | ok settings => exact properSettings_of_dictionaryOf hv hsettings
      | error => exact properSettings_nil
  · exact properSettings_nil

/-- Sorting an entry keeps values that a text can stand for. -/
theorem proper_sortEntry {args : Entries Json} {custom : CustomSettings} {v : Json}
    (hargs : ∀ e ∈ args, e.2.Proper) (hcustom : ProperSettings custom) (key : RawText)
    (hv : v.Proper) :
    (∀ e ∈ (sortEntry args custom key v).1, e.2.Proper) ∧
      ProperSettings (sortEntry args custom key v).2 := by
  unfold sortEntry
  split
  · exact ⟨hargs, hcustom⟩
  · split
    · refine ⟨fun e he => ?_, hcustom⟩
      rcases Entries.mem_of_mem_put he with rfl | he
      · exact hv
      · exact hargs e he
    · exact ⟨hargs, hcustom.put _ hv⟩

theorem proper_sorted {es : Entries Json} (h : ∀ e ∈ es, e.2.Proper)
    {start : Entries Json × CustomSettings} (hargs : ∀ e ∈ start.1, e.2.Proper)
    (hcustom : ProperSettings start.2) :
    (∀ e ∈ (es.foldl (fun acc e => sortEntry acc.1 acc.2 e.1 e.2) start).1, e.2.Proper) ∧
      ProperSettings (es.foldl (fun acc e => sortEntry acc.1 acc.2 e.1 e.2) start).2 := by
  induction es generalizing start with
  | nil => exact ⟨hargs, hcustom⟩
  | cons e es ih =>
      obtain ⟨he, hes⟩ := List.forall_mem_cons.mp h
      obtain ⟨hargs', hcustom'⟩ := proper_sortEntry hargs hcustom e.1 he
      exact ih hes hargs' hcustom'

/-- Options whose values a text can stand for. -/
structure Proper (o : Options) : Prop where
  values : ∀ e ∈ o.toDictionary.entries, e.2.Proper
  settings : ProperSettings o.custom

/-- **What the options of a document hold can be written.** -/
theorem proper_of_ofJson {data : Json} {o : Options} (hdata : data.Proper)
    (h : ofJson data = .ok o) : o.Proper := by
  cases hdata with
  | @object es hkeys _ hvalues =>
      obtain ⟨args, custom, hsorted, hrebuild⟩ := exists_sorted_of_ofJson h
      have hfirst : (Json.valueOf es "custom").Proper := by
        rw [Json.valueOf]
        cases hget : es.get? "custom" with
        | none => exact .null
        | some v => exact hvalues _ (Entries.mem_of_get? hget)
      have hall := @proper_sorted es hvalues ([], customOf (Json.valueOf es "custom"))
        (fun e he => absurd he List.not_mem_nil) (properSettings_customOf hfirst)
      rw [hsorted] at hall
      obtain ⟨hargs, hcustom⟩ := hall
      have hmade := madeOf_of_rebuild hrebuild
      -- an option has a value of the document or its plain one
      have hread : ∀ {key : RawText} {plain : Json}, plain.Proper →
          ((args.get? key).getD plain).Proper := by
        intro key plain hplain
        cases hget : args.get? key with
        | none => exact hplain
        | some v => exact hargs _ (Entries.mem_of_get? hget)
      refine ⟨fun e he => ?_, custom_of_rebuild hrebuild ▸ hcustom⟩
      simp only [toDictionary, List.mem_append, List.mem_cons, List.not_mem_nil, or_false,
        List.mem_map] at he
      rcases he with ((rfl | rfl | rfl) | ⟨f, -, rfl⟩) | rfl | rfl
      · exact .str (RawText.unsplit_whole _)
      · exact hmade.namePrefix ▸ hread (.str (RawText.unsplit_whole ""))
      · exact hmade.nameSuffix ▸ hread (.str (RawText.unsplit_whole ""))
      · exact hmade.setting f ▸ hread (.bool _)
      · refine .list fun v hv => ?_
        obtain ⟨t, -, rfl⟩ := List.mem_map.mp hv
        exact .str (RawText.unsplit_whole _)
      · exact hmade.packageName ▸ hread .null
  | _ => cases h

end DtoForge.Options
