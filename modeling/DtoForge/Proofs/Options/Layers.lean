import DtoForge.Options.Loading
import DtoForge.Proofs.Options.Custom
import DtoForge.Proofs.Json.Entries
import DtoForge.Proofs.Steps

/-! # Layers of options — defaults, a file and overrides as one run of entries

Loading overrides the defaults of a language entry by entry, first by those of a file, then by the
given ones. So it is one run over all entries, started from nothing, and what a key holds in the end
is told by searching the entries from the last to the first. Every entry is stored under one key, an
option under its snake-case spelling whatever spelling it came in, and a stored key is stored as it
is; that is why reading the merged document moves no value. -/

namespace DtoForge.Options

/-! ## Stored keys -/

/-- The key under which the value of a key is stored. -/
def storedKey (key : RawText) : RawText :=
  if keys.contains (snakeKey key) then snakeKey key else key

theorem snakeKey_of_mem_keys : ∀ key ∈ keys, snakeKey key = key := by
  decide +kernel

theorem storedKey_of_mem {key : RawText} (h : snakeKey key ∈ keys) : storedKey key = snakeKey key :=
  if_pos (List.contains_iff_mem.mpr h)

theorem storedKey_of_not_mem {key : RawText} (h : snakeKey key ∉ keys) : storedKey key = key :=
  if_neg fun hmem => h (List.contains_iff_mem.mp hmem)

/-- What is stored under an option are the values of its spellings. -/
theorem storedKey_eq_iff_of_mem {key field : RawText} (hfield : field ∈ keys) :
    storedKey key = field ↔ snakeKey key = field := by
  by_cases hkey : snakeKey key ∈ keys
  · rw [storedKey_of_mem hkey]
  · rw [storedKey_of_not_mem hkey]
    constructor
    · rintro rfl
      exact snakeKey_of_mem_keys key hfield
    · rintro rfl
      exact absurd hfield hkey

/-- What is stored under a key that spells no option are the values of that key. -/
theorem storedKey_eq_iff_of_not_mem {key extra : RawText} (hextra : snakeKey extra ∉ keys) :
    storedKey key = extra ↔ key = extra := by
  by_cases hkey : snakeKey key ∈ keys
  · rw [storedKey_of_mem hkey]
    constructor
    · rintro rfl
      rw [snakeKey_of_mem_keys _ hkey] at hextra
      exact absurd hkey hextra
    · rintro rfl
      exact absurd hkey hextra
  · rw [storedKey_of_not_mem hkey]

theorem storedKey_storedKey (key : RawText) : storedKey (storedKey key) = storedKey key := by
  by_cases hkey : snakeKey key ∈ keys
  · rw [storedKey_of_mem hkey, storedKey_eq_iff_of_mem hkey]
    exact snakeKey_of_mem_keys _ hkey
  · rw [storedKey_of_not_mem hkey, storedKey_of_not_mem hkey]

/-- What overriding leaves: every key once, and as it is stored. -/
structure Stored (es : Entries Json) : Prop where
  nodup : es.keys.Nodup
  stored : ∀ key ∈ es.keys, storedKey key = key

theorem stored_nil : Stored [] where
  nodup := List.nodup_nil
  stored := nofun

theorem Stored.put {es : Entries Json} (h : Stored es) {key : RawText} (hkey : storedKey key = key)
    (v : Json) : Stored (es.put key v) where
  nodup := Entries.nodup_keys_put h.nodup key v
  stored := by
    intro k hk
    obtain rfl | hk := Entries.has_put.mp (Entries.mem_keys_iff.mp hk)
    · exact hkey
    · exact h.stored k (Entries.mem_keys_iff.mpr hk)

/-! ## Overriding -/

/-- An entry of settings adds to those that are there; every other entry is put in place of what was
stored under its key. -/
theorem overrideEntry_cases {base base' : Entries Json} {key : RawText} {v : Json}
    (h : overrideEntry base key v = .ok base') :
    (∃ settings old, key = "custom" ∧ v = .object settings ∧
      (base.get? "custom").getD (.object []) = .object old ∧
      base' = base.put "custom" (.object (Entries.update old settings))) ∨
    (key = "custom" → ∀ settings, v ≠ .object settings) ∧ base' = base.put (storedKey key) v := by
  unfold overrideEntry at h
  split at h
  next settings =>
    split at h
    next old hold => exact .inl ⟨settings, old, rfl, rfl, hold, (Except.ok.inj h).symm⟩
    next => cases h
  next hother =>
    exact .inr ⟨fun hkey settings hv => hother settings hkey hv, (Except.ok.inj h).symm⟩

theorem storedKey_custom : storedKey "custom" = "custom" := by
  have hcustom : .whole "custom" ∈ keys := by decide
  exact (storedKey_eq_iff_of_mem hcustom).mpr (snakeKey_of_mem_keys _ hcustom)

theorem Stored.overrideEntry {base base' : Entries Json} {key : RawText} {v : Json}
    (hbase : Stored base) (h : overrideEntry base key v = .ok base') : Stored base' := by
  obtain ⟨_, _, -, -, -, rfl⟩ | ⟨-, rfl⟩ := overrideEntry_cases h
  · exact hbase.put storedKey_custom _
  · exact hbase.put (storedKey_storedKey key) v

theorem Stored.override {base base' es : Entries Json} (hbase : Stored base)
    (h : override base es = .ok base') : Stored base' := by
  induction es generalizing base with
  | nil =>
      cases h
      exact hbase
  | cons e es ih =>
      obtain ⟨next, hnext, hrest⟩ := Steps.exists_of_bind_eq_ok h
      exact ih (hbase.overrideEntry hnext) hrest

/-- The last entry that is stored under a key. -/
def lastStored (es : Entries Json) (key : RawText) : Option Json :=
  (es.reverse.find? fun e => storedKey e.1 == key).map (·.2)

/-- Except for the settings, a key holds what the last entry stored there, or what it held. -/
theorem get?_override {base base' es : Entries Json} (h : override base es = .ok base')
    {key : RawText} (hkey : key ≠ "custom") :
    base'.get? key = (lastStored es key).or (base.get? key) := by
  induction es generalizing base with
  | nil =>
      cases h
      rfl
  | cons e es ih =>
      obtain ⟨next, hnext, hrest⟩ := Steps.exists_of_bind_eq_ok h
      have hstep : next.get? key = if storedKey e.1 = key then some e.2 else base.get? key := by
        obtain ⟨_, _, hcustom, -, -, rfl⟩ | ⟨-, rfl⟩ := overrideEntry_cases hnext
        · rw [Entries.get?_put, if_neg (Ne.symm hkey), hcustom, storedKey_custom,
            if_neg (Ne.symm hkey)]
        · exact Entries.get?_put ..
      have hlast : lastStored (e :: es) key =
          (lastStored es key).or (if storedKey e.1 = key then some e.2 else none) := by
        simp only [lastStored, List.reverse_cons, List.find?_append, List.find?_cons,
          List.find?_nil]
        by_cases hfirst : storedKey e.1 = key
        · simp only [hfirst, beq_self_eq_true, if_true]
          cases es.reverse.find? fun e => storedKey e.1 == key <;> rfl
        · simp only [beq_eq_false_iff_ne.mpr hfirst, if_neg hfirst]
          cases es.reverse.find? fun e => storedKey e.1 == key <;> rfl
      rw [ih hrest, hstep, hlast, Option.or_assoc]
      split <;> rfl

/-! ## Loading -/

/-- The entries of an options file; without a name there is no file. -/
def fileEntries (files : Files.Tree) (name : String) : Except ConfigError (Entries Json) :=
  if name.isEmpty then .ok [] else readFile files name

/-- A tree with nothing but an options file in it, whose text is ASCII. -/
def fileTree (text : String) : Files.Tree :=
  { nodes := [(["options.json"], .file (text.toList.map fun c => c.toNat.toUInt8))] }

/-- The defaults of a language stand as overriding nothing by them would leave them. -/
theorem override_defaultsOf (language : String) :
    override [] (defaultsOf language) = .ok (defaultsOf language) := by
  have hlisted : ∀ d ∈ languageDefaults, override [] d.2 = .ok d.2 := by decide +kernel
  rw [defaultsOf]
  cases hfound : Entries.get? languageDefaults language.lowered with
  | none => rfl
  | some es => exact hlisted (language.lowered, es) (Entries.mem_of_get? hfound)

theorem load_eq (files : Files.Tree) (language file : String) (overrides : Entries Json) :
    load files language (.object overrides) file = (do
      let es ← fileEntries files file
      let base ← (override (defaultsOf language) es).mapError plainError
      let base ← (override base overrides).mapError plainError
      (ofJson (.object base)).mapError .options) := by
  unfold load fileEntries
  cases file.isEmpty with
  | true => cases overrides <;> rfl
  | false =>
      show (readFile files file >>= fun es =>
        (override (defaultsOf language) es).mapError plainError >>= fun base => _) = _
      congr 1
      funext es
      congr 1
      funext base
      cases overrides <;> rfl

/-- Overriding the defaults by a file and then by overrides is one run over all entries. -/
theorem override_layers (language : String) (es overrides : Entries Json) :
    (override (defaultsOf language) es >>= fun base => override base overrides) =
      override [] (defaultsOf language ++ es ++ overrides) := by
  calc (override (defaultsOf language) es >>= fun base => override base overrides)
      = override [] (defaultsOf language) >>= (fun d => override d es) >>=
          (fun d => override d overrides) := by
        rw [override_defaultsOf]
        rfl
    _ = override [] (defaultsOf language ++ es ++ overrides) := by
        simp only [override, List.foldlM_append]

/-- **Loading is one run over the defaults, the entries of the file and the overrides.** -/
theorem exists_layers_of_load {files : Files.Tree} {language file : String}
    {overrides : Entries Json} {o : Options}
    (h : load files language (.object overrides) file = .ok o) :
    ∃ es base, fileEntries files file = .ok es ∧
      override [] (defaultsOf language ++ es ++ overrides) = .ok base ∧
      ofJson (.object base) = .ok o := by
  rw [load_eq] at h
  obtain ⟨es, hfile, h⟩ := Steps.exists_of_bind_eq_ok h
  obtain ⟨middle, hmiddle, h⟩ := Steps.exists_of_bind_eq_ok h
  obtain ⟨base, hbase, h⟩ := Steps.exists_of_bind_eq_ok h
  refine ⟨es, base, hfile, ?_, Steps.eq_ok_of_mapError h⟩
  rw [← override_layers, Steps.eq_ok_of_mapError hmiddle]
  exact Steps.eq_ok_of_mapError hbase

/-! ## Reading the merged document -/

/-- The convention that a value names; without a value the plain one. -/
def readNaming (plain : NamingConvention) : Option Json → Except OptionError NamingConvention
  | none => .ok plain
  | some v => match NamingConvention.ofJson? v with
    | some n => .ok n
    | none => .error (.naming v)

/-- The object types that a value lists; without a value the plain ones. -/
def readObjectTypes (plain : List ObjectType) : Option Json → Except OptionError (List ObjectType)
  | none => .ok plain
  | some v => (v.elements >>= fun items => items.mapM ObjectType.ofJson).mapError .shape

/-- The construction of options reads two of the values and takes the others as they are. -/
theorem rebuild_eq (o : Options) (args : Entries Json)
    (custom : Except OptionError CustomSettings) :
    o.rebuild args custom = (do
      let naming ← readNaming o.naming (args.get? "naming_convention")
      let objectTypes ← readObjectTypes o.objectTypes (args.get? "object_types")
      let custom ← custom
      return {
        naming, objectTypes, custom
        namePrefix := (args.get? "prefix").getD o.namePrefix
        nameSuffix := (args.get? "suffix").getD o.nameSuffix
        setting := fun f => (args.get? f.key).getD (o.setting f)
        packageName := (args.get? "package_name").getD o.packageName }) := by
  unfold rebuild readNaming
  cases args.get? "object_types" <;> cases args.get? "naming_convention" with
    | none => rfl
    | some v => cases hnaming : NamingConvention.ofJson? v <;> simp only [hnaming] <;> rfl

/-- The custom settings that a value stands for; what is not given stands for none. -/
def customOf (v : Json) : CustomSettings :=
  match v.given? with
  | some v => ((dictionaryOf v).toOption).getD []
  | none => []

/-- The settings under texts that a value stands for. -/
def settingsOf (v : Json) : Entries Json :=
  (customOf v).texts

/-- The options of a document come from sorting its entries, its settings being there already. -/
theorem exists_sorted_of_ofJson {base : Entries Json} {o : Options}
    (h : ofJson (.object base) = .ok o) :
    ∃ args custom,
      base.foldl (fun acc e => sortEntry acc.1 acc.2 e.1 e.2)
        ([], customOf (Json.valueOf base "custom")) = (args, custom) ∧
      rebuild {} args (pure custom) = .ok o := by
  obtain ⟨es, hes, h⟩ := Steps.exists_of_bind_eq_ok h
  obtain rfl : base = es := Except.ok.inj hes
  split at h
  next v hv =>
    obtain ⟨custom, hcustom, h⟩ := Steps.exists_of_bind_eq_ok h
    have hsettings : customOf (Json.valueOf base "custom") = custom := by
      rw [customOf, hv]
      show ((dictionaryOf v).toOption).getD [] = custom
      rw [Steps.eq_ok_of_mapError hcustom]
      rfl
    rw [hsettings]
    exact ⟨_, _, rfl, Steps.eq_ok_of_mapError h⟩
  next hv =>
    rw [customOf, hv]
    exact ⟨_, _, rfl, Steps.eq_ok_of_mapError h⟩

theorem sortEntry_of_stored {key : RawText} (hkey : storedKey key = key) (args : Entries Json)
    (custom : CustomSettings) (v : Json) :
    sortEntry args custom key v =
      if key = "custom" then (args, custom)
      else if key ∈ keys then (args.put key v, custom)
      else (args, custom.put (.str key) v) := by
  rw [sortEntry]
  by_cases hsnake : snakeKey key ∈ keys
  · have hself : snakeKey key = key := (storedKey_of_mem hsnake).symm.trans hkey
    rw [hself] at hsnake
    simp [hself, hsnake]
  · have hmem : key ∉ keys := fun h => hsnake (by rwa [snakeKey_of_mem_keys key h])
    simp [hsnake, hmem]

/-- The value of an extra that stands among the entries themselves; the spelling of an option is no
extra. -/
def outside (es : Entries Json) (key : RawText) : Option Json :=
  if snakeKey key ∈ keys then none else Entries.get? es.reverse key

theorem outside_append (es fs : Entries Json) (key : RawText) :
    outside (es ++ fs) key = (outside fs key).or (outside es key) := by
  by_cases hkey : snakeKey key ∈ keys
  · simp [outside, hkey]
  · simp [outside, hkey, Entries.get?_append]

/-- Sorting moves no value of a stored document: an option goes to the options and an extra to the
settings, over what is there. -/
theorem get?_sorted {es : Entries Json} (hes : ∀ e ∈ es, storedKey e.1 = e.1)
    (start : Entries Json × CustomSettings) :
    (∀ field ∈ keys, field ≠ "custom" →
      (es.foldl (fun acc e => sortEntry acc.1 acc.2 e.1 e.2) start).1.get? field =
        (Entries.get? es.reverse field).or (start.1.get? field)) ∧
    ∀ key, (es.foldl (fun acc e => sortEntry acc.1 acc.2 e.1 e.2) start).2.texts.get? key =
      (outside es key).or (start.2.texts.get? key) := by
  induction es generalizing start with
  | nil => exact ⟨fun _ _ _ => rfl, fun _ => by simp [outside]⟩
  | cons e es ih =>
      obtain ⟨hstored, hes⟩ := List.forall_mem_cons.mp hes
      obtain ⟨hfields, hextras⟩ := ih hes (sortEntry start.1 start.2 e.1 e.2)
      constructor
      · intro field hfield hcustom
        have hstep : (sortEntry start.1 start.2 e.1 e.2).1.get? field =
            if e.1 = field then some e.2 else start.1.get? field := by
          rw [sortEntry_of_stored hstored]
          split
          next hsettings => rw [if_neg (by rw [hsettings]; exact Ne.symm hcustom)]
          next =>
            split
            next => exact Entries.get?_put ..
            next hextra => rw [if_neg (by rintro rfl; exact hextra hfield)]
        rw [List.foldl_cons, hfields field hfield hcustom, hstep, List.reverse_cons,
          Entries.get?_append, Entries.get?_cons, Option.or_assoc]
        split <;> rfl
      · intro key
        have hstep : (sortEntry start.1 start.2 e.1 e.2).2.texts.get? key =
            (outside [e] key).or (start.2.texts.get? key) := by
          rw [sortEntry_of_stored hstored, outside, List.reverse_singleton, Entries.get?_cons]
          by_cases hfield : e.1 ∈ keys
          · -- what is stored under an option stands for no extra
            have hnone : (if snakeKey key ∈ keys then none
                else if e.1 = key then some e.2 else Entries.get? [] key) = none := by
              split
              next => rfl
              next hextra =>
                exact if_neg fun he => hextra (by
                  rw [← he, snakeKey_of_mem_keys _ hfield]
                  exact hfield)
            rw [hnone, if_pos hfield]
            split <;> rfl
          · have hsnake : snakeKey e.1 ∉ keys := fun h => hfield (by
              rw [← hstored, storedKey_of_mem h]
              exact h)
            have hcustom : e.1 ≠ "custom" := fun h => hfield (by rw [h]; decide)
            rw [if_neg hcustom, if_neg hfield, CustomSettings.texts_put, Entries.get?_put]
            by_cases hkey : e.1 = key
            · rw [if_pos hkey, if_pos hkey, if_neg (hkey ▸ hsnake)]
              rfl
            · rw [if_neg hkey, if_neg hkey, Entries.get?_nil, ite_self]
              rfl
        rw [List.foldl_cons, hextras key, hstep, ← Option.or_assoc, ← outside_append]
        rfl

end DtoForge.Options
