import DtoForge.Proofs.Options.Layers

/-! # Precedence of options — the last spelling of an option counts

An option may be spelled in snake or camel case, in the defaults of a language, in a file and in the
overrides. What the loaded options are made of is found by looking for the last entry that spells the
option, first among the overrides, then in the file, then in the defaults; the construction of
options reads that value, or keeps the plain option where there is none. -/

namespace DtoForge.Options

/-! ## Construction -/

/-- Options that are made of the values for their keys: a value as the construction reads it, and the
plain option where there is none. -/
structure MadeOf (value : RawText → Option Json) (o : Options) : Prop where
  naming : readNaming .pascal (value "naming_convention") = .ok o.naming
  objectTypes : readObjectTypes [.dto] (value "object_types") = .ok o.objectTypes
  namePrefix : o.namePrefix = (value "prefix").getD (.str "")
  nameSuffix : o.nameSuffix = (value "suffix").getD (.str "")
  setting : ∀ f : Feature, o.setting f = (value f.key).getD (.bool f.default)
  packageName : o.packageName = (value "package_name").getD .null

/-- The settings play no part in it. -/
theorem MadeOf.congr {v w : RawText → Option Json} {o : Options} (h : MadeOf v o)
    (hsame : ∀ field ∈ keys, field ≠ "custom" → v field = w field) : MadeOf w o where
  naming := by
    rw [← hsame _ (by decide) (by decide)]
    exact h.naming
  objectTypes := by
    rw [← hsame _ (by decide) (by decide)]
    exact h.objectTypes
  namePrefix := by
    rw [← hsame _ (by decide) (by decide)]
    exact h.namePrefix
  nameSuffix := by
    rw [← hsame _ (by decide) (by decide)]
    exact h.nameSuffix
  setting := by
    intro f
    have hkey : .whole f.key ∈ keys ∧ .whole f.key ≠ RawText.whole "custom" := by cases f <;> decide
    rw [← hsame _ hkey.1 hkey.2]
    exact h.setting f
  packageName := by
    rw [← hsame _ (by decide) (by decide)]
    exact h.packageName

theorem madeOf_of_rebuild {args : Entries Json} {custom : Except OptionError CustomSettings}
    {o : Options} (h : rebuild {} args custom = .ok o) : MadeOf args.get? o := by
  rw [rebuild_eq] at h
  obtain ⟨naming, hnaming, h⟩ := Steps.exists_of_bind_eq_ok h
  obtain ⟨objectTypes, htypes, h⟩ := Steps.exists_of_bind_eq_ok h
  obtain ⟨custom, -, h⟩ := Steps.exists_of_bind_eq_ok h
  obtain rfl := Except.ok.inj h
  exact ⟨hnaming, htypes, rfl, rfl, fun _ => rfl, rfl⟩

/-- Stored options are made of what is stored under their keys. -/
theorem madeOf_of_ofJson {base : Entries Json} {o : Options} (hbase : Stored base)
    (h : ofJson (.object base) = .ok o) : MadeOf base.get? o := by
  obtain ⟨args, custom, hsorted, hrebuild⟩ := exists_sorted_of_ofJson h
  refine (madeOf_of_rebuild hrebuild).congr fun field hfield hcustom => ?_
  have hstored : ∀ e ∈ base, storedKey e.1 = e.1 := fun e he =>
    hbase.stored e.1 (List.mem_map_of_mem he)
  have hfields := (get?_sorted hstored ([], customOf (Json.valueOf base "custom"))).1 field hfield
    hcustom
  rw [hsorted] at hfields
  rw [hfields, Entries.get?_reverse hbase.nodup]
  exact Option.or_none

/-! ## Layers -/

/-- The value that entries give for an option, however it is spelled: that of the last. -/
def spelled (es : Entries Json) (field : RawText) : Option Json :=
  (es.reverse.find? fun e => snakeKey e.1 == field).map (·.2)

theorem spelled_append (es fs : Entries Json) (field : RawText) :
    spelled (es ++ fs) field = (spelled fs field).or (spelled es field) := by
  simp only [spelled, List.reverse_append, List.find?_append]
  cases fs.reverse.find? fun e => snakeKey e.1 == field <;> rfl

theorem lastStored_eq_spelled {field : RawText} (hfield : field ∈ keys) (es : Entries Json) :
    lastStored es field = spelled es field := by
  have hkey : (fun e : RawText × Json => storedKey e.1 == field) =
      fun e => snakeKey e.1 == field := by
    funext e
    rw [Bool.eq_iff_iff, beq_iff_eq, beq_iff_eq]
    exact storedKey_eq_iff_of_mem hfield
  rw [lastStored, spelled, hkey]

/-- **An option is read from its last spelling in the overrides, else in the file, else from the
defaults of the language**, and is the plain option where none of them gives it. -/
theorem load_madeOf {files : Files.Tree} {language file : String} {overrides : Entries Json}
    {o : Options} (h : load files language (.object overrides) file = .ok o) :
    ∃ es, fileEntries files file = .ok es ∧
      MadeOf (fun field => (spelled overrides field).or
        ((spelled es field).or ((defaultsOf language).get? field))) o := by
  obtain ⟨es, base, hfile, hbase, hread⟩ := exists_layers_of_load h
  refine ⟨es, hfile, ?_⟩
  have hstored : Stored base := Stored.override stored_nil hbase
  refine (madeOf_of_ofJson hstored hread).congr fun field hfield hcustom => ?_
  have hdefaults : spelled (defaultsOf language) field = (defaultsOf language).get? field := by
    rw [get?_override (override_defaultsOf language) hcustom, lastStored_eq_spelled hfield]
    exact Option.or_none.symm
  calc base.get? field
      = spelled (defaultsOf language ++ es ++ overrides) field := by
        rw [get?_override hbase hcustom, lastStored_eq_spelled hfield]
        exact Option.or_none
    _ = _ := by
        rw [spelled_append, spelled_append, hdefaults]

/-- The last spelling among the overrides gives the package, the file gives the prefix. -/
theorem load_madeOf_java :
    ∃ o, load (fileTree "\x7b\"packageName\": \"file\", \"prefix\": \"F\"\x7d") "Java"
        (.object [("packageName", .str "first"), ("namingConvention", .str "camel"),
          ("package_name", .str "last")]) "options.json" = .ok o ∧
      o.packageName = .str "last" ∧ o.namePrefix = .str "F" ∧ o.naming = .camel := by
  refine (Steps.exists_eq_ok ?_).imp fun o ho => ⟨ho, ?_⟩
  · decide +kernel
  obtain ⟨es, hes, hmade⟩ := load_madeOf ho
  obtain rfl : ([("packageName", .str "file"), ("prefix", .str "F")] : Entries Json) = es := by
    refine Except.ok.inj (Eq.trans ?_ hes)
    decide +kernel
  refine ⟨hmade.packageName.trans ?_, hmade.namePrefix.trans ?_, ?_⟩
  · decide +kernel
  · decide +kernel
  · refine Except.ok.inj (hmade.naming.symm.trans ?_)
    decide +kernel

end DtoForge.Options
