import DtoForge.Proofs.Files.Tree
import DtoForge.Proofs.Options.Dictionary
import DtoForge.Proofs.Options.Refusals

/-! # Saving — options in a file are loaded as they were

A file of saved options gives every option, so nothing is left of the defaults of a language but its
settings, and to these the settings of the file are added. As a file keeps keys as texts, settings
under other keys come back under texts (`load_save_number_key`). -/

namespace DtoForge

namespace Json

theorem textFault?_eq_none_iff {marks : Nat} {s : RawText} :
    textFault? marks s = none ↔ s.isWhole = true := by
  rw [textFault?]
  split
  · next hwhole => exact iff_of_true rfl hwhole
  · next htorn => exact iff_of_false nofun htorn

/-- Entries can be written if their keys are whole and their values can be written. -/
theorem entriesFault?_eq_none_iff {width level : Nat} {es : Entries Json} :
    entriesFault? width level es = none ↔
      ∀ e ∈ es, e.1.isWhole = true ∧ faultAt? width level 0 e.2 = none := by
  induction es with
  | nil => simp [entriesFault?]
  | cons e es ih =>
      rw [entriesFault?, Option.or_eq_none_iff, Option.or_eq_none_iff, textFault?_eq_none_iff, ih,
        List.forall_mem_cons, and_assoc]

end Json

namespace Options

/-! ## The document of options -/

/-- The entries of a file of saved options. -/
def savedEntries (o : Options) : Entries Json :=
  o.toDictionary.entries ++ ([("custom", .object o.custom.toEntries)] : Entries Json)

theorem Proper.proper_toJson {o : Options} (h : o.Proper) (hwhole : o.toJson.fileFault? = none)
    (hkeys : o.custom.toEntries.keys.Nodup) : o.toJson.Proper := by
  have hsaved : ∀ e ∈ o.savedEntries, e.1.isWhole = true ∧ Json.faultAt? 2 1 0 e.2 = none :=
    Json.entriesFault?_eq_none_iff.mp hwhole
  have hsettings : (Json.object o.custom.toEntries).Proper := by
    have hentries : Json.faultAt? 2 1 0 (.object o.custom.toEntries) = none :=
      (hsaved _ (List.mem_append_right _ List.mem_cons_self)).2
    refine .object hkeys (fun e he => ?_) fun e he => ?_
    · exact RawText.unsplit_of_isWhole (Json.entriesFault?_eq_none_iff.mp hentries e he).1
    · obtain ⟨f, hf, rfl⟩ := List.mem_map.mp he
      exact h.settings.values f hf
  have hall : o.savedEntries.keys = keys := by
    rw [savedEntries, Entries.keys, List.map_append]
    exact congrArg (· ++ [.whole "custom"]) (keys_toDictionary o)
  refine .object ?_ (fun e he => RawText.unsplit_of_isWhole (hsaved e he).1) fun e he => ?_
  · show o.savedEntries.keys.Nodup
    rw [hall]
    decide
  · rcases List.mem_append.mp he with he | he
    · exact h.values e he
    · obtain rfl := List.mem_singleton.mp he
      exact hsettings

/-! ## Over the defaults of a language -/

/-- The settings that a language has by default. -/
def settingsOfLanguage (language : String) : Entries Json :=
  if language.lowered = "python" then [("style", .str "pydantic")] else []

theorem get?_defaultsOf (language : String) :
    ((defaultsOf language).get? "custom").getD (.object []) =
      .object (settingsOfLanguage language) := by
  have hlisted : ∀ d ∈ languageDefaults, (Entries.get? d.2 "custom").getD (.object []) =
      .object (if d.1 = "python" then [("style", .str "pydantic")] else []) := by decide +kernel
  rw [defaultsOf, settingsOfLanguage]
  cases hfound : Entries.get? languageDefaults language.lowered with
  | some es => exact hlisted (language.lowered, es) (Entries.mem_of_get? hfound)
  | none =>
      have hother : language.lowered ≠ "python" := by
        intro heq
        rw [heq] at hfound
        exact absurd hfound (by decide +kernel)
      rw [if_neg hother]
      rfl

theorem mem_keys_defaultsOf (language : String) : ∀ e ∈ defaultsOf language, e.1 ∈ keys := by
  have hlisted : ∀ d ∈ languageDefaults, ∀ e ∈ d.2, e.1 ∈ keys := by decide +kernel
  rw [defaultsOf]
  cases hfound : Entries.get? languageDefaults language.lowered with
  | none =>
      intro e he
      cases he
  | some es => exact hlisted (language.lowered, es) (Entries.mem_of_get? hfound)

/-- Overriding by options replaces them one by one. -/
theorem override_eq_update {base es : Entries Json} (h : ∀ e ∈ es, e.1 ∈ keys ∧ e.1 ≠ "custom") :
    override base es = .ok (base.update es) := by
  induction es generalizing base with
  | nil => rfl
  | cons e es ih =>
      obtain ⟨⟨hmem, hcustom⟩, hes⟩ := List.forall_mem_cons.mp h
      have hput : overrideEntry base e.1 e.2 = .ok (base.put e.1 e.2) := by
        unfold overrideEntry
        split
        · next hkey _ => exact absurd hkey hcustom
        · exact congrArg (fun key => Except.ok (base.put key e.2)) (storedKey_of_mem_keys hmem)
      rw [override, List.foldlM_cons, hput]
      exact ih hes

/-- The defaults of a language with saved options over them. -/
def savedOver (language : String) (o : Options) : Entries Json :=
  ((defaultsOf language).update o.toDictionary.entries).put "custom"
    (.object ((settingsOfLanguage language).update o.custom.toEntries))

theorem override_savedEntries (language : String) (o : Options) :
    override (defaultsOf language) o.savedEntries = .ok (savedOver language o) := by
  have hfields : override (defaultsOf language) o.toDictionary.entries =
      .ok ((defaultsOf language).update o.toDictionary.entries) :=
    override_eq_update fun _ he => mem_keys_toDictionary he
  have hcustom : (Entries.get? o.toDictionary.entries.reverse "custom") = none := by
    rw [Entries.get?_reverse (nodup_keys_toDictionary o), Entries.get?_eq_none_iff,
      keys_toDictionary]
    decide
  have hold : (((defaultsOf language).update o.toDictionary.entries).get? "custom").getD
      (.object []) = .object (settingsOfLanguage language) := by
    rw [Entries.get?_update, hcustom, Option.none_or, get?_defaultsOf]
  have hlast : overrideEntry ((defaultsOf language).update o.toDictionary.entries) "custom"
      (.object o.custom.toEntries) = .ok (savedOver language o) := by
    simp only [overrideEntry, hold]
    rfl
  rw [override] at hfields
  rw [override, savedEntries, List.foldlM_append, hfields]
  simp only [bind, Except.bind, List.foldlM_cons, List.foldlM_nil, hlast]
  rfl

/-- Saved options over the defaults are all there is. -/
theorem madeOf_savedOver (language : String) (o : Options) :
    MadeOf (savedOver language o).get? o := by
  refine (madeOf_toDictionary o).congr fun field hfield hcustom => ?_
  have hmem : field ∈ o.toDictionary.entries.keys := by
    rw [keys_toDictionary]
    have hall : ∀ key ∈ keys, key ≠ "custom" → key ∈ keys.dropLast := by decide
    exact hall field hfield hcustom
  obtain ⟨v, hv⟩ := Entries.has_iff_exists_get?.mp (Entries.mem_keys_iff.mp hmem)
  rw [savedOver, Entries.get?_put, if_neg (Ne.symm hcustom), Entries.get?_update,
    Entries.get?_reverse (nodup_keys_toDictionary o), hv]
  rfl

theorem mem_keys_savedOver (language : String) (o : Options) :
    ∀ e ∈ savedOver language o, e.1 ∈ keys := by
  intro e he
  rcases Entries.mem_of_mem_put he with rfl | he
  · exact (by decide : .whole "custom" ∈ keys)
  · have hkey := Entries.mem_keys_iff.mp (List.mem_map_of_mem he)
    obtain ⟨v, hv⟩ := Entries.has_iff_exists_get?.mp hkey
    rw [Entries.get?_update, Option.or_eq_some_iff] at hv
    rcases hv with hv | ⟨-, hv⟩
    · exact (mem_keys_toDictionary (List.mem_reverse.mp (Entries.mem_of_get? hv))).1
    · exact mem_keys_defaultsOf language (e.1, v) (Entries.mem_of_get? hv)

theorem ofJson_of_settings {base settings : Entries Json}
    (h : Json.valueOf base "custom" = .object settings) :
    ofJson (.object base) = ofDictionary ⟨base, .ofEntries settings⟩ := by
  rw [ofJson_object, h]
  cases settings <;> rfl

theorem ofJson_savedOver (language : String) (o : Options) :
    ofJson (.object (savedOver language o)) = .ok { o with
      custom := .ofEntries ((settingsOfLanguage language).update o.custom.toEntries) } := by
  have hstored : Stored (savedOver language o) :=
    Stored.override (Stored.override stored_nil (override_defaultsOf language))
      (override_savedEntries language o)
  have hvalue : Json.valueOf (savedOver language o) "custom" =
      .object ((settingsOfLanguage language).update o.custom.toEntries) := by
    rw [Json.valueOf, savedOver, Entries.get?_put, if_pos rfl]
    rfl
  rw [ofJson_of_settings hvalue]
  generalize (settingsOfLanguage language).update o.custom.toEntries = settings
  have hnodup := hstored.nodup
  have hkeys := mem_keys_savedOver language o
  have hmade := madeOf_savedOver language o
  generalize savedOver language o = base at hnodup hkeys hmade ⊢
  exact ofDictionary_of_madeOf (d := ⟨base, .ofEntries settings⟩) hnodup hkeys hmade

/-! ## Files -/

/-- Saving writes the document of options whose texts are whole. -/
theorem save_eq_ok_iff {files files' : Files.Tree} {o : Options} {name : String} :
    save files o name = .ok files' ↔
      files.writeText (Files.Path.ofText name) (o.toJson.write .file) = .ok files' ∧
        o.toJson.fileFault? = none := by
  rw [save]
  constructor
  · intro h
    obtain ⟨written, hwritten, h⟩ := Steps.exists_of_bind_eq_ok h
    cases hwhole : o.toJson.fileFault? with
    | some fault =>
        rw [hwhole] at h
        cases h
    | none =>
        rw [hwhole] at h
        obtain rfl : written = files' := Except.ok.inj h
        exact ⟨Steps.eq_ok_of_mapError hwritten, rfl⟩
  · rintro ⟨hwritten, hwhole⟩
    rw [hwritten, hwhole]
    rfl

section Saved

variable {files files' : Files.Tree} {o : Options} {name : String} (ho : o.toJson.Proper)
  (h : save files o name = .ok files')
  (hjson : (Files.Path.ofText name).extension.lowered = ".json")

include ho h hjson

/-- **A file of saved options holds them.** -/
theorem readFile_of_save : readFile files' name = .ok o.savedEntries := by
  have hline : '\r' ∉ (o.toJson.write .file).toList := (Json.written_writeAt rfl ho 0).line
  obtain ⟨hwritten, -⟩ := save_eq_ok_iff.mp h
  have htext := Files.Tree.readText_of_writeText hwritten hline
  have hread : Json.read (o.toJson.write .file) = .ok (.object o.savedEntries) :=
    Json.read_write rfl ho
  unfold readFile
  simp only [Files.Tree.exists?_of_readText htext, hjson, htext]
  simp only [Except.mapError, bind, Except.bind, hread]
  rfl

/-- **Saved options are loaded with their settings added to those of the language.** -/
theorem load_of_save (language : String) :
    load files' language .null name = .ok { o with
      custom := .ofEntries ((settingsOfLanguage language).update o.custom.toEntries) } := by
  have hname : name.isEmpty = false := by
    rw [Bool.eq_false_iff]
    intro hempty
    rw [String.isEmpty_iff.mp hempty] at hjson
    exact absurd hjson (by decide +kernel)
  have hover := override_savedEntries language o
  have hread := ofJson_savedOver language o
  unfold load
  simp only [hname, readFile_of_save ho h hjson, bind, Except.bind, hover,
    Bool.false_eq_true, if_false, Json.given?, Json.isGiven]
  show (ofJson (.object (savedOver language o))).mapError ConfigError.options = _
  rw [hread]
  rfl

end Saved

/-! ## Round trip -/

/-- The settings with the style that the language `python` has by default, unless they have one. -/
def withStyle (o : Options) : CustomSettings :=
  if o.custom? "style" = none then o.custom.put (.str "style") (.str "pydantic") else o.custom

/-- Up to their order, settings added to a default stand with it where they do not set it. -/
theorem perm_update_default {settings : Entries Json} (h : settings.keys.Nodup) (key : RawText)
    (v : Json) : (Entries.update [(key, v)] settings).Perm
      (if settings.get? key = none then settings.put key v else settings) := by
  have hdefault : (Entries.keys [(key, v)]).Nodup := List.nodup_singleton key
  have hget : ∀ other, (Entries.update [(key, v)] settings).get? other =
      (settings.get? other).or (if key = other then some v else none) := by
    intro other
    rw [Entries.get?_update, Entries.get?_reverse h, Entries.get?_cons, Entries.get?_nil]
  split
  · next hnone =>
      refine Entries.perm_of_get?_eq (Entries.nodup_keys_update hdefault settings)
        (Entries.nodup_keys_put h key v) fun other => ?_
      rw [hget, Entries.get?_put]
      by_cases hother : key = other
      · rw [if_pos hother, if_pos hother, ← hother, hnone]
        rfl
      · rw [if_neg hother, if_neg hother, Option.or_none]
  · next hsome =>
      refine Entries.perm_of_get?_eq (Entries.nodup_keys_update hdefault settings) h
        fun other => ?_
      rw [hget]
      by_cases hother : key = other
      · obtain ⟨w, hw⟩ := Option.ne_none_iff_exists'.mp hsome
        rw [← hother, hw]
        rfl
      · rw [if_neg hother, Option.or_none]

/-- **Options survive being saved.** They are read back from their dictionary. When their settings
all stand under texts, a file of them is loaded as they were, only that the language `python` adds
its style to settings without one. -/
theorem ofDictionary_toDictionary_and_load_save {text : String} {data : Json} {o : Options}
    (hdata : Json.read text = .ok data) (ho : ofJson data = .ok o) :
    ofDictionary o.toDictionary = .ok o ∧
      (o.custom.AllTexts → ∀ {files files' : Files.Tree} {name : String},
        save files o name = .ok files' →
        (Files.Path.ofText name).extension.lowered = ".json" → ∀ language,
          (language.lowered ≠ "python" → load files' language .null name = .ok o) ∧
          (language.lowered = "python" → ∃ custom,
            load files' language .null name = .ok { o with custom := custom } ∧
              custom.Perm (withStyle o))) := by
  have hproper : o.Proper := proper_of_ofJson (Json.exists_read_iff.mp ⟨text, hdata⟩) ho
  refine ⟨ofDictionary_toDictionary o, fun htexts files files' name hsave hjson language => ?_⟩
  have hdocument : o.toJson.Proper :=
    hproper.proper_toJson (save_eq_ok_iff.mp hsave).2 (htexts.toEntries ▸ hproper.settings.nodup)
  have hload := load_of_save hdocument hsave hjson language
  rw [htexts.toEntries] at hload
  refine ⟨fun hother => ?_, fun hpython => ⟨_, hload, ?_⟩⟩
  · have hsettings : (settingsOfLanguage language).update o.custom.texts = o.custom.texts := by
      rw [settingsOfLanguage, if_neg hother]
      exact Entries.update_of_nodup hproper.settings.nodup
    rw [hload, hsettings, htexts.ofEntries_texts]
  · have hstyle : withStyle o = CustomSettings.ofEntries
        (if o.custom.texts.get? "style" = none then o.custom.texts.put "style" (.str "pydantic")
          else o.custom.texts) := by
      rw [withStyle, custom?, CustomSettings.get?_str]
      split
      · rw [← CustomSettings.put_ofEntries, htexts.ofEntries_texts]
      · rw [htexts.ofEntries_texts]
    rw [settingsOfLanguage, if_pos hpython, hstyle]
    exact (perm_update_default hproper.settings.nodup "style" (.str "pydantic")).map _

/-- Options whose texts are whole can be saved at a path right below the working directory of an
empty tree. -/
theorem exists_save {o : Options} (hwhole : o.toJson.fileFault? = none) :
    ∃ files, save {} o "options.json" = .ok files := by
  have hempty : ∃ files, Files.Tree.writeBytes {} (Files.Path.ofText "options.json") [] =
      .ok files := ⟨_, rfl⟩
  obtain ⟨_, hempty⟩ := hempty
  obtain ⟨files, hfiles⟩ := Files.Tree.exists_writeBytes hempty
    (o.toJson.write .file).toUTF8.toList
  exact ⟨files, save_eq_ok_iff.mpr ⟨hfiles, hwhole⟩⟩

/-- A switch, a setting of its own and one among the settings. -/
def ratioDocument : Json :=
  .object [("useLombok", .bool true), ("custom", .object [("frozen", .bool true)]),
    ("ratio", .float (.finite false 7205759403792794 (-56)))]

/-- All three survive; `python` adds its style. -/
theorem load_save_ratio : ∃ o files, Json.read
      "\x7b\"useLombok\": true, \"custom\": \x7b\"frozen\": true\x7d, \"ratio\": 0.1\x7d" =
        .ok ratioDocument ∧
    ofJson ratioDocument = .ok o ∧ save {} o "options.json" = .ok files ∧
    ofDictionary o.toDictionary = .ok o ∧ load files "java" .null "options.json" = .ok o ∧
    ∃ custom, load files "Python" .null "options.json" = .ok { o with custom := custom } ∧
      custom.Perm [(.str "frozen", .bool true),
        (.str "ratio", .float (.finite false 7205759403792794 (-56))),
        (.str "style", .str "pydantic")] := by
  have hread : Json.read
      "\x7b\"useLombok\": true, \"custom\": \x7b\"frozen\": true\x7d, \"ratio\": 0.1\x7d" =
        .ok ratioDocument := by decide +kernel
  have hoptions : (ofJson ratioDocument).map (fun o => (o.toJson.fileFault?, o.custom)) =
      .ok (none, [(.str "frozen", .bool true),
        (.str "ratio", .float (.finite false 7205759403792794 (-56)))]) := by decide +kernel
  obtain ⟨o, ho, hfields⟩ := Steps.exists_of_map_eq_ok hoptions
  obtain ⟨hwhole, hcustom⟩ := Prod.mk.inj hfields
  obtain ⟨files, hsave⟩ := exists_save hwhole
  have htexts : o.custom.AllTexts := by
    rw [hcustom]
    simp [CustomSettings.AllTexts]
  obtain ⟨hdictionary, hfiles⟩ := ofDictionary_toDictionary_and_load_save hread ho
  have hload := hfiles htexts hsave (by decide +kernel)
  refine ⟨o, files, hread, ho, hsave, hdictionary,
    (hload "java").1 (by decide +kernel), ?_⟩
  obtain ⟨custom, hpython, hperm⟩ := (hload "Python").2 (by decide +kernel)
  refine ⟨custom, hpython, hperm.trans ?_⟩
  rw [withStyle, custom?, hcustom]
  decide +kernel

/-- A setting under a number. -/
def numberKeyDocument : Json :=
  .object [("custom", .list [.list [.int 1, .str "a"]])]

/-- The setting comes back under a text. -/
theorem load_save_number_key : ∃ o files,
    Json.read "\x7b\"custom\": [[1, \"a\"]]\x7d" = .ok numberKeyDocument ∧
      ofJson numberKeyDocument = .ok o ∧
      o.custom = [(.int 1, .str "a")] ∧ save {} o "options.json" = .ok files ∧
      (Files.Path.ofText "options.json").extension.lowered = ".json" ∧
      "java".lowered ≠ "python" ∧ load files "java" .null "options.json" ≠ .ok o := by
  have hread : Json.read "\x7b\"custom\": [[1, \"a\"]]\x7d" = .ok numberKeyDocument := by
    decide +kernel
  have hoptions : (ofJson numberKeyDocument).map (fun o => (o.toJson.fileFault?, o.custom)) =
      .ok (none, [(.int 1, .str "a")]) := by decide +kernel
  obtain ⟨o, ho, hfields⟩ := Steps.exists_of_map_eq_ok hoptions
  obtain ⟨hwhole, hcustom⟩ := Prod.mk.inj hfields
  obtain ⟨files, hsave⟩ := exists_save hwhole
  have hproper : o.Proper := proper_of_ofJson (Json.exists_read_iff.mp ⟨_, hread⟩) ho
  have hdocument : o.toJson.Proper := hproper.proper_toJson hwhole (by rw [hcustom]; decide)
  have hjson : (Files.Path.ofText "options.json").extension.lowered = ".json" := by decide +kernel
  refine ⟨o, files, hread, ho, hcustom, hsave, hjson, by decide +kernel, fun hsame => ?_⟩
  have hload := load_of_save hdocument hsave hjson "java"
  rw [hsame] at hload
  have hkey := congrArg Options.custom (Except.ok.inj hload)
  simp only [hcustom] at hkey
  exact absurd hkey (by decide +kernel)

end Options

end DtoForge
