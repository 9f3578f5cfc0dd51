import Mathlib.Data.List.Induction
import DtoForge.Proofs.Files.Tree
import DtoForge.Proofs.Json.Limit
import DtoForge.Proofs.Options.Precedence

/-! # Refused options — which refusals belong to the configuration

A refusal to load options is one of the configuration, or a plain error of a value that nobody
answers for. There are four ways to a plain error: the bytes of the options file are no text, the
text is given up for an integer, settings are to be added to something else than settings, and what
is left as the settings in the end is no dictionary. Overriding is one run over the entries, and
when settings are to be added, the last entry for the settings before them tells what is there
(`Settled`). -/

namespace DtoForge.Options

/-! ## Adding settings -/

/-- Settings can be added to this: to settings, or where there is nothing yet. -/
def TakesSettings (v : Option Json) : Prop :=
  ∀ w, v = some w → ∃ old, w = .object old

/-- Entries that add settings only where it can be done. -/
def AddsToSettings (es : Entries Json) : Prop :=
  ∀ before settings after, es = before ++ (.whole "custom", .object settings) :: after →
    TakesSettings (spelled before "custom")

theorem addsToSettings_concat {es : Entries Json} {e : RawText × Json} :
    AddsToSettings (es ++ [e]) ↔ AddsToSettings es ∧ ∀ settings,
      e = (.whole "custom", .object settings) → TakesSettings (spelled es "custom") := by
  constructor
  · intro h
    refine ⟨?_, ?_⟩
    · rintro before settings after rfl
      exact h before settings (after ++ [e]) (by simp)
    · rintro settings rfl
      exact h es settings [] rfl
  · rintro ⟨hes, he⟩ before settings after h
    rcases List.eq_nil_or_concat' after with rfl | ⟨after, f, rfl⟩
    · obtain ⟨rfl, hlast⟩ := List.append_inj' h rfl
      exact he settings (List.cons.inj hlast).1
    · rw [← List.cons_append, ← List.append_assoc] at h
      exact hes before settings after (List.append_inj' h rfl).1

/-- What is stored as the settings, beside the last entry for them: its value, unless this was added
to settings before it. -/
inductive Settled : Option Json → Option Json → Prop
  | same (v : Option Json) : Settled v v
  | added (settings given : Entries Json) :
      Settled (some (.object settings)) (some (.object given))

theorem Settled.takesSettings_iff {v w : Option Json} (h : Settled v w) :
    TakesSettings v ↔ TakesSettings w := by
  cases h with
  | same => rfl
  | added settings given => simp [TakesSettings]

/-- An entry is refused exactly if it adds settings to something else. -/
theorem exists_overrideEntry_iff {base : Entries Json} {e : RawText × Json} :
    (∃ base', overrideEntry base e.1 e.2 = .ok base') ↔
      ∀ settings, e = (.whole "custom", .object settings) → TakesSettings (base.get? "custom") := by
  obtain ⟨key, v⟩ := e
  by_cases hadds : ∃ settings, (key, v) = (.whole "custom", Json.object settings)
  · obtain ⟨settings, hadds⟩ := hadds
    obtain ⟨rfl, rfl⟩ := Prod.mk.inj hadds
    simp only [overrideEntry, Prod.mk.injEq, true_and, Json.object.injEq, forall_eq']
    cases hget : base.get? "custom" with
    | none => simp [TakesSettings]
    | some w =>
        cases w <;> simp [TakesSettings]
  · refine iff_of_true ?_ fun settings h => absurd ⟨settings, h⟩ hadds
    unfold overrideEntry
    split
    next settings hkey hv => exact absurd ⟨settings, Prod.ext hkey hv⟩ hadds
    next => exact ⟨_, rfl⟩

theorem spelled_concat (es : Entries Json) (e : RawText × Json) (field : RawText) :
    spelled (es ++ [e]) field = if snakeKey e.1 = field then some e.2 else spelled es field := by
  rw [spelled_append]
  by_cases h : snakeKey e.1 = field <;> simp [spelled, h]

/-- One more entry keeps what is stored in step with the last entry. -/
theorem Settled.overrideEntry {base base' es : Entries Json} {e : RawText × Json}
    (hbase : Settled (base.get? "custom") (spelled es "custom"))
    (h : overrideEntry base e.1 e.2 = .ok base') :
    Settled (base'.get? "custom") (spelled (es ++ [e]) "custom") := by
  have hcustom : .whole "custom" ∈ keys := by decide
  rw [spelled_concat]
  obtain ⟨settings, old, hkey, hv, -, rfl⟩ | ⟨-, rfl⟩ := overrideEntry_cases h
  · rw [hkey, hv, snakeKey_of_mem_keys _ hcustom, if_pos rfl, Entries.get?_put, if_pos rfl]
    exact .added _ _
  · rw [Entries.get?_put]
    by_cases hkey : storedKey e.1 = "custom"
    · rw [if_pos hkey, if_pos ((storedKey_eq_iff_of_mem hcustom).mp hkey)]
      exact .same _
    · rw [if_neg hkey, if_neg fun h => hkey ((storedKey_eq_iff_of_mem hcustom).mpr h)]
      exact hbase

/-- **Overriding goes through exactly if settings are only added to settings**, and what is stored as
the settings then is in step with the last entry for them. -/
theorem override_settled (es : Entries Json) :
    ((∃ base, override [] es = .ok base) ↔ AddsToSettings es) ∧
      ∀ base, override [] es = .ok base → Settled (base.get? "custom") (spelled es "custom") := by
  have hconcat : ∀ es e, override [] (es ++ [e]) =
      override [] es >>= fun base => Options.overrideEntry base e.1 e.2 := by
    intro es e
    rw [override, List.foldlM_append]
    congr 1
    funext base
    exact bind_pure _
  induction es using List.reverseRecOn with
  | nil =>
      refine ⟨iff_of_true ⟨[], rfl⟩ fun before _ _ h => absurd h (by simp), ?_⟩
      rintro base ⟨⟩
      exact .same none
  | append_singleton es e ih =>
      obtain ⟨hruns, hsettled⟩ := ih
      refine ⟨?_, ?_⟩
      · rw [hconcat, addsToSettings_concat, ← hruns]
        constructor
        · rintro ⟨base', h⟩
          obtain ⟨base, hbase, hentry⟩ := Steps.exists_of_bind_eq_ok h
          refine ⟨⟨base, hbase⟩, fun settings he => ?_⟩
          rw [← (hsettled base hbase).takesSettings_iff]
          exact exists_overrideEntry_iff.mp ⟨base', hentry⟩ settings he
        · rintro ⟨⟨base, hbase⟩, he⟩
          obtain ⟨base', hentry⟩ := exists_overrideEntry_iff.mpr fun settings h =>
            (hsettled base hbase).takesSettings_iff.mpr (he settings h)
          exact ⟨base', by rw [hbase]; exact hentry⟩
      · intro base' h
        rw [hconcat] at h
        obtain ⟨base, hbase, hentry⟩ := Steps.exists_of_bind_eq_ok h
        exact (hsettled base hbase).overrideEntry hentry

/-! ## Reading -/

/-- What is given as the settings stands for a dictionary. -/
def ReadsSettings (v : Option Json) : Prop :=
  ∀ w, v = some w → w.isGiven = true → ∃ settings, dictionaryOf w = .ok settings

theorem Settled.readsSettings_iff {v w : Option Json} (h : Settled v w) :
    ReadsSettings v ↔ ReadsSettings w := by
  cases h with
  | same => rfl
  | added settings given => simp [ReadsSettings, dictionaryOf]

/-- A refusal of the configuration. -/
abbrev Configures (cause : ConfigError) : Prop :=
  cause.isConfiguration = true

theorem ofJson_object (base : Entries Json) : ofJson (.object base) =
    (match (Json.valueOf base "custom").given? with
      | some v => (dictionaryOf v).mapError .shape
      | none => pure []) >>= fun custom => ofDictionary ⟨base, custom⟩ := by
  show (match (Json.valueOf base "custom").given? with
    | some v => (dictionaryOf v).mapError OptionError.shape >>=
        fun custom => ofDictionary ⟨base, custom⟩
    | none => pure [] >>= fun custom => ofDictionary ⟨base, custom⟩) = _
  cases (Json.valueOf base "custom").given? <;> rfl

/-- The construction wraps every plain error. -/
theorem ofDictionary_failsWith (d : Dictionary) :
    Steps.FailsWith (fun e => Configures (.options e)) (ofDictionary d) := by
  refine Steps.FailsWith.mapError fun e _ => ?_
  cases e <;> rfl

/-- So only the settings are read without cover. -/
theorem ofJson_failsWith_iff {base : Entries Json} :
    Steps.FailsWith (fun e => Configures (.options e)) (ofJson (.object base)) ↔
      ReadsSettings (base.get? "custom") := by
  have hgiven : ReadsSettings (base.get? "custom") ↔
      ∀ w, (Json.valueOf base "custom").given? = some w →
        ∃ settings, dictionaryOf w = .ok settings := by
    cases hget : base.get? "custom" with
    | none => simp [ReadsSettings, Json.valueOf, hget, Json.given?, Json.isGiven]
    | some w => simp [ReadsSettings, Json.valueOf, hget, Json.given?]
  rw [hgiven, ofJson_object]
  cases (Json.valueOf base "custom").given? with
  | none => exact iff_of_true (ofDictionary_failsWith ⟨base, []⟩) fun w hw => by cases hw
  | some w =>
      show Steps.FailsWith _ ((dictionaryOf w).mapError OptionError.shape >>= _) ↔ _
      cases hw : dictionaryOf w with
      | ok settings =>
          refine iff_of_true (ofDictionary_failsWith ⟨base, settings⟩) ?_
          rintro _ ⟨⟩
          exact ⟨settings, hw⟩
      | error cause =>
          refine iff_of_false (fun h => ?_) fun h => ?_
          · cases h (.shape cause) rfl
          · obtain ⟨settings, hsettings⟩ := h w rfl
            cases hw.symm.trans hsettings

/-! ## Files -/

/-- The entries in a text, with the path it was read from for the wording of a refusal. -/
def entriesOfText (path text : String) : Except ConfigError (Entries Json) := do
  let data ← (Json.read text).mapError fun
    | .misread cause => .invalidJson path cause
    | .longInteger digits => .longInteger digits
  match data with
  | .object es => return es
  | _ => throw (.notObject path)

/-- Only a text that is given up for an integer is refused outside the configuration. -/
theorem entriesOfText_failsWith_iff (path text : String) :
    Steps.FailsWith Configures (entriesOfText path text) ↔ ¬ Json.IsOverlong text := by
  refine (Steps.failsWith_bind_iff fun v => ?_).trans
    (Json.read_failsWith_iff (fun _ => rfl) fun _ => nofun)
  cases v with
  | object es => exact Steps.failsWith_ok es
  | _ => exact Steps.failsWith_error rfl

/-- A file whose bytes are a text that is not given up for an integer. -/
structure IsLegible (files : Files.Tree) (path : Files.Path) : Prop where
  bytes : ∀ bytes, files.readBytes path = .ok bytes → Text.IsUtf8 bytes
  text : ∀ text, files.readText path = .ok text → ¬ Json.IsOverlong text

/-- A file is refused outside the configuration exactly if it is read and not legible. -/
theorem readFile_failsWith_iff {files : Files.Tree} {file : String} :
    Steps.FailsWith Configures (readFile files file) ↔
      ((Files.Path.ofText file).extension.lowered = ".json" →
        IsLegible files (Files.Path.ofText file)) := by
  rw [readFile]
  generalize Files.Path.ofText file = path
  by_cases hthere : files.exists? path = true
  · by_cases hending : path.extension.lowered = ".json"
    · simp only [hthere, hending, forall_const, if_true, beq_self_eq_true]
      show Steps.FailsWith _ ((files.readText path).mapError _ >>= entriesOfText path.text) ↔ _
      refine (Files.Tree.readText_failsWith_iff (fun _ => rfl) (fun _ => nofun)
        (entriesOfText_failsWith_iff path.text)).trans ?_
      exact ⟨fun h => ⟨h.1, h.2⟩, fun h => ⟨h.bytes, h.text⟩⟩
    · have hbeq : (path.extension.lowered == ".json") = false := beq_eq_false_iff_ne.mpr hending
      simp only [hthere, hbeq, hending, false_implies, iff_true]
      exact Steps.failsWith_error rfl
  · have hnone : ∀ bytes, files.readBytes path ≠ .ok bytes := fun bytes h =>
      hthere (Files.Tree.exists?_of_readBytes h)
    have hlegible : IsLegible files path :=
      ⟨fun bytes h => absurd h (hnone bytes),
        fun text h => absurd (Files.Tree.exists?_of_readText h) hthere⟩
    simp only [hthere, hlegible, implies_true, iff_true]
    exact Steps.failsWith_error rfl

theorem fileEntries_failsWith_iff {files : Files.Tree} {file : String} :
    Steps.FailsWith Configures (fileEntries files file) ↔
      ((Files.Path.ofText file).extension.lowered = ".json" →
        IsLegible files (Files.Path.ofText file)) := by
  rw [← readFile_failsWith_iff, fileEntries]
  split
  next hfile =>
    -- the path of no file is that of the working directory, where no file is read
    rw [String.isEmpty_iff.mp hfile]
    refine iff_of_true (Steps.failsWith_ok _) (readFile_failsWith_iff.mpr fun hending => ?_)
    exact absurd hending (by decide)
  next => rfl

/-! ## Loading -/

/-- **When loading options gives options or a refusal of the configuration**: the bytes of an
options file are a text that is not given up for an integer, settings are only added to settings,
and what is given as the settings last stands for a dictionary. -/
theorem load_configures_iff (files : Files.Tree) (language file : String)
    (overrides : Entries Json) :
    ((∃ o, load files language (.object overrides) file = .ok o) ∨
      ∃ cause, load files language (.object overrides) file = .error cause ∧ Configures cause) ↔
    ((Files.Path.ofText file).extension.lowered = ".json" →
      IsLegible files (Files.Path.ofText file)) ∧
    ∀ es, fileEntries files file = .ok es →
      AddsToSettings (defaultsOf language ++ es ++ overrides) ∧
        ReadsSettings (spelled (defaultsOf language ++ es ++ overrides) "custom") := by
  rw [← Steps.failsWith_iff, ← fileEntries_failsWith_iff, load_eq]
  cases fileEntries files file with
  | error cause =>
      rw [Steps.failsWith_error_iff]
      exact ⟨fun h => ⟨h cause rfl, nofun⟩, fun h => Steps.failsWith_error h.1⟩
  | ok es =>
      simp only [Steps.failsWith_ok, true_and, Except.ok.injEq, forall_eq']
      have hlayers : (do
          let base ← (override (defaultsOf language) es).mapError plainError
          let base ← (override base overrides).mapError plainError
          (ofJson (.object base)).mapError ConfigError.options) =
          (override [] (defaultsOf language ++ es ++ overrides)).mapError plainError >>=
            fun base => (ofJson (.object base)).mapError ConfigError.options := by
        rw [← override_layers, Steps.mapError_bind, bind_assoc]
      generalize defaultsOf language ++ es ++ overrides = all at hlayers ⊢
      show Steps.FailsWith Configures (do
          let base ← (override (defaultsOf language) es).mapError plainError
          let base ← (override base overrides).mapError plainError
          (ofJson (.object base)).mapError ConfigError.options) ↔ _
      rw [hlayers]
      obtain ⟨hruns, hsettled⟩ := override_settled all
      cases hall : override [] all with
      | error cause =>
          -- settings were added to something else, and no refusal of that is one of the configuration
          refine iff_of_false (fun h => ?_) fun h => ?_
          · exact nomatch h (plainError cause) rfl
          · obtain ⟨base, hbase⟩ := hruns.mpr h.1
            cases hall.symm.trans hbase
      | ok base =>
          have hadds : AddsToSettings all := hruns.mp ⟨base, hall⟩
          rw [← (hsettled base hall).readsSettings_iff, ← ofJson_failsWith_iff]
          exact ⟨fun h => ⟨hadds, h.of_mapError⟩, fun h => h.2.mapError⟩

/-- A number in place of the settings is a plain error, though in place of the object types the same
number is a refusal of the configuration. -/
theorem load_number_for_settings :
    ((load (fileTree "\x7b\"custom\": 5\x7d") "java" (.object []) "options.json").map fun _ => ()) =
        .error (plainError (.noElements .int)) ∧
      ¬ Configures (plainError (.noElements .int)) ∧
      ((load (fileTree "\x7b\"object_types\": 5\x7d") "java" (.object []) "options.json").map
        fun _ => ()) = .error (.options (.invalid (.noElements .int))) ∧
      Configures (.options (.invalid (.noElements .int))) := by
  decide +kernel

end DtoForge.Options
