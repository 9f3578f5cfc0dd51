import DtoForge.Proofs.Options.Layers

/-! # Settings — where the value of an extra comes from

An extra is a key that is no option. It reaches the custom settings by one of two ways: among the
settings of a document, which are merged while documents are laid over one another, or as an entry
of its own, which joins the settings only when the merged document is read. So an entry of its own
stands over all settings, those of a later document included. -/

namespace DtoForge.Options

/-! ## Two ways -/

/-- The settings after one more entry: settings are added to those before, any other value for them
takes their place. -/
def collectEntry (settings : Entries Json) (key : RawText) (v : Json) : Entries Json :=
  match key, v with
  | .whole "custom", .object given => settings.update given
  | key, v => if storedKey key = "custom" then settingsOf v else settings

/-- The settings after entries, in order. -/
def collect (settings es : Entries Json) : Entries Json :=
  es.foldl (fun acc e => collectEntry acc e.1 e.2) settings

theorem customOf_object (es : Entries Json) : customOf (.object es) = .ofEntries es := by
  cases es <;> rfl

theorem settingsOf_object (es : Entries Json) : settingsOf (.object es) = es := by
  rw [settingsOf, customOf_object, CustomSettings.texts_ofEntries]

theorem collectEntry_of_not_object {key : RawText} {v : Json}
    (h : key = "custom" → ∀ given, v ≠ .object given) (settings : Entries Json) :
    collectEntry settings key v = if storedKey key = "custom" then settingsOf v else settings := by
  unfold collectEntry
  split
  next given => exact absurd rfl (h rfl given)
  next => rfl

/-- Overriding by one entry collects it. -/
theorem settingsOf_overrideEntry {base base' : Entries Json} {key : RawText} {v : Json}
    (h : overrideEntry base key v = .ok base') :
    settingsOf (Json.valueOf base' "custom") =
      collectEntry (settingsOf (Json.valueOf base "custom")) key v := by
  obtain ⟨given, old, rfl, rfl, hold, rfl⟩ | ⟨hother, rfl⟩ := overrideEntry_cases h
  · have hbefore : settingsOf (Json.valueOf base "custom") = old := by
      cases hget : base.get? "custom" with
      | none =>
          rw [hget] at hold
          rw [Json.valueOf, hget]
          exact Json.object.inj hold
      | some w =>
          rw [hget] at hold
          obtain rfl : w = .object old := hold
          rw [Json.valueOf, hget]
          exact settingsOf_object old
    rw [hbefore, Json.valueOf, Entries.get?_put, if_pos rfl]
    exact settingsOf_object _
  · rw [collectEntry_of_not_object hother, Json.valueOf, Entries.get?_put]
    split <;> rfl

/-- Overriding collects the entries in order. -/
theorem settingsOf_override {base base' es : Entries Json} (h : override base es = .ok base') :
    settingsOf (Json.valueOf base' "custom") =
      collect (settingsOf (Json.valueOf base "custom")) es := by
  induction es generalizing base with
  | nil =>
      cases h
      rfl
  | cons e es ih =>
      obtain ⟨next, hnext, hrest⟩ := Steps.exists_of_bind_eq_ok h
      rw [ih hrest, settingsOf_overrideEntry hnext]
      rfl

/-- The value of an extra among the settings that entries collect. -/
def inside (es : Entries Json) (key : RawText) : Option Json :=
  (collect [] es).get? key

theorem custom_of_rebuild {o o' : Options} {args : Entries Json} {custom : CustomSettings}
    (h : o.rebuild args (pure custom) = .ok o') : o'.custom = custom := by
  rw [rebuild_eq] at h
  obtain ⟨naming, -, h⟩ := Steps.exists_of_bind_eq_ok h
  obtain ⟨objectTypes, -, h⟩ := Steps.exists_of_bind_eq_ok h
  obtain ⟨read, hread, h⟩ := Steps.exists_of_bind_eq_ok h
  obtain rfl : custom = read := Except.ok.inj hread
  rw [← Except.ok.inj h]

/-- The settings of loaded options give the last entry of its own, else what was collected. -/
theorem custom?_of_override {es base : Entries Json} {o : Options}
    (hbase : override [] es = .ok base) (h : ofJson (.object base) = .ok o) (key : RawText) :
    o.custom? key = (outside es key).or (inside es key) := by
  obtain ⟨args, custom, hsorted, hrebuild⟩ := exists_sorted_of_ofJson h
  have hbase' : Stored base := Stored.override stored_nil hbase
  have hstored : ∀ e ∈ base, storedKey e.1 = e.1 := fun e he =>
    hbase'.stored e.1 (List.mem_map_of_mem he)
  have hextra := (get?_sorted hstored ([], customOf (Json.valueOf base "custom"))).2 key
  rw [hsorted, ← settingsOf, settingsOf_override hbase] at hextra
  have houtside : outside base key = outside es key := by
    by_cases hkey : snakeKey key ∈ keys
    · rw [outside, if_pos hkey, outside, if_pos hkey]
    · have hcustom : key ≠ "custom" := by
        rintro rfl
        exact hkey (by decide +kernel)
      have hlast : (fun e : RawText × Json => storedKey e.1 == key) = fun e => e.1 == key := by
        funext e
        rw [Bool.eq_iff_iff, beq_iff_eq, beq_iff_eq]
        exact storedKey_eq_iff_of_not_mem hkey
      rw [outside, if_neg hkey, outside, if_neg hkey, Entries.get?_reverse hbase'.nodup,
        get?_override hbase hcustom, lastStored, hlast]
      exact Option.or_none
  calc o.custom? key = custom.texts.get? key := by
        rw [custom?, custom_of_rebuild hrebuild, CustomSettings.get?_str]
    _ = (outside es key).or (inside es key) := by
      rw [hextra, houtside]
      rfl

/-! ## What the order of the sources promises -/

/-- Entries whose settings stand under their own key as an object, and so are merged. -/
def Merging (es : Entries Json) : Prop :=
  ∀ e ∈ es, storedKey e.1 = "custom" → e.1 = "custom" ∧ ∃ given, e.2 = .object given

/-- One entry of settings that are merged leaves the settings before it where it gives none. -/
theorem get?_collectEntry {key : RawText} {v : Json}
    (h : storedKey key = "custom" → key = "custom" ∧ ∃ given, v = .object given)
    (settings : Entries Json) (extra : RawText) :
    (collectEntry settings key v).get? extra =
      ((collectEntry [] key v).get? extra).or (settings.get? extra) := by
  by_cases hkey : storedKey key = "custom"
  · obtain ⟨rfl, given, rfl⟩ := h hkey
    show (settings.update given).get? extra =
      ((Entries.update [] given).get? extra).or (settings.get? extra)
    rw [Entries.get?_update, Entries.get?_update, Entries.get?_nil, Option.or_none]
  · have hother : key = "custom" → ∀ given, v ≠ .object given := by
      rintro rfl
      exact absurd storedKey_custom hkey
    rw [collectEntry_of_not_object hother, collectEntry_of_not_object hother, if_neg hkey,
      if_neg hkey]
    rfl

theorem get?_collect {es : Entries Json} (h : Merging es) (settings : Entries Json)
    (key : RawText) :
    (collect settings es).get? key = (inside es key).or (settings.get? key) := by
  induction es generalizing settings with
  | nil => rfl
  | cons e es ih =>
      obtain ⟨hfirst, hrest⟩ := List.forall_mem_cons.mp h
      calc (collect settings (e :: es)).get? key
          = (inside es key).or ((collectEntry settings e.1 e.2).get? key) := ih hrest _
        _ = ((inside es key).or ((collectEntry [] e.1 e.2).get? key)).or (settings.get? key) := by
          rw [get?_collectEntry hfirst, Option.or_assoc]
        _ = (inside (e :: es) key).or (settings.get? key) := by
          rw [← ih hrest]
          rfl

/-- Settings that are merged stand over those of the entries before them. -/
theorem inside_append {es fs : Entries Json} (h : Merging fs) (key : RawText) :
    inside (es ++ fs) key = (inside fs key).or (inside es key) := by
  rw [inside, collect, List.foldl_append]
  exact get?_collect h _ key

/-- No default of a language is an extra of its own. -/
theorem outside_defaultsOf (language : String) (key : RawText) :
    outside (defaultsOf language) key = none := by
  have hlisted : ∀ d ∈ languageDefaults, ∀ e ∈ d.2, snakeKey e.1 ∈ keys := by decide +kernel
  have hdefaults : ∀ e ∈ defaultsOf language, snakeKey e.1 ∈ keys := by
    rw [defaultsOf]
    cases hfound : Entries.get? languageDefaults language.lowered with
    | none =>
        intro e he
        cases he
    | some es => exact hlisted (language.lowered, es) (Entries.mem_of_get? hfound)
  by_cases hkey : snakeKey key ∈ keys
  · exact if_pos hkey
  · rw [outside, if_neg hkey, Option.eq_none_iff_forall_ne_some]
    intro v hv
    have hmem : (key, v) ∈ defaultsOf language := List.mem_reverse.mp (Entries.mem_of_get? hv)
    exact hkey (hdefaults (key, v) hmem)

/-- The value that entries give for an extra, in one way or the other. -/
def given (es : Entries Json) (key : RawText) : Option Json :=
  (outside es key).or (inside es key)

/-- The value of an extra if every source stands over the ones before it: that of the overrides,
else that of the file, else that of the defaults. -/
def promised (language : String) (es overrides : Entries Json) (key : RawText) : Option Json :=
  (given overrides key).or ((given es key).or (given (defaultsOf language) key))

/-- **An extra of its own in the overrides or else in the file stands over all settings.** So with
settings that are merged the order of the sources is kept, except for an extra of its own in the
file that the overrides set to something else among the settings: the file wins. -/
theorem load_custom {files : Files.Tree} {language file : String} {overrides : Entries Json}
    {o : Options} (h : load files language (.object overrides) file = .ok o) :
    ∃ es, fileEntries files file = .ok es ∧ ∀ key,
      o.custom? key = (outside overrides key).or ((outside es key).or
        (inside (defaultsOf language ++ es ++ overrides) key)) ∧
      (Merging es → Merging overrides →
        (o.custom? key = promised language es overrides key ↔
          ∀ v w, outside overrides key = none → outside es key = some v →
            inside overrides key = some w → v = w)) := by
  obtain ⟨es, base, hfile, hbase, hread⟩ := exists_layers_of_load h
  refine ⟨es, hfile, fun key => ?_⟩
  have hcustom : o.custom? key = (outside overrides key).or ((outside es key).or
      (inside (defaultsOf language ++ es ++ overrides) key)) := by
    rw [custom?_of_override hbase hread, outside_append, outside_append, outside_defaultsOf,
      Option.or_none, Option.or_assoc]
  refine ⟨hcustom, fun hes hoverrides => ?_⟩
  rw [hcustom, inside_append hoverrides, inside_append hes, promised, given, given, given,
    outside_defaultsOf]
  cases houtside : outside overrides key with
  | some u => simp
  | none =>
      cases outside es key with
      | none => simp
      | some v => cases inside overrides key <;> simp

/-- An extra of its own in the overrides stands over the default, beside the settings of the file,
as the order of the sources promises. -/
theorem load_custom_python :
    ∃ o, load (fileTree "\x7b\"custom\": \x7b\"frozen\": true\x7d\x7d") "python"
        (.object [("style", .str "dataclass")]) "options.json" = .ok o ∧
      o.custom? "frozen" = some (.bool true) ∧ o.custom? "style" = some (.str "dataclass") ∧
      o.custom? "style" = promised "python" [("custom", .object [("frozen", .bool true)])]
        [("style", .str "dataclass")] "style" := by
  refine (Steps.exists_eq_ok ?_).imp fun o ho => ⟨ho, ?_⟩
  · decide +kernel
  obtain ⟨es, hfile, hcustom⟩ := load_custom ho
  obtain rfl : ([("custom", .object [("frozen", .bool true)])] : Entries Json) = es := by
    refine Except.ok.inj (Eq.trans ?_ hfile)
    decide +kernel
  have hes : Merging [("custom", .object [("frozen", .bool true)])] := by
    intro e he _
    obtain rfl := List.mem_singleton.mp he
    exact ⟨rfl, _, rfl⟩
  have hstyle : storedKey "style" ≠ "custom" := by decide +kernel
  have hoverrides : Merging [("style", .str "dataclass")] := by
    intro e he hkey
    obtain rfl := List.mem_singleton.mp he
    exact absurd hkey hstyle
  have hgiven : outside [("style", .str "dataclass")] "style" ≠ none := by decide +kernel
  refine ⟨(hcustom "frozen").1.trans ?_, (hcustom "style").1.trans ?_,
    ((hcustom "style").2 hes hoverrides).mpr fun _ _ hnone => absurd hnone hgiven⟩
  · decide +kernel
  · decide +kernel

/-- An extra of its own in the file wins over the settings of the overrides. -/
theorem load_style_not_promised :
    (load (fileTree "\x7b\"style\": \"dataclass\"\x7d") "python"
        (.object [("custom", .object [("style", .str "typeddict")])]) "options.json").map
        (·.custom? "style") = .ok (some (.str "dataclass")) ∧
      fileEntries (fileTree "\x7b\"style\": \"dataclass\"\x7d") "options.json" =
        .ok [("style", .str "dataclass")] ∧
      promised "python" [("style", .str "dataclass")]
        [("custom", .object [("style", .str "typeddict")])] "style" =
        some (.str "typeddict") := by
  decide +kernel

end DtoForge.Options
