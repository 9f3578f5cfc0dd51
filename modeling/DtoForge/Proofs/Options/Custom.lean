import DtoForge.Options.Custom
import DtoForge.Proofs.Json.Entries

/-! # Keys that are texts — custom settings as entries

A text is the same key as itself and no other value. So among the settings under texts
(`CustomSettings.texts`) a text is found and set as in any dictionary, and the settings under other
keys do not matter to it. -/

namespace DtoForge.CustomSettings

/-- The settings under texts, as entries. -/
def texts (settings : CustomSettings) : Entries Json :=
  settings.filterMap fun e => e.1.text?.map (·, e.2)

@[simp] theorem sameKey_str (key : Json) (text : RawText) :
    sameKey key (.str text) = (key == .str text) := by
  cases key <;> simp [sameKey, Json.sameElement, Json.countValue?]

theorem texts_cons_str (text : RawText) (v : Json) (settings : CustomSettings) :
    texts ((.str text, v) :: settings) = (text, v) :: texts settings := rfl

theorem texts_cons_of_ne {key : Json} (h : ∀ text, key ≠ .str text) (v : Json)
    (settings : CustomSettings) : texts ((key, v) :: settings) = texts settings := by
  cases key with
  | str text => exact absurd rfl (h text)
  | _ => rfl

theorem get?_cons (e : Json × Json) (settings : CustomSettings) (key : Json) :
    get? (e :: settings) key = if sameKey e.1 key then some e.2 else get? settings key := by
  by_cases h : sameKey e.1 key <;> simp [get?, h]

/-- A text is found among the settings under texts. -/
theorem get?_str (settings : CustomSettings) (text : RawText) :
    settings.get? (.str text) = settings.texts.get? text := by
  induction settings with
  | nil => rfl
  | cons e settings ih =>
      obtain ⟨key, v⟩ := e
      rw [get?_cons, ih, sameKey_str]
      by_cases hkey : ∃ name, key = .str name
      · obtain ⟨name, rfl⟩ := hkey
        rw [texts_cons_str, Entries.get?_cons]
        simp
      · rw [not_exists] at hkey
        rw [texts_cons_of_ne hkey, if_neg (by simpa using hkey text)]

/-- Setting a text sets it among the settings under texts. -/
theorem texts_put (settings : CustomSettings) (text : RawText) (v : Json) :
    (settings.put (.str text) v).texts = settings.texts.put text v := by
  induction settings with
  | nil => rfl
  | cons e settings ih =>
      obtain ⟨key, w⟩ := e
      rw [put, sameKey_str]
      by_cases hkey : ∃ name, key = .str name
      · obtain ⟨name, rfl⟩ := hkey
        rw [texts_cons_str, Entries.put]
        by_cases hname : name = text
        · simp [hname, texts_cons_str]
        · simp [hname, texts_cons_str, ih]
      · rw [not_exists] at hkey
        rw [if_neg (by simpa using hkey text), texts_cons_of_ne hkey, texts_cons_of_ne hkey, ih]

/-- Setting any other value leaves the settings under texts. -/
theorem texts_put_of_ne {key : Json} (h : ∀ text, key ≠ .str text) (settings : CustomSettings)
    (v : Json) : (settings.put key v).texts = settings.texts := by
  induction settings with
  | nil => exact texts_cons_of_ne h v []
  | cons e settings ih =>
      obtain ⟨k, w⟩ := e
      rw [put]
      by_cases hk : ∃ name, k = .str name
      · obtain ⟨name, rfl⟩ := hk
        have hother : sameKey (.str name) key = false := by
          cases key with
          | str text => exact absurd rfl (h text)
          | _ => simp [sameKey, Json.sameElement, Json.countValue?]
        rw [if_neg (by simp [hother]), texts_cons_str, texts_cons_str, ih]
      · rw [not_exists] at hk
        split
        · rw [texts_cons_of_ne hk, texts_cons_of_ne hk]
        · rw [texts_cons_of_ne hk, texts_cons_of_ne hk, ih]

/-- What stands after setting a key has the new value or stood before. -/
theorem mem_of_mem_put {settings : CustomSettings} {key v : Json} {e : Json × Json}
    (h : e ∈ settings.put key v) : e.2 = v ∨ e ∈ settings := by
  induction settings with
  | nil => exact .inl (by rw [List.mem_singleton.mp h])
  | cons f settings ih =>
      rw [put] at h
      split at h
      next =>
        obtain rfl | hrest := List.mem_cons.mp h
        · exact .inl rfl
        · exact .inr (List.mem_cons_of_mem _ hrest)
      next =>
        obtain rfl | hrest := List.mem_cons.mp h
        · exact .inr List.mem_cons_self
        · exact (ih hrest).imp_right (List.mem_cons_of_mem _)

@[simp] theorem texts_ofEntries (es : Entries Json) : (ofEntries es).texts = es := by
  simp [texts, ofEntries, Json.text?]

/-- Setting a text among settings under texts. -/
theorem put_ofEntries (es : Entries Json) (text : RawText) (v : Json) :
    (ofEntries es).put (.str text) v = ofEntries (es.put text v) := by
  induction es with
  | nil => rfl
  | cons e es ih =>
      have hcons : ∀ fs : Entries Json, ∀ f : RawText × Json,
          ofEntries (f :: fs) = (.str f.1, f.2) :: ofEntries fs := fun _ _ => rfl
      rw [hcons, put, Entries.put, sameKey_str, ih]
      by_cases hkey : e.1 = text
      · simp [hkey, hcons]
      · simp [hkey, hcons]

/-- Settings whose keys are all texts. -/
def AllTexts (settings : CustomSettings) : Prop :=
  ∀ e ∈ settings, ∃ text, e.1 = .str text

/-- Settings under texts stay as they are in a document. -/
theorem AllTexts.toEntries {settings : CustomSettings} (h : settings.AllTexts) :
    settings.toEntries = settings.texts := by
  induction settings with
  | nil => rfl
  | cons e settings ih =>
      obtain ⟨⟨text, hkey⟩, hrest⟩ := List.forall_mem_cons.mp h
      obtain ⟨key, v⟩ := e
      obtain rfl : key = .str text := hkey
      rw [texts_cons_str, ← ih hrest]
      rfl

theorem AllTexts.ofEntries_texts {settings : CustomSettings} (h : settings.AllTexts) :
    ofEntries settings.texts = settings := by
  induction settings with
  | nil => rfl
  | cons e settings ih =>
      obtain ⟨⟨text, hkey⟩, hrest⟩ := List.forall_mem_cons.mp h
      obtain ⟨key, v⟩ := e
      obtain rfl : key = .str text := hkey
      rw [texts_cons_str]
      exact congrArg ((.str text, v) :: ·) (ih hrest)

end DtoForge.CustomSettings
