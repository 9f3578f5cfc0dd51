import Mathlib.Data.List.Dedup
import DtoForge.Json.Basic

/-! # Entries — what a dictionary gives after updates

A key that was set gives the value it was set to, and every other key gives what it gave before.
Of pairs with one key the last is found. A key that was removed is gone, and no other. -/

namespace DtoForge.Entries

variable {α κ : Type}

theorem keys_cons (e : κ × α) (es : Entries α κ) : keys (e :: es) = e.1 :: keys es := rfl

variable [DecidableEq κ]

@[simp] theorem get?_nil (key : κ) : get? ([] : Entries α κ) key = none := rfl

theorem get?_cons (e : κ × α) (es : Entries α κ) (key : κ) :
    get? (e :: es) key = if e.1 = key then some e.2 else get? es key := by
  by_cases h : e.1 = key
  · simp [get?, h]
  · simp [get?, h]

/-- Setting a key changes what it gives, and nothing else. -/
theorem get?_put (es : Entries α κ) (key : κ) (value : α) (key' : κ) :
    get? (es.put key value) key' = if key = key' then some value else get? es key' := by
  induction es with
  | nil => rw [put, get?_cons]
  | cons e es ih =>
      obtain ⟨k, v⟩ := e
      rw [put]
      by_cases hk : k = key
      · subst hk
        rw [if_pos (beq_self_eq_true k), get?_cons, get?_cons]
        split <;> rfl
      · rw [if_neg (by simpa using hk), get?_cons, ih, get?_cons]
        by_cases hkey : key = key'
        · subst hkey
          simp [hk]
        · simp [hkey]

/-- Of two runs of entries the first that has a key gives its value. -/
theorem get?_append (es fs : Entries α κ) (key : κ) :
    get? (es ++ fs) key = (get? es key).or (get? fs key) := by
  simp only [get?, List.find?_append]
  cases es.find? fun e => e.1 == key <;> rfl

/-- After several updates a key gives what it was set to last, or what it gave before. -/
theorem get?_update (es fs : Entries α κ) (key : κ) :
    get? (es.update fs) key = (get? fs.reverse key).or (get? es key) := by
  induction fs generalizing es with
  | nil => rfl
  | cons f fs ih =>
      have hstep : es.update (f :: fs) = (es.put f.1 f.2).update fs := rfl
      rw [hstep, ih, get?_put, List.reverse_cons, get?_append, get?_cons]
      split <;> simp

/-- A dictionary built from pairs gives the value of the last pair of a key. -/
theorem get?_ofPairs (pairs : List (κ × α)) (key : κ) :
    get? (ofPairs pairs) key = get? pairs.reverse key := by
  rw [ofPairs, get?_update, get?_nil, Option.or_none]

theorem mem_of_get? {es : Entries α κ} {key : κ} {value : α} (h : es.get? key = some value) :
    (key, value) ∈ es := by
  obtain ⟨e, he, rfl⟩ := Option.map_eq_some_iff.mp h
  have hkey : e.1 = key := by simpa using List.find?_some he
  exact hkey ▸ List.mem_of_find?_eq_some he

/-- A key that stands in some pair gives a value. -/
theorem exists_get?_of_mem {es : Entries α κ} {e : κ × α} (h : e ∈ es) :
    ∃ value, es.get? e.1 = some value := by
  have hfound : (es.find? fun f => f.1 == e.1).isSome := by
    rw [List.find?_isSome]
    exact ⟨e, h, beq_self_eq_true _⟩
  obtain ⟨f, hf⟩ := Option.isSome_iff_exists.mp hfound
  exact ⟨f.2, by rw [get?, hf]; rfl⟩

theorem has_iff_exists_get? {es : Entries α κ} {key : κ} :
    es.has key ↔ ∃ value, es.get? key = some value := by
  rw [← Option.isSome_iff_exists, has, get?, Option.isSome_map, List.find?_isSome, List.any_eq_true]

theorem mem_keys_iff {es : Entries α κ} {key : κ} : key ∈ es.keys ↔ es.has key := by
  simp [keys, has]

/-- An entry that stands after setting a key is the new one or stood before. -/
theorem mem_of_mem_put {es : Entries α κ} {key : κ} {value : α} {e : κ × α}
    (h : e ∈ es.put key value) : e = (key, value) ∨ e ∈ es := by
  induction es with
  | nil => exact .inl (List.mem_singleton.mp h)
  | cons f es ih =>
      rw [put] at h
      split at h
      next hkey =>
        obtain rfl | hrest := List.mem_cons.mp h
        · exact .inl (by rw [eq_of_beq hkey])
        · exact .inr (List.mem_cons_of_mem _ hrest)
      next =>
        obtain rfl | hrest := List.mem_cons.mp h
        · exact .inr List.mem_cons_self
        · exact (ih hrest).imp_right (List.mem_cons_of_mem _)

/-- A key that is not there is set at the end. -/
theorem put_of_not_has {es : Entries α κ} {key : κ} (h : es.has key = false) (value : α) :
    es.put key value = es ++ [(key, value)] := by
  induction es with
  | nil => rfl
  | cons e es ih =>
      rw [has, List.any_cons, Bool.or_eq_false_iff] at h
      rw [put, if_neg (Bool.eq_false_iff.mp h.1), ih h.2]
      rfl

/-- Setting a key to what it gives changes nothing. -/
theorem put_of_get? {es : Entries α κ} {key : κ} {value : α} (h : es.get? key = some value) :
    es.put key value = es := by
  induction es with
  | nil => cases h
  | cons e es ih =>
      rw [get?_cons] at h
      rw [put]
      split at h
      next hkey =>
        obtain rfl := Option.some.inj h
        rw [if_pos (beq_iff_eq.mpr hkey)]
      next hkey => rw [if_neg (by simpa using hkey), ih h]

theorem has_put {es : Entries α κ} {key : κ} {value : α} {key' : κ} :
    (es.put key value).has key' ↔ key = key' ∨ es.has key' := by
  simp only [has_iff_exists_get?, get?_put]
  by_cases h : key = key'
  · simp [h]
  · simp [h]

theorem get?_eq_none_iff {es : Entries α κ} {key : κ} :
    es.get? key = none ↔ key ∉ es.keys := by
  rw [mem_keys_iff, has_iff_exists_get?, Option.eq_none_iff_forall_ne_some, not_exists]

/-- With each key once it does not matter from which end the entries are searched. -/
theorem get?_reverse {es : Entries α κ} (h : es.keys.Nodup) (key : κ) :
    get? es.reverse key = get? es key := by
  induction es with
  | nil => rfl
  | cons e es ih =>
      obtain ⟨hfresh, h⟩ := List.nodup_cons.mp h
      rw [List.reverse_cons, get?_append, ih h, get?_cons, get?_cons]
      split
      next hkey =>
        subst hkey
        rw [get?_eq_none_iff.mpr hfresh]
        rfl
      next => simp

/-- Setting a key writes no other key, and none a second time. -/
theorem nodup_keys_put {es : Entries α κ} (h : es.keys.Nodup) (key : κ) (value : α) :
    (es.put key value).keys.Nodup := by
  induction es with
  | nil => simp [put, keys]
  | cons e es ih =>
      obtain ⟨hfresh, hrest⟩ := List.nodup_cons.mp h
      rw [put]
      split
      next => exact h
      next hkey =>
        refine List.nodup_cons.mpr ⟨fun hmem => ?_, ih hrest⟩
        obtain rfl | hmem := has_put.mp (mem_keys_iff.mp hmem)
        · exact hkey (beq_self_eq_true _)
        · exact hfresh (mem_keys_iff.mpr hmem)

theorem has_erase {es : Entries α κ} {key key' : κ} :
    (es.erase key).has key' ↔ key ≠ key' ∧ es.has key' := by
  simp only [has, erase, List.any_eq_true, List.mem_filter, bne_iff_ne, beq_iff_eq]
  constructor
  · rintro ⟨e, ⟨he, hne⟩, rfl⟩
    exact ⟨Ne.symm hne, e, he, rfl⟩
  · rintro ⟨hne, e, he, rfl⟩
    exact ⟨e, ⟨he, Ne.symm hne⟩, rfl⟩

theorem keys_put (es : Entries α κ) (key : κ) (value : α) :
    (es.put key value).keys = if key ∈ es.keys then es.keys else es.keys ++ [key] := by
  induction es with
  | nil => rfl
  | cons e es ih =>
      simp only [keys, List.map_cons] at ih ⊢
      rw [put]
      by_cases hkey : e.1 = key
      · simp [hkey]
      · rw [if_neg (by simpa using hkey), List.map_cons, ih]
        by_cases hmem : key ∈ es.map (·.1)
        · simp [hmem]
        · simp [hmem, Ne.symm hkey]

theorem nodup_keys_update {es : Entries α κ} (h : es.keys.Nodup) (fs : Entries α κ) :
    (es.update fs).keys.Nodup := by
  induction fs generalizing es with
  | nil => exact h
  | cons f fs ih => exact ih (nodup_keys_put h f.1 f.2)

theorem nodup_keys_ofPairs (pairs : List (κ × α)) : (ofPairs pairs).keys.Nodup :=
  nodup_keys_update (show (keys []).Nodup from List.nodup_nil) pairs

theorem not_has_of_nodup {es fs : Entries α κ} {e : κ × α}
    (h : (es ++ e :: fs).keys.Nodup) : es.has e.1 = false := by
  rw [Bool.eq_false_iff, Ne, ← mem_keys_iff]
  intro hmem
  rw [keys, List.map_append, List.map_cons] at h
  exact List.disjoint_of_nodup_append h hmem List.mem_cons_self

/-- Updates with new keys, each once, are added at the end. -/
theorem update_of_nodup {es fs : Entries α κ} (h : (es ++ fs).keys.Nodup) :
    es.update fs = es ++ fs := by
  induction fs generalizing es with
  | nil => exact (List.append_nil es).symm
  | cons f fs ih =>
      have hput : es.put f.1 f.2 = es ++ [f] := put_of_not_has (not_has_of_nodup h) f.2
      rw [List.append_cons] at h ⊢
      rw [← ih h, ← hput]
      rfl

theorem mem_iff_get? {es : Entries α κ} (h : es.keys.Nodup) {e : κ × α} :
    e ∈ es ↔ es.get? e.1 = some e.2 := by
  refine ⟨fun he => ?_, mem_of_get?⟩
  obtain ⟨value, hvalue⟩ := exists_get?_of_mem he
  have hsame : e = (e.1, value) := List.inj_on_of_nodup_map h he (mem_of_get? hvalue) rfl
  rw [hvalue, hsame]

/-- With each key once, dictionaries that give the same have the same entries. -/
theorem perm_of_get?_eq {es fs : Entries α κ} (hes : es.keys.Nodup) (hfs : fs.keys.Nodup)
    (h : ∀ key, es.get? key = fs.get? key) : es.Perm fs := by
  refine (List.perm_ext_iff_of_nodup (hes.of_map _) (hfs.of_map _)).mpr fun e => ?_
  rw [mem_iff_get? hes, mem_iff_get? hfs, h]

/-- With each key once, dictionaries that give the same for keys in the same order are one. -/
theorem eq_of_keys_eq {es fs : Entries α κ} (hes : es.keys.Nodup)
    (h : ∀ key, es.get? key = fs.get? key) (hkeys : es.keys = fs.keys) : es = fs := by
  have hvalues : ∀ {gs : Entries α κ}, gs.keys.Nodup →
      gs.map (fun e => (e.1, gs.get? e.1)) = gs.map fun e => (e.1, some e.2) := by
    intro gs hgs
    exact List.map_congr_left fun e he => by rw [(mem_iff_get? hgs).mp he]
  have hlist : es.map (fun e => (e.1, some e.2)) = fs.map fun e => (e.1, some e.2) := by
    rw [← hvalues hes, ← hvalues (hkeys ▸ hes)]
    calc es.map (fun e => (e.1, es.get? e.1))
        = es.keys.map fun key => (key, es.get? key) := by rw [keys, List.map_map]; rfl
      _ = fs.keys.map fun key => (key, fs.get? key) := by simp only [hkeys, h]
      _ = fs.map fun e => (e.1, fs.get? e.1) := by rw [keys, List.map_map]; rfl
  exact List.map_injective_iff.mpr (fun e f hef => by simpa [Prod.ext_iff] using hef) hlist

theorem erase_of_not_has {es : Entries α κ} {key : κ} (h : es.has key = false) :
    es.erase key = es := by
  rw [erase, List.filter_eq_self]
  intro e he
  rw [has, List.any_eq_false] at h
  simpa using h e he

theorem keys_erase {es : Entries α κ} (h : es.keys.Nodup) (key : κ) :
    (es.erase key).keys = es.keys.erase key := by
  rw [h.erase_eq_filter, keys, keys, erase, List.filter_map]
  rfl

/-- With each key once, removing a key removes one entry. -/
theorem length_erase {es : Entries α κ} (h : es.keys.Nodup) {key : κ} (hkey : es.has key) :
    (es.erase key).length + 1 = es.length := by
  have hlength := List.length_erase_add_one (mem_keys_iff.mpr hkey)
  rw [← keys_erase h, keys, keys, List.length_map, List.length_map] at hlength
  exact hlength

/-- A key that is set anew at the end is there once. -/
theorem nodup_keys_erase_append {es : Entries α κ} (h : es.keys.Nodup) (key : κ) (value : α) :
    (es.erase key ++ [(key, value)]).keys.Nodup := by
  have herase := keys_erase h key
  rw [keys, List.map_append, List.map_singleton]
  rw [keys] at herase
  rw [herase, List.nodup_append_comm, List.singleton_append, List.nodup_cons]
  exact ⟨h.not_mem_erase, h.erase key⟩

/-! ## The last pair of each key -/

/-- The last pair of each key, in the order in which they stand. -/
def lastOfEach : List (κ × α) → Entries α κ
  | [] => []
  | p :: ps => if p.1 ∈ keys ps then lastOfEach ps else p :: lastOfEach ps

theorem keys_lastOfEach (ps : List (κ × α)) : (lastOfEach ps).keys = (keys ps).dedup := by
  induction ps with
  | nil => rfl
  | cons p ps ih =>
      rw [lastOfEach]
      split
      next h => rw [ih]; exact (List.dedup_cons_of_mem h).symm
      next h =>
        rw [keys_cons, ih]
        exact (List.dedup_cons_of_notMem h).symm

theorem get?_lastOfEach (ps : List (κ × α)) (key : κ) :
    get? (lastOfEach ps) key = get? ps.reverse key := by
  induction ps with
  | nil => rfl
  | cons p ps ih =>
      have hlater : ∀ key, get? (lastOfEach ps) key = none ↔ key ∉ keys ps := by
        intro key
        rw [get?_eq_none_iff, keys_lastOfEach, List.mem_dedup]
      rw [lastOfEach, List.reverse_cons, get?_append, ← ih, get?_cons p [], get?_nil]
      split
      next h =>
        by_cases hkey : p.1 = key
        · subst hkey
          obtain ⟨value, hvalue⟩ :=
            Option.ne_none_iff_exists'.mp ((hlater p.1).not.mpr (not_not.mpr h))
          rw [hvalue]
          rfl
        · rw [if_neg hkey, Option.or_none]
      next h =>
        rw [get?_cons]
        by_cases hkey : p.1 = key
        · subst hkey
          rw [if_pos rfl, (hlater p.1).mpr h, if_pos rfl]
          rfl
        · rw [if_neg hkey, if_neg hkey, Option.or_none]

/-- Adding pairs at the end, each in place of an earlier one of its key, leaves the last of each. -/
theorem foldl_erase_append (ps : List (κ × α)) (es : Entries α κ) :
    ps.foldl (fun es p => erase es p.1 ++ [p]) es =
      (es.filter fun e => e.1 ∉ keys ps) ++ lastOfEach ps := by
  induction ps generalizing es with
  | nil => simp [lastOfEach, keys]
  | cons p ps ih =>
      rw [List.foldl_cons, ih, List.filter_append, erase, List.filter_filter, lastOfEach,
        List.append_assoc]
      congr 1
      · apply List.filter_congr
        intro e _
        rw [keys_cons, Bool.eq_iff_iff]
        simp [and_comm]
      · by_cases h : p.1 ∈ keys ps
        · simp [h]
        · simp [h]

end DtoForge.Entries
