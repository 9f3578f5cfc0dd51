import DtoForge.Proofs.Packaging.Rendering

/-! # Collisions — selected objects whose files have one name

Every object that is rendered adds one to the files or, where its file name came up before, one to
the records of such names (`Rendering.Tallied`). So the records make up for the files that were given
up. The first object without code ends the work. -/

namespace DtoForge.Packaging

/-! ## Records of names that came up before -/

namespace Rendering

/-- Whether a record tells that a file name came up before. -/
def isRepeated (r : LogRecord) : Bool :=
  r.level == .warning && r.logger == Logger.packaging &&
    Text.endsText " generated twice; keeping the last one" r.text

theorem isRepeated_iff {r : LogRecord} : isRepeated r = true ↔ ∃ name, r = repeated name := by
  constructor
  · intro h
    obtain ⟨level, logger, text⟩ := r
    simp only [isRepeated, Bool.and_eq_true, beq_iff_eq, Text.endsText,
      List.isSuffixOf_iff_suffix] at h
    obtain ⟨⟨rfl, rfl⟩, name, hname⟩ := h
    have htext : text = String.ofList name ++ " generated twice; keeping the last one" := by
      rw [← String.toList_inj, String.toList_append, String.toList_ofList, hname]
    exact ⟨String.ofList name, by rw [htext]; rfl⟩
  · rintro ⟨name, rfl⟩
    simp [isRepeated, repeated, Text.endsText]

/-- A cycle is told of in other words. -/
theorem isRepeated_cycle (e : CycleEdge) : isRepeated e.record = false := by
  rw [Bool.eq_false_iff]
  intro h
  simp only [isRepeated, Bool.and_eq_true, Text.endsText, List.isSuffixOf_iff_suffix] at h
  have hcycle : "; ignoring this edge".toList <:+ e.record.text.toList := by
    rw [CycleEdge.record, String.toList_append]
    exact List.suffix_append _ _
  -- of two endings of one text the shorter one ends the longer one
  rcases List.suffix_or_suffix_of_suffix hcycle h.2 with hends | hends
  · exact absurd (List.isSuffixOf_iff_suffix.mpr hends) (by decide)
  · exact absurd (List.isSuffixOf_iff_suffix.mpr hends) (by decide)

theorem countP_cycleRecords (objects : List ObjectDefinition) :
    (cycleRecords objects).countP isRepeated = 0 := by
  rw [List.countP_eq_zero]
  intro r hr
  obtain ⟨e, -, rfl⟩ := List.mem_map.mp hr
  rw [isRepeated_cycle]
  exact Bool.false_ne_true

/-- What is recorded while code is generated has another logger. -/
theorem countP_records (g : Generator) (schema : Schema) (name : Json) :
    (g.records schema name).countP isRepeated = 0 := by
  have hlogger : Logger.language "go" "generator" ≠ Logger.packaging := by decide
  rw [List.countP_eq_zero]
  intro r hr
  unfold Generator.records at hr
  split at hr
  next =>
    unfold Generator.packageRecords at hr
    split at hr
    next =>
      obtain ⟨problem, -, rfl⟩ := List.mem_map.mp hr
      simp [isRepeated, hlogger]
    next => cases hr
  next => cases hr

/-! ## Counting files and records -/

/-- Each name has one file, and the files and the records of repeated names make up a number. -/
structure Tallied (r : Rendering) (n : Nat) : Prop where
  nodup : r.files.keys.Nodup
  total : r.files.length + r.records.countP isRepeated = n

theorem Tallied.note {r : Rendering} {n : Nat} (h : r.Tallied n) {records : List LogRecord}
    (hrecords : records.countP isRepeated = 0) : (r.note records).Tallied n where
  nodup := h.nodup
  total := by
    rw [Rendering.note, List.countP_append, hrecords, Nat.add_zero]
    exact h.total

/-- Adding a file adds one to the files, or one to the records in place of a file given up. -/
theorem Tallied.add {r : Rendering} {n : Nat} (h : r.Tallied n) (name code : String) :
    (r.add name code).Tallied (n + 1) where
  nodup := by
    rw [files_add]
    exact Entries.nodup_keys_erase_append h.nodup name code
  total := by
    have htotal := h.total
    rw [Rendering.add]
    split
    next hname =>
      have hlength := Entries.length_erase h.nodup hname
      have hrepeated : isRepeated (repeated name) = true := isRepeated_iff.mpr ⟨name, rfl⟩
      rw [List.length_append, List.countP_append, List.countP_singleton, if_pos hrepeated,
        List.length_singleton]
      omega
    next =>
      rw [List.length_append, List.length_singleton]
      show _ + 1 + r.records.countP isRepeated = n + 1
      omega

end Rendering

/-! ## Runs -/

section Runs

variable {g : Generator} {ds : List ObjectDefinition} {pairs : List (String × String)}

theorem exists_fileOf_iff {d : ObjectDefinition} :
    (∃ file, fileOf g d = .ok file) ↔ ∃ code, g.generate d.schema (.str d.name) = .ok code := by
  constructor
  · rintro ⟨file, hfile⟩
    exact ⟨file.2, (fileOf_eq_ok hfile).2⟩
  · rintro ⟨code, hcode⟩
    exact ⟨_, by rw [fileOf, hcode]; rfl⟩

/-- Every object that is rendered adds one to the files or to the records of repeated names. -/
theorem forM_renderOne_tallied {r : Rendering} {n : Nat} (h : ds.mapM (fileOf g) = .ok pairs)
    (hr : r.Tallied n) : ((ds.forM (renderOne g)).run.run r).2.Tallied (n + ds.length) := by
  induction ds generalizing r n pairs with
  | nil => exact hr
  | cons d ds ih =>
      rw [List.mapM_cons] at h
      obtain ⟨file, hfile, h⟩ := Steps.exists_of_bind_eq_ok h
      obtain ⟨files, hfiles, -⟩ := Steps.exists_of_bind_eq_ok h
      have hcons : (d :: ds).forM (renderOne g) =
          renderOne g d >>= fun _ => ds.forM (renderOne g) := rfl
      rw [hcons, Steps.run_bind_of_ok (renderOne_of_fileOf hfile r), List.length_cons,
        Nat.add_comm ds.length, ← Nat.add_assoc]
      exact ih hfiles ((hr.note (Rendering.countP_records g _ _)).add file.1 file.2)

/-- The last pair of a name is that of the last object with the name. -/
theorem get?_lastOfEach_of_mapM {front behind : List ObjectDefinition} {d : ObjectDefinition}
    (h : (front ++ d :: behind).mapM (fileOf g) = .ok pairs)
    (hlast : fileName g d ∉ behind.map (fileName g)) :
    ∃ code, g.generate d.schema (.str d.name) = .ok code ∧
      (Entries.lastOfEach pairs).get? (fileName g d) = some code := by
  rw [List.mapM_append] at h
  obtain ⟨early, -, h⟩ := Steps.exists_of_bind_eq_ok h
  obtain ⟨late, hlate, h⟩ := Steps.exists_of_bind_eq_ok h
  cases h
  rw [List.mapM_cons] at hlate
  obtain ⟨⟨name, code⟩, hfile, hlate⟩ := Steps.exists_of_bind_eq_ok hlate
  obtain ⟨rest, hrest, hlate⟩ := Steps.exists_of_bind_eq_ok hlate
  cases hlate
  obtain ⟨rfl, hcode⟩ := fileOf_eq_ok hfile
  have hnone : Entries.get? rest.reverse (fileName g d) = none := by
    rw [← keys_of_mapM_fileOf hrest] at hlast
    rw [Entries.get?_eq_none_iff, Entries.keys, List.map_reverse, List.mem_reverse]
    exact hlast
  refine ⟨code, hcode, ?_⟩
  rw [Entries.get?_lastOfEach, List.reverse_append, List.reverse_cons, List.append_assoc,
    Entries.get?_append, hnone, Option.none_or, List.singleton_append, Entries.get?_cons,
    if_pos rfl]

end Runs

/-! ## Main result -/

/-- What rendering answers: the files, or the failure that ended it. -/
def rendered (g : Generator) (objects : List ObjectDefinition) (selected : List String) :
    Except GenerationError (Entries String String) :=
  let (outcome, rendering) := render g objects selected
  outcome.map fun _ => rendering.files

/-- **Of selected objects with one file name the last one is kept.** When all of them have code,
there is one file for each name, in the order of the last object of the name, with the code of that
object, and a record for each object whose file was given up. Otherwise the first object without
code ends the work, and there are no files. -/
theorem rendered_last_of_each_name (g : Generator) (objects : List ObjectDefinition)
    (selected : List String) (hids : (objects.map (·.id)).Nodup) :
    let chosen := (orderByDependency objects).filter fun d => selected.contains d.id
    chosen.Perm (objects.filter fun d => selected.contains d.id) ∧
      ((∀ d ∈ chosen, ∃ code, g.generate d.schema (.str d.name) = .ok code) →
        ∃ files, rendered g objects selected = .ok files ∧
          files.keys = (chosen.map (fileName g)).dedup ∧
          (∀ front d behind, chosen = front ++ d :: behind →
            fileName g d ∉ behind.map (fileName g) →
            ∃ code, g.generate d.schema (.str d.name) = .ok code ∧
              files.get? (fileName g d) = some code) ∧
          (render g objects selected).2.records.countP Rendering.isRepeated =
            chosen.length - files.length) ∧
      ∀ front d behind e, chosen = front ++ d :: behind →
        (∀ a ∈ front, ∃ code, g.generate a.schema (.str a.name) = .ok code) →
        g.generate d.schema (.str d.name) = .error e →
        rendered g objects selected = .error e := by
  intro chosen
  have hrun : (render g objects selected).1 = (chosen.mapM (fileOf g)).map fun _ => () :=
    forM_renderOne_fst chosen _
  refine ⟨(orderByDependency_perm_of_nodup hids).filter _, ?_, ?_⟩
  · intro hcode
    obtain ⟨pairs, hpairs⟩ := Steps.exists_mapM_eq_ok fun d hd => exists_fileOf_iff.mpr (hcode d hd)
    obtain ⟨hok, hfiles⟩ := render_of_mapM hpairs
    have htallied : (render g objects selected).2.Tallied (0 + chosen.length) := by
      apply forM_renderOne_tallied hpairs
      exact ⟨List.nodup_nil, by simp [Rendering.countP_cycleRecords]⟩
    refine ⟨Entries.lastOfEach pairs, ?_, ?_, ?_, ?_⟩
    · rw [rendered, ← hfiles]
      show (render g objects selected).1.map _ = _
      rw [hok]
      rfl
    · rw [Entries.keys_lastOfEach, keys_of_mapM_fileOf hpairs]
    · intro front d behind hsplit hlast
      exact get?_lastOfEach_of_mapM (hsplit ▸ hpairs) hlast
    · have htotal := htallied.total
      rw [hfiles] at htotal
      omega
  · intro front d behind e hsplit hfront he
    have hfail : chosen.mapM (fileOf g) = .error e :=
      Steps.mapM_eq_error_iff.mpr ⟨front, d, behind, hsplit,
        fun a ha => exists_fileOf_iff.mpr (hfront a ha), fileOf_eq_error_iff.mpr he⟩
    show (render g objects selected).1.map _ = _
    rw [hrun, hfail]
    rfl

/-- An object for examples that has one property. -/
def pointObject (id name property : String) (dependencies : List String) : ObjectDefinition where
  id := id
  name := name
  schema := .object [(property, .leaf .number none)] [] none
  source := { endpointId := "ep", path := "/x", method := "GET", role := .response }
  dependencies := dependencies

/-- Two objects of one name with another one between them, and an identifier of no object. Code in
Go fails at once for a package that is no text. -/
theorem rendered_last_of_each_name_points :
    let first := pointObject "a" "Point" "x" []
    let second := pointObject "b" "Point" "y" ["c"]
    let objects := [first, second, pointObject "c" "Unit" "z" []]
    let g : Generator := { target := .typescript, options := {} }
    let refused : Generator := { target := .go, options := { packageName := .int 5 } }
    (objects.map (·.id)).Nodup ∧
      (∀ d ∈ objects, ∃ code, g.generate d.schema (.str d.name) = .ok code) ∧
      (∃ files code, rendered g objects ["a", "b", "c", "x"] = .ok files ∧
        files.keys = ["Unit.ts", "Point.ts"] ∧
        g.generate second.schema (.str "Point") = .ok code ∧
        files.get? "Point.ts" = some code ∧
        (render g objects ["a", "b", "c", "x"]).2.records.countP Rendering.isRepeated = 1) ∧
      refused.generate first.schema (.str "Point") = .error (.packageKind .int) ∧
      rendered refused objects ["a", "b", "c", "x"] = .error (.packageKind .int) := by
  intro first second objects g refused
  have hids : (objects.map (·.id)).Nodup := by decide
  have hcode : ∀ d ∈ objects, ∃ code, g.generate d.schema (.str d.name) = .ok code := by
    intro d hd
    simp only [objects, List.mem_cons, List.not_mem_nil, or_false] at hd
    rcases hd with rfl | rfl | rfl <;> exact ⟨_, rfl⟩
  obtain ⟨hperm, hall, -⟩ := rendered_last_of_each_name g objects ["a", "b", "c", "x"] hids
  obtain ⟨files, hfiles, hkeys, htexts, hcount⟩ :=
    hall fun d hd => hcode d (List.mem_filter.mp (hperm.mem_iff.mp hd)).1
  obtain ⟨code, hlast, htext⟩ :=
    htexts [first, pointObject "c" "Unit" "z" []] second [] rfl List.not_mem_nil
  have hlength : files.length = 2 := by
    rw [← List.length_map (f := (·.1))]
    exact congrArg List.length hkeys
  obtain ⟨-, -, hfirst⟩ := rendered_last_of_each_name refused objects ["a", "b", "c", "x"] hids
  have hfail : refused.generate first.schema (.str "Point") = .error (.packageKind .int) := rfl
  exact ⟨hids, hcode, ⟨files, code, hfiles, hkeys, hlast, htext, by rw [hcount, hlength]; rfl⟩,
    hfail, hfirst [] first _ _ rfl nofun hfail⟩

end DtoForge.Packaging
