import DtoForge.Proofs.Extraction.Refinement
import DtoForge.Proofs.Packaging.Imports

/-! # Rendering — the files of selected objects

Rendering ends as generating the selected objects one after the other does. When every one of them
can be generated, it keeps the last file of each name, and these stand in the order in which their
objects do. The files of an example are the same ones, but a name that comes up again keeps its first
place there. -/

namespace DtoForge.Packaging

/-! ## Files in order -/

theorem Rendering.files_add (r : Rendering) (name code : String) :
    (r.add name code).files = r.files.erase name ++ [(name, code)] := by
  rw [add]
  split
  next => rfl
  next h => rw [Entries.erase_of_not_has (by simpa using h)]

section Files

variable {g : Generator} {ds : List ObjectDefinition} {pairs : List (String × String)}

theorem renderOne_of_fileOf {d : ObjectDefinition} {file : String × String}
    (h : fileOf g d = .ok file) (r : Rendering) :
    ((renderOne g d).run.run r) =
      (.ok (), (r.note (g.records d.schema (.str d.name))).add file.1 file.2) := by
  obtain ⟨hname, hcode⟩ := fileOf_eq_ok h
  rw [hname, renderOne]
  simp only [hcode]
  rfl

theorem renderOne_of_error {d : ObjectDefinition} {e : GenerationError}
    (h : g.generate d.schema (.str d.name) = .error e) (r : Rendering) :
    ((renderOne g d).run.run r).1 = .error e := by
  rw [renderOne]
  simp only [h]
  cases e.isExpected with
  | true => rfl
  | false => rfl

theorem fileOf_eq_error_iff {d : ObjectDefinition} {e : GenerationError} :
    fileOf g d = .error e ↔ g.generate d.schema (.str d.name) = .error e := by
  rw [fileOf]
  cases g.generate d.schema (.str d.name) with
  | error e' =>
      constructor
      · intro h
        rw [Except.error.inj h]
      · intro h
        rw [Except.error.inj h]
        rfl
  | ok code =>
      constructor
      · intro h
        cases h
      · intro h
        cases h

/-- Rendering objects ends as generating them one after the other does. -/
theorem forM_renderOne_fst (ds : List ObjectDefinition) (r : Rendering) :
    ((ds.forM (renderOne g)).run.run r).1 = (ds.mapM (fileOf g)).map fun _ => () := by
  induction ds generalizing r with
  | nil => rfl
  | cons d ds ih =>
      have hcons : (d :: ds).forM (renderOne g) =
          renderOne g d >>= fun _ => ds.forM (renderOne g) := rfl
      rw [hcons, List.mapM_cons]
      cases hfile : fileOf g d with
      | error e =>
          have hone := renderOne_of_error (fileOf_eq_error_iff.mp hfile) r
          rw [Steps.run_bind_of_error (Prod.ext hone rfl)]
          rfl
      | ok file =>
          rw [Steps.run_bind_of_ok (renderOne_of_fileOf hfile r), ih]
          cases ds.mapM (fileOf g) with
          | error e => rfl
          | ok files => rfl

theorem files_forM_renderOne (h : ds.mapM (fileOf g) = .ok pairs) (r : Rendering) :
    ((ds.forM (renderOne g)).run.run r).2.files =
      pairs.foldl (fun files p => Entries.erase files p.1 ++ [p]) r.files := by
  induction ds generalizing r pairs with
  | nil =>
      cases h
      rfl
  | cons d ds ih =>
      rw [List.mapM_cons] at h
      obtain ⟨file, hfile, h⟩ := Steps.exists_of_bind_eq_ok h
      obtain ⟨files, hfiles, h⟩ := Steps.exists_of_bind_eq_ok h
      cases h
      have hcons : (d :: ds).forM (renderOne g) =
          renderOne g d >>= fun _ => ds.forM (renderOne g) := rfl
      rw [hcons, Steps.run_bind_of_ok (renderOne_of_fileOf hfile r), ih hfiles, Rendering.files_add]
      rfl

theorem keys_of_mapM_fileOf (h : ds.mapM (fileOf g) = .ok pairs) :
    Entries.keys pairs = ds.map (fileName g) := by
  induction ds generalizing pairs with
  | nil => cases h; rfl
  | cons d ds ih =>
      rw [List.mapM_cons] at h
      obtain ⟨file, hfile, h⟩ := Steps.exists_of_bind_eq_ok h
      obtain ⟨files, hfiles, h⟩ := Steps.exists_of_bind_eq_ok h
      cases h
      rw [Entries.keys_cons, (fileOf_eq_ok hfile).1, ih hfiles]
      rfl

/-- Rendering keeps the last file of each name. -/
theorem render_of_mapM {objects : List ObjectDefinition} {selected : List String}
    (h : ((orderByDependency objects).filter fun d => selected.contains d.id).mapM (fileOf g) =
      .ok pairs) :
    (render g objects selected).1 = .ok () ∧
      (render g objects selected).2.files = Entries.lastOfEach pairs := by
  constructor
  · have houtcome : (render g objects selected).1 = _ := forM_renderOne_fst _ _
    rw [houtcome, h]
    rfl
  · refine (files_forM_renderOne h { records := cycleRecords objects }).trans ?_
    rw [Entries.foldl_erase_append]
    rfl

end Files

/-- A dictionary built from pairs has the keys in the order in which they come up first. -/
theorem keys_ofPairs {α : Type} (pairs : List (String × α)) :
    (Entries.ofPairs pairs).keys = (Entries.keys pairs).eraseDups := by
  have hupdate : ∀ es : Entries α String, (es.update pairs).keys =
      (Entries.keys pairs).foldl Extraction.addDependency es.keys := by
    induction pairs with
    | nil => exact fun _ => rfl
    | cons p ps ih =>
        intro es
        have hstep : es.update (p :: ps) = (es.put p.1 p.2).update ps := rfl
        rw [hstep, ih, Entries.keys_put, Entries.keys_cons, List.foldl_cons,
          Extraction.addDependency]
        simp
  rw [Entries.ofPairs, hupdate]
  exact Extraction.foldl_addDependency_nil _

/-! ## Files of an example -/

section Example

variable {g : Generator} {value : Json} {base : String}

theorem render_all_of_mapM {pairs : List (String × String)}
    (h : (orderByDependency (Extraction.ofValue value base)).mapM (fileOf g) = .ok pairs) :
    ∃ rendering, render g (Extraction.ofValue value base)
        ((Extraction.ofValue value base).map (·.id)) = (.ok (), rendering) ∧
      rendering.files = Entries.lastOfEach pairs := by
  have hall : ((orderByDependency (Extraction.ofValue value base)).filter fun d =>
      ((Extraction.ofValue value base).map (·.id)).contains d.id) =
        orderByDependency (Extraction.ofValue value base) := by
    rw [List.filter_eq_self]
    intro d hd
    have hids := Extraction.ofValue_ids_nodup value base .response
    simpa using ⟨d, (mem_orderByDependency hids).mp hd, rfl⟩
  obtain ⟨hok, hfiles⟩ := render_of_mapM (hall.symm ▸ h)
  exact ⟨_, Prod.ext hok rfl, hfiles⟩

/-- **The files of an example are those that are rendered for all its objects.** A name that comes
up more than once stands where it came up first, and where it came up last when it is rendered. -/
theorem exampleFiles_perm_render (g : Generator) (value : Json) (base : String)
    (hcode : ∀ d ∈ Extraction.ofValue value base,
      ∃ code, g.generate d.schema (.str d.name) = .ok code) :
    let objects := Extraction.ofValue value base
    let names := (orderByDependency objects).map (fileName g)
    ∃ files rendering, exampleFiles g value base = .ok files ∧
      render g objects (objects.map (·.id)) = (.ok (), rendering) ∧
      files.Perm rendering.files ∧
      files.keys = names.eraseDups ∧ rendering.files.keys = names.dedup ∧
      (files = rendering.files ↔ names.eraseDups = names.dedup) := by
  intro objects names
  obtain ⟨pairs, hpairs⟩ := exists_mapM_fileOf hcode
  obtain ⟨rendering, hrender, hfiles⟩ := render_all_of_mapM hpairs
  have hkeys : Entries.keys pairs = names := keys_of_mapM_fileOf hpairs
  have hfirst : (Entries.ofPairs pairs).keys = names.eraseDups := by rw [keys_ofPairs, hkeys]
  have hlast : rendering.files.keys = names.dedup := by
    rw [hfiles, Entries.keys_lastOfEach, hkeys]
  have hnodup := Entries.nodup_keys_ofPairs pairs
  have hsame : ∀ key, Entries.get? (Entries.ofPairs pairs) key = rendering.files.get? key := by
    intro key
    rw [Entries.get?_ofPairs, hfiles, Entries.get?_lastOfEach]
  refine ⟨_, rendering, exampleFiles_of_mapM hpairs, hrender, ?_, hfirst, hlast, ?_⟩
  · exact Entries.perm_of_get?_eq hnodup (hlast ▸ List.nodup_dedup names) hsame
  · rw [← hfirst, ← hlast]
    exact ⟨congrArg Entries.keys, Entries.eq_of_keys_eq hnodup hsame⟩

/-! ### Two objects of one name -/

/-- Entries that hold an object, which holds another of its name with a third between them. -/
def homonyms : Entries Json :=
  [("a", .object [("b", .object [("a", .object [("x", .int 1)])])])]

/-- Of the objects that are extracted from the entries, each depends on the next one alone. -/
theorem exists_chain_homonyms (source : ObjectSource) (base : String) :
    ∃ a b c d, ((Extraction.rootOf source base homonyms).extract {}).table.objects = [a, b, c, d] ∧
      [a, b, c, d].IsChain (fun x y => x.dependencies = [y.id]) ∧ d.dependencies = [] :=
  ⟨_, _, _, _, rfl, .cons_cons rfl (.cons_cons rfl (.cons_cons rfl (.singleton _))), rfl⟩

theorem names_homonyms :
    (orderByDependency (Extraction.ofValue (.object homonyms) "Root")).map (·.name) =
      ["AResponse", "BResponse", "AResponse", "RootResponse"] := by
  obtain ⟨a, b, c, d, hchained, hchain, hlast⟩ := exists_chain_homonyms
    { endpointId := "inline", path := "/Root", method := "GET", role := .response }
    (Naming.orElse (Naming.pascal "Root") "Root")
  have hobjects : Extraction.ofValue (.object homonyms) "Root" = [a, b, c, d] := hchained
  have hids := Extraction.ofValue_ids_nodup (.object homonyms) "Root" .response
  have hnames : (Extraction.ofValue (.object homonyms) "Root").map (·.name) =
      ["RootResponse", "AResponse", "BResponse", "AResponse"] := by decide +kernel
  rw [hobjects] at hids hnames ⊢
  rw [orderByDependency_of_explored hids (Explored.chain hchain hlast), List.map_reverse, hnames]
  rfl

/-- The files of the two names, as TypeScript code. -/
theorem exampleFiles_perm_render_homonyms :
    let g : Generator := { target := .typescript, options := {} }
    let objects := Extraction.ofValue (.object homonyms) "Root"
    (∀ d ∈ objects, ∃ code, g.generate d.schema (.str d.name) = .ok code) ∧
      ∃ files rendering, exampleFiles g (.object homonyms) "Root" = .ok files ∧
        render g objects (objects.map (·.id)) = (.ok (), rendering) ∧
        files.Perm rendering.files := by
  intro g objects
  have hcode := exists_code g (.object homonyms) "Root" fun v hv => nomatch hv
  obtain ⟨files, rendering, hfiles, hrender, hperm, -⟩ :=
    exampleFiles_perm_render g (.object homonyms) "Root" hcode
  exact ⟨hcode, files, rendering, hfiles, hrender, hperm⟩

/-- The order is not always the same one. -/
theorem exists_exampleFiles_ne_render :
    ∃ g value base files rendering, exampleFiles g value base = .ok files ∧
      render g (Extraction.ofValue value base) ((Extraction.ofValue value base).map (·.id)) =
        (.ok (), rendering) ∧
      files ≠ rendering.files := by
  let g : Generator := { target := .typescript, options := {} }
  let value := Json.object homonyms
  obtain ⟨pairs, hpairs⟩ := exists_mapM_fileOf (exists_code g value "Root" fun v hv => nomatch hv)
  obtain ⟨rendering, hrender, hfiles⟩ := render_all_of_mapM hpairs
  refine ⟨g, value, "Root", _, rendering, exampleFiles_of_mapM hpairs, hrender, fun hsame => ?_⟩
  have hkeys : Entries.keys pairs =
      ["AResponse.ts", "BResponse.ts", "AResponse.ts", "RootResponse.ts"] := by
    have hnames : (orderByDependency (Extraction.ofValue value "Root")).map (fileName g) =
        ["AResponse", "BResponse", "AResponse", "RootResponse"].map (· ++ ".ts") := by
      rw [← names_homonyms, List.map_map]
      rfl
    rw [keys_of_mapM_fileOf hpairs, hnames]
    rfl
  have hfirst := keys_ofPairs pairs
  rw [hsame, hfiles, Entries.keys_lastOfEach, hkeys] at hfirst
  exact absurd hfirst (by decide)

end Example

end DtoForge.Packaging
