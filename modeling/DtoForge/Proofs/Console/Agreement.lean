import DtoForge.Proofs.Console.Output
import DtoForge.Proofs.Packaging.Stability

/-! # Agreement — generated files and archives of the same objects

One command writes the wanted objects one by one, ordered on their own, the other one archives them
in the order of all objects. The names of the files are the names of the entries. What a name holds
is the same wherever no path between two wanted objects leads through one that is not wanted, or no
other wanted object has the name; else the two commands may keep different objects. -/

namespace DtoForge.Console

open Files (Path Tree)
open Packaging

section Agreement

variable {reply : Http.Reply} {input : InputArguments} {a : GenerationArguments}
  {wanted : List String} {output archivePath : String} {verbose : Bool}
  {objects selected : List ObjectDefinition} {g : Generator} {directory : Path}
  {s s₁ s₂ : Session}

/-- A directory below which files can be written under the names of the files of objects. -/
theorem open_of_free {t : Tree} {place : List String} (hplace : t.IsDirectory directory place)
    (hisName : ∀ d ∈ selected, Files.IsName (fileName g d))
    (hfree : ∀ d ∈ selected, t.at? (directory.below (fileName g d)) ≠ some .directory) :
    t.Open directory place (selected.map (fileName g)) where
  isDirectory := hplace
  free := by
    intro name hname
    obtain ⟨d, hd, rfl⟩ := List.mem_map.mp hname
    rw [← hplace.at?_below (hisName d hd)]
    exact hfree d hd
  isName := by
    intro name hname
    obtain ⟨d, hd, rfl⟩ := List.mem_map.mp hname
    exact hisName d hd

section Selected

variable {objects : List ObjectDefinition} {p : ObjectDefinition → Bool}

/-- Selected objects that have code are generated and archived under the same names, with the same
texts where the orders agree or only one of them has the name. -/
theorem saved_files_eq_archived (hids : (objects.map (·.id)).Nodup)
    {ids : List String} {completed : List ObjectDefinition}
    (hexplored : Explored [] ids objects completed)
    (hdirectory : (openDirectory output).run.run s₁ = (.ok (some directory), s₂))
    (hcode : ∀ d ∈ objects.filter p, ∃ code, g.generate d.schema (.str d.name) = .ok code)
    (hisName : ∀ d ∈ objects.filter p, Files.IsName (fileName g d))
    (hfree : ∀ d ∈ objects.filter p,
      s₂.files.at? (directory.below (fileName g d)) ≠ some .directory) :
    ∃ (archive : Archive) (written : List Written) (s' : Session),
      (saveObjects output verbose (objects.filter p) g).run.run s₁ = (.ok (), s') ∧
      s'.written = s₂.written ++ written ∧
      (∀ files, s₁.files.writeBytes (Path.ofText archivePath) (Zip.bytes archive) = .ok files →
        ∃ s'', (archiveSelected archivePath objects (objects.filter p) g).run.run s₁ =
            (.ok (), s'') ∧
          s''.written =
            s₁.written ++ [{ path := Path.ofText archivePath, content := .archive archive }]) ∧
      (∀ path, path ∈ written.map (·.path) ↔ ∃ e ∈ archive, path = directory.below e.name) ∧
      ∀ e ∈ archive,
        (Unbroken objects (fun d => ((objects.filter p).map (·.id)).contains d.id) ∨
          ∀ a ∈ objects.filter p, ∀ b ∈ objects.filter p,
            fileName g a = e.name → fileName g b = e.name → a = b) →
        s'.files.readBytes (directory.below e.name) = .ok e.text.toUTF8.toList := by
  have hperm := orderByDependency_perm_of_nodup (filter_ids_nodup hids p)
  obtain ⟨pairs, rendering, archive, hpairs, hrender, harchive, hsame, hlast⟩ :=
    exists_archive hids hcode hisName
  obtain ⟨place, hplace⟩ := exists_of_openDirectory_eq_ok hdirectory
  have hopen := open_of_free hplace hisName hfree
  have hfiles : ∀ f ∈ pairs, f.1 ∈ (objects.filter p).map (fileName g) := by
    intro f hf
    have hkey : f.1 ∈ Entries.keys pairs := List.mem_map_of_mem hf
    rw [keys_of_mapM_fileOf hpairs] at hkey
    exact (hperm.map _).mem_iff.mp hkey
  obtain ⟨s', hsave, htree, hwritten⟩ := saveObjects_of_mapM hdirectory hpairs hopen hfiles
  refine ⟨archive, _, s', hsave, hwritten, ?_, ?_, ?_⟩
  · intro files hwrite
    obtain ⟨s'', harchived, -, hlisted⟩ := archiveSelected_of_render hrender harchive hwrite
    exact ⟨s'', harchived, hlisted⟩
  · intro path
    rw [List.map_map]
    constructor
    · intro hpath
      obtain ⟨f, hf, rfl⟩ := List.mem_map.mp hpath
      obtain ⟨e, he, hname⟩ := List.mem_map.mp ((hsame f.1).mpr (List.mem_map_of_mem hf))
      exact ⟨e, he, by rw [hname]; rfl⟩
    · rintro ⟨e, he, rfl⟩
      obtain ⟨f, hf, hname⟩ := List.mem_map.mp ((hsame e.name).mp (List.mem_map_of_mem he))
      exact List.mem_map.mpr ⟨f, hf, by rw [← hname]; rfl⟩
  · intro e he hone
    -- the last file of the name is the one that the entry keeps
    have htext := hlast e he (hone.imp_left (order_selected_eq hids hexplored))
    obtain ⟨f, hf, hname⟩ := List.mem_map.mp ((hsame e.name).mp (List.mem_map_of_mem he))
    have hwrote : s'.files.Open directory place ((objects.filter p).map (fileName g)) :=
      htree ▸ hopen.putFiles hfiles
    apply hwrote.readBytes (hname ▸ hfiles f hf)
    rw [htree, hopen.node?_putFiles hfiles, htext]
    rfl

/-- Where generation fails for every object, neither a file nor an archive is written. -/
theorem unsaved_and_unarchived (hids : (objects.map (·.id)).Nodup)
    (hdirectory : (openDirectory output).run.run s₁ = (.ok (some directory), s₂))
    {cause : GenerationError}
    (hfail : ∀ d : ObjectDefinition, g.generate d.schema (.str d.name) = .error cause)
    (hfatal : cause.isExpected = false) (hselected : objects.filter p ≠ []) :
    (∃ s', (saveObjects output verbose (objects.filter p) g).run.run s₁ =
        (.error (.generation cause), s') ∧ s₂.Unwritten s') ∧
      ∃ s'', (archiveSelected archivePath objects (objects.filter p) g).run.run s₁ =
        (.error (.generation cause), s'') ∧ s₁.Unwritten s'' := by
  have hperm := orderByDependency_perm_of_nodup (filter_ids_nodup hids p)
  have horder : orderByDependency (objects.filter p) ≠ [] := fun hnone =>
    hselected (List.perm_nil.mp (hnone ▸ hperm).symm)
  have horder' : ((orderByDependency objects).filter fun d =>
      ((objects.filter p).map (·.id)).contains d.id) ≠ [] := by
    rw [filter_order_selected hids]
    exact fun hnone => horder (List.perm_nil.mp (hnone ▸ order_selected_perm hids))
  exact ⟨saveObjects_of_error hdirectory hfail hfatal horder,
    archiveSelected_of_error (render_of_error hfail horder') s₁⟩

end Selected

/-- **The files that are generated are the entries that are archived.** Where the wanted objects
have code, both commands succeed, the files have the names of the entries, and a file holds the text
of its entry unless another wanted object has its name and some path between wanted objects leads
through one that is not wanted. Where they have none, neither command writes a file. -/
theorem generated_files_eq_archived
    (hprepare : (prepare reply input a wanted).run.run s = (.ok (objects, selected, g), s₁))
    (hdirectory : (openDirectory output).run.run s₁ = (.ok (some directory), s₂))
    (hnames : ∀ d ∈ objects, '/' ∉ d.name.toList ∧ '\x00' ∉ d.name.toList)
    (hfree : ∀ d ∈ selected, s₂.files.at? (directory.below (fileName g d)) ≠ some .directory) :
    let generated := (generateObjects reply input a wanted output verbose).run.run s
    let archived := (archiveObjects reply input a wanted archivePath).run.run s
    ((∀ v, g.packageClause? = some v → ∃ text, v = .str text) →
      ∃ (archive : Archive) (written : List Written),
        generated.1 = .ok () ∧ generated.2.written = s₂.written ++ written ∧
        (∀ files, s₁.files.writeBytes (Path.ofText archivePath) (Zip.bytes archive) = .ok files →
          archived.1 = .ok () ∧ archived.2.written =
            s₁.written ++ [{ path := Path.ofText archivePath, content := .archive archive }]) ∧
        (∀ path, path ∈ written.map (·.path) ↔ ∃ e ∈ archive, path = directory.below e.name) ∧
        ∀ e ∈ archive,
          (Unbroken objects (fun d => (selected.map (·.id)).contains d.id) ∨
            ∀ a ∈ selected, ∀ b ∈ selected,
              fileName g a = e.name → fileName g b = e.name → a = b) →
          generated.2.files.readBytes (directory.below e.name) = .ok e.text.toUTF8.toList) ∧
    (∀ v, g.packageClause? = some v → (∀ text, v ≠ .str text) → selected ≠ [] →
      ∃ cause, generated.1 = .error (.generation cause) ∧ generated.2.written = s₂.written ∧
        archived.1 = .error (.generation cause) ∧ archived.2.written = s₁.written) := by
  intro generated archived
  obtain ⟨⟨collection, roles, -, -, -, hobjects⟩, hselect⟩ := exists_of_prepare_eq_ok hprepare
  have hgenerated : generated = (saveObjects output verbose selected g).run.run s₁ := by
    show (generateObjects reply input a wanted output verbose).run.run s = _
    rw [generateObjects_eq, Steps.run_bind_of_ok hprepare]
  have harchived : archived = (archiveSelected archivePath objects selected g).run.run s₁ := by
    show (archiveObjects reply input a wanted archivePath).run.run s = _
    rw [archiveObjects_eq, Steps.run_bind_of_ok hprepare]
  have hids : (objects.map (·.id)).Nodup :=
    hobjects ▸ (Extraction.run_completed collection.endpoints roles).1
  obtain ⟨p, rfl⟩ : ∃ p, selected = objects.filter p := ⟨_, exists_of_select_eq_ok hselect⟩
  rw [hgenerated, harchived]
  constructor
  · intro hclause
    obtain ⟨ids, completed, hexplored⟩ := Extraction.run_explored collection.endpoints roles
    rw [← hobjects] at hexplored
    have hisName : ∀ d ∈ objects.filter p, Files.IsName (fileName g d) := by
      intro d hd
      obtain ⟨hslash, hnull⟩ := hnames d (List.mem_filter.mp hd).1
      exact isName_fileName hslash hnull
    have hcode : ∀ d ∈ objects.filter p, ∃ code, g.generate d.schema (.str d.name) = .ok code := by
      intro d hd
      have hlinked := Extraction.run_linked collection.endpoints roles d
        (hobjects ▸ (List.mem_filter.mp hd).1)
      exact g.exists_generate_of_linked d hclause hlinked
    obtain ⟨archive, written, s', hsave, hwritten, harchive, hpaths, htexts⟩ :=
      saved_files_eq_archived hids hexplored hdirectory hcode hisName hfree
    refine ⟨archive, written, by rw [hsave], by rw [hsave]; exact hwritten, ?_, hpaths, ?_⟩
    · intro files hwrite
      obtain ⟨s'', hrun, hlisted⟩ := harchive files hwrite
      rw [hrun]
      exact ⟨rfl, hlisted⟩
    · intro e he hone
      rw [hsave]
      exact htexts e he hone
  · intro v hv hnotext hselected
    obtain ⟨⟨s', hsave, hunsaved⟩, s'', harchive, hunarchived⟩ :=
      unsaved_and_unarchived hids hdirectory (generate_of_clause hv hnotext) rfl hselected
    exact ⟨_, by rw [hsave], by rw [hsave]; exact hunsaved.written, by rw [harchive],
      by rw [harchive]; exact hunarchived.written⟩

end Agreement

/-! ## An object in another of its name -/

/-- A body with two objects of one name. -/
def homonymBody : String :=
  "\x7b\"a\": \x7b\"b\": \x7b\"a\": \x7b\"x\": 1\x7d\x7d\x7d\x7d"

/-- An endpoint that answers with the body, as a document. -/
def homonymDocument : String :=
  "\x7b\"id\": \"e\", \"path\": \"/order\", \"response\": \x7b\"body\": " ++ homonymBody ++
    "\x7d\x7d"

/-- A run that begins with a file of the document. -/
def homonymSession : Session where
  files := { nodes := [(["c.json"], .file homonymDocument.toUTF8.toList)] }

/-- The responses of the document. -/
def homonymInput : InputArguments :=
  { file := "c.json", roles := "response" }

/-- What the commands begin with when TypeScript code is wanted. -/
def prepareHomonyms (wanted : List String) :
    Except CommandError (List ObjectDefinition × List ObjectDefinition × Generator) × Session :=
  (prepare Http.offline homonymInput { language := "typescript" } wanted).run.run homonymSession

/-- Whether the objects are those of the body, and their files and an archive can be written. -/
def isReady (r : List ObjectDefinition × List ObjectDefinition × Generator) (s : Session) : Bool :=
  r.1.map (·.name) == ["OrderResponse", "AResponse", "BResponse", "AResponse"] &&
    r.2.2.packageClause?.isNone && (s.files.writeBytes (Path.ofText "o.zip") []).isOk &&
    Steps.passes ((openDirectory "out").run.run s) fun directory s' =>
      directory == some (Path.ofText "out") &&
        r.2.1.all fun d => (s'.files.at? ((Path.ofText "out").below (fileName r.2.2 d))).isNone

/-- What a run that is ready gives to the agreement of the commands. -/
theorem exists_of_isReady {wanted : List String}
    {check : List ObjectDefinition × List ObjectDefinition × Generator → Bool}
    (h : Steps.passes (prepareHomonyms wanted) fun r s => isReady r s && check r) :
    ∃ objects selected g s₁ s₂,
      (prepare Http.offline homonymInput { language := "typescript" } wanted).run.run
        homonymSession = (.ok (objects, selected, g), s₁) ∧
      (openDirectory "out").run.run s₁ = (.ok (some (Path.ofText "out")), s₂) ∧
      objects.map (·.name) = ["OrderResponse", "AResponse", "BResponse", "AResponse"] ∧
      (∀ d ∈ objects, '/' ∉ d.name.toList ∧ '\x00' ∉ d.name.toList) ∧
      (∀ d ∈ selected,
        s₂.files.at? ((Path.ofText "out").below (fileName g d)) ≠ some .directory) ∧
      g.packageClause? = none ∧
      (∀ bytes, ∃ files, s₁.files.writeBytes (Path.ofText "o.zip") bytes = .ok files) ∧
      check (objects, selected, g) = true := by
  obtain ⟨⟨objects, selected, g⟩, s₁, hprepare, h⟩ := Steps.exists_of_passes h
  simp only [isReady, Bool.and_eq_true, beq_iff_eq, Option.isNone_iff_eq_none] at h
  obtain ⟨⟨⟨⟨hnames, hclause⟩, hzip⟩, hdirectory⟩, hcheck⟩ := h
  obtain ⟨directory, s₂, hdirectory, h⟩ := Steps.exists_of_passes hdirectory
  simp only [Bool.and_eq_true, beq_iff_eq, List.all_eq_true, Option.isNone_iff_eq_none] at h
  obtain ⟨rfl, hfree⟩ := h
  refine ⟨objects, selected, g, s₁, s₂, hprepare, hdirectory, hnames, ?_, ?_, hclause, ?_, hcheck⟩
  · intro d hd
    have hall : ∀ name ∈ objects.map (·.name), '/' ∉ name.toList ∧ '\x00' ∉ name.toList := by
      rw [hnames]
      decide
    exact hall _ (List.mem_map_of_mem hd)
  · intro d hd
    rw [hfree d hd]
    exact nofun
  · obtain ⟨files, hfiles⟩ := Steps.exists_eq_ok hzip
    exact Tree.exists_writeBytes hfiles

/-- All objects are generated and archived alike, though two of them have one name. -/
theorem generated_files_eq_archived_homonyms :
    ∃ objects selected g s₁ directory s₂ archive,
      (prepare Http.offline homonymInput { language := "typescript" } []).run.run homonymSession =
        (.ok (objects, selected, g), s₁) ∧
      (openDirectory "out").run.run s₁ = (.ok (some directory), s₂) ∧
      (∀ d ∈ objects, '/' ∉ d.name.toList ∧ '\x00' ∉ d.name.toList) ∧
      (∀ d ∈ selected, s₂.files.at? (directory.below (fileName g d)) ≠ some .directory) ∧
      (∀ v, g.packageClause? = some v → ∃ text, v = .str text) ∧
      ((archiveObjects Http.offline homonymInput { language := "typescript" } [] "o.zip").run.run
        homonymSession).2.written =
          s₁.written ++ [{ path := Path.ofText "o.zip", content := .archive archive }] ∧
      let generated := (generateObjects Http.offline homonymInput { language := "typescript" } []
        "out" false).run.run homonymSession
      ∀ e ∈ archive,
        generated.2.files.readBytes (directory.below e.name) = .ok e.text.toUTF8.toList := by
  have hready : Steps.passes (prepareHomonyms []) fun r s => isReady r s && true := by
    decide +kernel
  obtain ⟨objects, selected, g, s₁, s₂, hprepare, hdirectory, -, hnames, hfree, hnone, hzip, -⟩ :=
    exists_of_isReady hready
  have hclause : ∀ v, g.packageClause? = some v → ∃ text, v = .str text :=
    fun v hv => nomatch hnone.symm.trans hv
  obtain ⟨hsuccess, -⟩ :=
    @generated_files_eq_archived Http.offline homonymInput { language := "typescript" } [] "out"
      "o.zip" false objects selected g _ homonymSession s₁ s₂ hprepare hdirectory hnames hfree
  obtain ⟨archive, written, -, -, harchived, -, hsame⟩ := hsuccess hclause
  obtain ⟨files, hfiles⟩ := hzip (Zip.bytes archive)
  refine ⟨objects, selected, g, s₁, _, s₂, archive, hprepare, hdirectory, hnames, hfree, hclause,
    (harchived files hfiles).2, fun e he => hsame e he (.inl ?_)⟩
  -- nothing is left out, so no path leads through what is
  obtain rfl : selected = objects := (Except.ok.inj (exists_of_prepare_eq_ok hprepare).2).symm
  apply unbroken_of_forall
  intro d hd
  simpa using ⟨d, hd, rfl⟩

/-- Of the objects of the document, each depends on the next one alone. -/
theorem exists_chain_of_prepare {wanted : List String} {objects selected : List ObjectDefinition}
    {g : Generator} {s₁ : Session}
    (h : prepareHomonyms wanted = (.ok (objects, selected, g), s₁)) :
    (objects.map (·.id)).Nodup ∧ ∃ a b c d, objects = [a, b, c, d] ∧
      [a, b, c, d].IsChain (fun x y => x.dependencies = [y.id]) ∧ d.dependencies = [] := by
  obtain ⟨⟨collection, roles, s', hload, hroles, hobjects⟩, -⟩ := exists_of_prepare_eq_ok h
  have hread : Steps.passes ((loadInput Http.offline homonymInput).run.run homonymSession)
      (fun collection _ => collection.endpoints.map (fun e => (e.path, e.response.body)) ==
        [(.str "/order", .str homonymBody)]) := by decide +kernel
  rw [hload] at hread
  obtain ⟨e, hendpoints, hparts⟩ := List.map_eq_singleton_iff.mp (eq_of_beq hread)
  obtain ⟨hpath, hbody⟩ : e.path = .str "/order" ∧ e.response.body = .str homonymBody := by
    simpa using hparts
  have hresponse : rolesOf "response" = .ok [.response] := by decide +kernel
  obtain rfl : roles = [.response] := Except.ok.inj (hroles.symm.trans hresponse)
  have hblank : Unicode.isBlankText homonymBody = false := by decide +kernel
  have hjson : Json.read homonymBody = .ok (.object homonyms) := by decide +kernel
  have hroot : Extraction.readBody e .response = .ok (.object _) :=
    Extraction.readBody_object hbody hblank hjson hpath
  obtain ⟨a, b, c, d, hchained, hchain, hlast⟩ := exists_chain_homonyms
    { endpointId := e.id, path := "/order", method := e.method, role := .response }
    (Naming.pathTypeName "/order")
  have hrun : (Extraction.run [e] [.response]).2.objects = [a, b, c, d] := by
    rw [← hchained]
    show (Extraction.readBodies [(e, .response)] {}).2.objects = _
    rw [Extraction.readBodies, hroot]
    rfl
  rw [hendpoints] at hobjects
  have hids := (Extraction.run_completed [e] [.response]).1
  exact ⟨hobjects ▸ hids, a, b, c, d, hobjects.trans hrun, hchain, hlast⟩

/-- The first and the last of three objects in a chain stand in their order on their own, but the
other way round among all objects. -/
theorem orders_of_chain {a b c d : ObjectDefinition} (hids : ([a, b, c, d].map (·.id)).Nodup)
    (hchain : [a, b, c, d].IsChain fun x y => x.dependencies = [y.id])
    (hlast : d.dependencies = []) :
    orderByDependency [b, d] = [b, d] ∧
      ((orderByDependency [a, b, c, d]).filter fun x => ([b, d].map (·.id)).contains x.id) =
        [d, b] := by
  have hall : orderByDependency [a, b, c, d] = [d, c, b, a] :=
    orderByDependency_of_explored hids (Explored.chain hchain hlast)
  obtain ⟨-, hchain⟩ := List.isChain_cons_cons.mp hchain
  obtain ⟨hnext, -⟩ := List.isChain_cons_cons.mp hchain
  simp only [List.map_cons, List.map_nil, List.nodup_cons, List.mem_cons, List.not_mem_nil,
    or_false, not_or] at hids
  obtain ⟨⟨hab, hac, had⟩, ⟨hbc, hbd⟩, hcd, -⟩ := hids
  constructor
  · apply orderByDependency_of_missing
    · simpa using hbd
    · simp [hnext, hlast, Ne.symm hbc, hcd]
  · rw [hall]
    simp [hab, had, hcd, Ne.symm hbc]

/-- The last of two objects of one name decides what is generated and what is archived. Where they
stand the other way round among all objects, the file does not hold the text of the entry. -/
theorem exists_archive_of_opposite_orders {objects : List ObjectDefinition} {b d : ObjectDefinition}
    {g : Generator} {outer inner : String × String} {output archivePath : String}
    {directory : Path} {s₁ s₂ : Session}
    (hdirectory : (openDirectory output).run.run s₁ = (.ok (some directory), s₂))
    (hfree : ∀ x ∈ [b, d], s₂.files.at? (directory.below (fileName g x)) ≠ some .directory)
    (hzip : ∀ bytes, ∃ files, s₁.files.writeBytes (Path.ofText archivePath) bytes = .ok files)
    (hisName : ∀ x ∈ [b, d], Files.IsName (fileName g x))
    (horder : orderByDependency [b, d] = [b, d])
    (hfiltered : ((orderByDependency objects).filter fun x =>
      ([b, d].map (·.id)).contains x.id) = [d, b])
    (houter : fileOf g b = .ok outer) (hinner : fileOf g d = .ok inner) (hsame : inner.1 = outer.1)
    (hne : inner.2.toUTF8.toList ≠ outer.2.toUTF8.toList) :
    ∃ archive s' s'',
      (saveObjects output false [b, d] g).run.run s₁ = (.ok (), s') ∧
      (archiveSelected archivePath objects [b, d] g).run.run s₁ = (.ok (), s'') ∧
      s''.written =
        s₁.written ++ [{ path := Path.ofText archivePath, content := .archive archive }] ∧
      ∃ e ∈ archive, s'.files.readBytes (directory.below e.name) ≠ .ok e.text.toUTF8.toList := by
  obtain ⟨houterName, -⟩ := fileOf_eq_ok houter
  obtain ⟨hinnerName, -⟩ := fileOf_eq_ok hinner
  -- the inner one is written last
  obtain ⟨place, hplace⟩ := exists_of_openDirectory_eq_ok hdirectory
  have hopen := open_of_free hplace hisName hfree
  have hsaved : (orderByDependency [b, d]).mapM (fileOf g) = .ok [outer, inner] := by
    rw [horder, List.mapM_cons, houter, List.mapM_cons, hinner]
    rfl
  have hfiles : ∀ f ∈ [outer, inner], f.1 ∈ [b, d].map (fileName g) := by
    simp [houterName, hinnerName]
  obtain ⟨s', hsave, htree, -⟩ := saveObjects_of_mapM hdirectory hsaved hopen hfiles
  have hwrote : s'.files.Open directory place ([b, d].map (fileName g)) :=
    htree ▸ hopen.putFiles hfiles
  have hnode : s'.files.node? (place ++ [outer.1]) = some (.file inner.2.toUTF8.toList) := by
    rw [htree, hopen.node?_putFiles hfiles]
    simp [hsame, Entries.get?]
  -- the outer one is archived
  have hrendered : ((orderByDependency objects).filter fun x =>
      ([b, d].map (·.id)).contains x.id).mapM (fileOf g) = .ok [inner, outer] := by
    rw [hfiltered, List.mapM_cons, hinner, List.mapM_cons, houter]
    rfl
  obtain ⟨hok, hkept⟩ := render_of_mapM hrendered
  have hlast : Entries.lastOfEach [inner, outer] = [outer] := by
    simp [Entries.lastOfEach, Entries.keys, hsame]
  let entry : ArchiveEntry := { name := outer.1, text := outer.2 }
  have harchive : archiveOf [outer] = .ok [entry] :=
    archiveOf_of_isName (by simpa [houterName] using hisName b)
  obtain ⟨files, hwrite⟩ := hzip (Zip.bytes [entry])
  obtain ⟨s'', harchived, -, hlisted⟩ := archiveSelected_of_render (Prod.ext hok rfl)
    (by rw [hkept, hlast, harchive]) hwrite
  refine ⟨[entry], s', s'', hsave, harchived, hlisted, entry, List.mem_singleton_self _, ?_⟩
  rw [hwrote.readBytes (by simp [houterName]) hnode]
  exact fun hbytes => hne (Except.ok.inj hbytes)

/-- A file need not hold the text of its entry. The two objects of one name are wanted, and the one
between them is not: the inner one is generated last, but archived first. -/
theorem exists_generated_ne_archived :
    ∃ objects selected g s₁ directory s₂ archive,
      (prepare Http.offline homonymInput { language := "typescript" } ["AResponse"]).run.run
        homonymSession = (.ok (objects, selected, g), s₁) ∧
      (openDirectory "out").run.run s₁ = (.ok (some directory), s₂) ∧
      (∀ d ∈ objects, '/' ∉ d.name.toList ∧ '\x00' ∉ d.name.toList) ∧
      let generated := (generateObjects Http.offline homonymInput { language := "typescript" }
        ["AResponse"] "out" false).run.run homonymSession
      let archived := (archiveObjects Http.offline homonymInput { language := "typescript" }
        ["AResponse"] "o.zip").run.run homonymSession
      generated.1 = .ok () ∧ archived.1 = .ok () ∧
        archived.2.written =
          s₁.written ++ [{ path := Path.ofText "o.zip", content := .archive archive }] ∧
        ∃ e ∈ archive, generated.2.files.readBytes (directory.below e.name) ≠
          .ok e.text.toUTF8.toList := by
  have hready : Steps.passes (prepareHomonyms ["AResponse"]) fun r s => isReady r s &&
      (r.1.all (fun d => d.id != "AResponse") && r.2.1.all (fun d => (fileOf r.2.2 d).isOk) &&
        (r.2.1.map fun d =>
          (fileOf r.2.2 d).toOption.map fun file => file.2.toUTF8.toList).Nodup) := by
    decide +kernel
  obtain ⟨objects, selected, g, s₁, s₂, hprepare, hdirectory, hobjects, hnames, hfree, -, hzip,
    hcheck⟩ := exists_of_isReady hready
  obtain ⟨hids, a, b, c, d, rfl, hchain, hlast⟩ := exists_chain_of_prepare hprepare
  simp only [List.map_cons, List.map_nil, List.cons.injEq, and_true] at hobjects
  obtain ⟨hnameA, hnameB, hnameC, hnameD⟩ := hobjects
  simp only [Bool.and_eq_true, List.all_eq_true, bne_iff_ne, decide_eq_true_eq] at hcheck
  obtain ⟨⟨hother, hcodes⟩, hdifferent⟩ := hcheck
  obtain rfl : selected = [b, d] := by
    rw [exists_of_select_eq_ok (exists_of_prepare_eq_ok hprepare).2]
    have hwanted : ∀ x ∈ [a, b, c, d], (["AResponse"].isEmpty || ["AResponse"].contains x.id ||
        ["AResponse"].contains x.name) = (x.name == "AResponse") := by
      intro x hx
      rw [Bool.eq_iff_iff]
      simp [hother x hx]
    rw [List.filter_congr hwanted]
    simp [hnameA, hnameB, hnameC, hnameD]
  have hisName : ∀ x ∈ [b, d], Files.IsName (fileName g x) := by
    intro x hx
    have hsub : [b, d] ⊆ [a, b, c, d] := by simp
    obtain ⟨hslash, hnull⟩ := hnames x (hsub hx)
    exact isName_fileName hslash hnull
  obtain ⟨outer, houter⟩ := Steps.exists_eq_ok (hcodes b List.mem_cons_self)
  obtain ⟨inner, hinner⟩ := Steps.exists_eq_ok (hcodes d (by simp))
  have hsame : inner.1 = outer.1 := by
    rw [(fileOf_eq_ok houter).1, (fileOf_eq_ok hinner).1, fileName, fileName, hnameB, hnameD]
  have hne : inner.2.toUTF8.toList ≠ outer.2.toUTF8.toList := by
    simp only [List.map_cons, List.map_nil, houter, hinner] at hdifferent
    simpa [Except.toOption, eq_comm] using hdifferent
  obtain ⟨horder, hfiltered⟩ := orders_of_chain hids hchain hlast
  obtain ⟨archive, s', s'', hsave, harchived, hlisted, e, he, hbytes⟩ :=
    exists_archive_of_opposite_orders hdirectory hfree hzip hisName horder hfiltered houter
      hinner hsame hne
  refine ⟨_, _, g, s₁, _, s₂, archive, hprepare, hdirectory, hnames, ?_⟩
  rw [generateObjects_eq, archiveObjects_eq, Steps.run_bind_of_ok hprepare,
    Steps.run_bind_of_ok hprepare]
  dsimp only
  rw [hsave, harchived]
  exact ⟨rfl, rfl, hlisted, e, he, hbytes⟩

end DtoForge.Console
