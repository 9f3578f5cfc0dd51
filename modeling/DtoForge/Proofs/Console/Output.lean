import DtoForge.Console.Run
import DtoForge.Proofs.Extraction.Linking
import DtoForge.Proofs.Packaging.Selection

/-! # Output — what the commands write

Generating objects writes one file after the other below a directory, archiving them writes one
archive. -/

namespace DtoForge.Console

open Files (Path Tree)
open Packaging

/-! ## What both commands begin with -/

/-- The extracted objects, the wanted ones among them, and the generator for the arguments. -/
def prepare (reply : Http.Reply) (input : InputArguments) (a : GenerationArguments)
    (wanted : List String) :
    Running (List ObjectDefinition × List ObjectDefinition × Generator) := do
  let collection ← loadInput reply input
  let (objects, refused) ← extractObjects collection input.roles
  sayRefused refused
  let selected ← ExceptT.mk (pure (select objects wanted))
  let g ← generatorFor a
  return (objects, selected, g)

/-- Generates selected objects below a directory. -/
def saveObjects (output : String) (verbose : Bool) (selected : List ObjectDefinition)
    (g : Generator) : Running Unit := do
  let directory ← openDirectory output
  note (cycleRecords selected)
  let warnings ← generateEach g directory verbose [] (orderByDependency selected)
  unless warnings.isEmpty do
    say "\n[yellow]⚠️  Warnings:[/yellow]"
    warnings.forM fun w => say ("  [yellow]•[/yellow] " ++ w)

/-- Archives selected objects. -/
def archiveSelected (output : String) (objects selected : List ObjectDefinition) (g : Generator) :
    Running Unit := do
  let (outcome, rendering) := render g objects (selected.map (·.id))
  note rendering.records
  orFail .generation outcome
  let archive ← orFail .archive (archiveOf rendering.files)
  let path := Path.ofText output
  write path (.archive archive) (.unwritable path.text) fun t =>
    t.writeBytes path (Zip.bytes archive)
  say ("[green]✓[/green] " ++ toString selected.length ++ " objects archived to [cyan]" ++
    path.text ++ "[/cyan]")

section Commands

variable {reply : Http.Reply} {input : InputArguments} {a : GenerationArguments}
  {wanted : List String} {output : String} {verbose : Bool}

theorem generateObjects_eq :
    generateObjects reply input a wanted output verbose =
      prepare reply input a wanted >>= fun (_, selected, g) =>
        saveObjects output verbose selected g := by
  simp [generateObjects, prepare, saveObjects]

theorem archiveObjects_eq :
    archiveObjects reply input a wanted output =
      prepare reply input a wanted >>= fun (objects, selected, g) =>
        archiveSelected output objects selected g := by
  simp [archiveObjects, prepare, archiveSelected]

theorem exists_of_select_eq_ok {objects selected : List ObjectDefinition}
    (h : select objects wanted = .ok selected) :
    selected = objects.filter fun d =>
      wanted.isEmpty || wanted.contains d.id || wanted.contains d.name := by
  rw [select] at h
  split at h
  next hnone =>
    cases h
    simp [hnone]
  next hsome =>
    split at h
    next => cases h
    next =>
      cases h
      simp [hsome]

theorem exists_of_extractObjects_eq_ok {collection : Collection} {roles : String}
    {objects : List ObjectDefinition} {refused : List Extraction.BadBody} {s s' : Session}
    (h : (extractObjects collection roles).run.run s = (.ok (objects, refused), s')) :
    ∃ wanted, rolesOf roles = .ok wanted ∧
      objects = (Extraction.run collection.endpoints wanted).2.objects := by
  obtain ⟨wanted, s₁, hroles, h⟩ := Steps.exists_of_run_bind_eq_ok h
  obtain ⟨_, s₂, -, h⟩ := Steps.exists_of_run_bind_eq_ok h
  obtain ⟨_, s₃, -, h⟩ := Steps.exists_of_run_bind_eq_ok h
  cases h
  exact ⟨wanted, Steps.eq_ok_of_mapError (congrArg Prod.fst hroles), rfl⟩

/-- Both commands work on the objects of the collection that is loaded, and on those that are
wanted. -/
theorem exists_of_prepare_eq_ok {objects selected : List ObjectDefinition} {g : Generator}
    {s s' : Session}
    (h : (prepare reply input a wanted).run.run s = (.ok (objects, selected, g), s')) :
    (∃ collection roles s₁, (loadInput reply input).run.run s = (.ok collection, s₁) ∧
      rolesOf input.roles = .ok roles ∧
      objects = (Extraction.run collection.endpoints roles).2.objects) ∧
      select objects wanted = .ok selected := by
  obtain ⟨collection, s₁, hload, h⟩ := Steps.exists_of_run_bind_eq_ok h
  obtain ⟨⟨objects', refused⟩, s₂, hextract, h⟩ := Steps.exists_of_run_bind_eq_ok h
  obtain ⟨_, s₃, -, h⟩ := Steps.exists_of_run_bind_eq_ok h
  obtain ⟨selected', s₄, hselect, h⟩ := Steps.exists_of_run_bind_eq_ok h
  obtain ⟨g', s₅, -, h⟩ := Steps.exists_of_run_bind_eq_ok h
  cases h
  obtain ⟨roles, hroles, hobjects⟩ := exists_of_extractObjects_eq_ok hextract
  exact ⟨⟨collection, roles, s₁, hload, hroles, hobjects⟩, congrArg Prod.fst hselect⟩

end Commands

/-! ## Single steps -/

theorem run_note (records : List LogRecord) (s : Session) :
    (note records).run.run s = (.ok (), { s with records := s.records ++ records }) := rfl

theorem run_say (line : String) (s : Session) :
    (say line).run.run s = (.ok (), { s with printed := s.printed ++ [.text line] }) := rfl

theorem run_print (item : Item) (s : Session) :
    (print item).run.run s = (.ok (), { s with printed := s.printed ++ [item] }) := rfl

theorem run_orFail_of_ok {ε α : Type} {failure : ε → CommandError} {x : Except ε α} {v : α}
    (h : x = .ok v) (s : Session) : (orFail failure x).run.run s = (.ok v, s) := by
  rw [h]
  rfl

theorem run_orFail_of_error {ε α : Type} {failure : ε → CommandError} {x : Except ε α} {e : ε}
    (h : x = .error e) (s : Session) :
    (orFail failure x).run.run s = (.error (failure e), s) := by
  rw [h]
  rfl

theorem run_write_of_ok {path : Path} {content : Content} {failure : Files.Fault → CommandError}
    {change : Tree → Except Files.Fault Tree} {s : Session} {files : Tree}
    (h : change s.files = .ok files) :
    (write path content failure change).run.run s =
      (.ok (), { s with files, written := s.written ++ [{ path, content }] }) := by
  have hget : (get : Running Session).run.run s = (.ok s, s) := rfl
  rw [write, Steps.run_bind_of_ok hget, Steps.run_bind_of_ok (run_orFail_of_ok h s)]
  rfl

/-- Files and what was written are the same in two states. -/
structure Session.Unwritten (s s' : Session) : Prop where
  files : s'.files = s.files
  written : s'.written = s.written

theorem run_forM_say {α : Type} (line : α → String) (items : List α) (s : Session) :
    ∃ s', (items.forM fun item => say (line item)).run.run s = (.ok (), s') ∧ s.Unwritten s' := by
  induction items generalizing s with
  | nil => exact ⟨s, rfl, rfl, rfl⟩
  | cons item items ih =>
      obtain ⟨s', hrun, hsame⟩ := ih { s with printed := s.printed ++ [.text (line item)] }
      exact ⟨s', hrun, hsame.files, hsame.written⟩

section Generate

variable {g : Generator} {d : ObjectDefinition}

theorem previewObject_of_generate {code : String}
    (h : g.generate d.schema (.str d.name) = .ok code) (s : Session) :
    ∃ preview s', (previewObject g d).run.run s = (.ok preview, s') ∧ preview.code = code ∧
      s.Unwritten s' := by
  obtain ⟨preview, hpreview, hcode⟩ : ∃ preview,
      g.preview d.schema (.str d.name) = .ok preview ∧ preview.code = code := by
    rw [Generator.preview, h]
    exact ⟨_, rfl, rfl⟩
  refine ⟨preview, { s with records := s.records ++ g.previewRecords d.schema (.str d.name) }, ?_,
    hcode, rfl, rfl⟩
  rw [previewObject, Steps.run_bind_of_ok (run_note _ s), run_orFail_of_ok hpreview]

theorem previewObject_of_error {e : GenerationError}
    (h : g.generate d.schema (.str d.name) = .error e) (hfatal : e.isExpected = false)
    (s : Session) :
    ∃ s', (previewObject g d).run.run s = (.error (.generation e), s') ∧ s.Unwritten s' := by
  have hpreview : g.preview d.schema (.str d.name) = .error e := by
    rw [Generator.preview, h]
    rfl
  refine ⟨{ s with records := s.records ++ g.previewRecords d.schema (.str d.name) }, ?_, rfl, rfl⟩
  rw [previewObject, Steps.run_bind_of_ok (run_note _ s), run_orFail_of_error hpreview]
  simp [hfatal]

variable {directory : Path} {place names : List String}

theorem saveObject_of_open {s : Session} (h : s.files.Open directory place names)
    (hname : fileName g d ∈ names) (code : String) :
    ∃ s', (saveObject directory g d code).run.run s = (.ok (), s') ∧
      s'.files = s.files.put (place ++ [fileName g d]) (.file code.toUTF8.toList) ∧
      s'.written =
        s.written ++ [{ path := directory.below (fileName g d), content := .text code }] := by
  let path := directory.below (fileName g d)
  have hwrite := @run_write_of_ok path (.text code) .output (fun t => t.writeText path code) s _
    (h.writeText hname code)
  rw [saveObject, Steps.run_bind_of_ok hwrite, run_say]
  exact ⟨_, rfl, rfl, rfl⟩

theorem generateEach_cons (directory : Path) (verbose : Bool) (warnings : List String)
    (ds : List ObjectDefinition) :
    generateEach g (some directory) verbose warnings (d :: ds) =
      previewObject g d >>= fun preview =>
        saveObject directory g d preview.code >>= fun _ =>
          (if verbose then print (metadataTable preview.metadata) else pure ()) >>= fun _ =>
            generateEach g (some directory) verbose
              (preview.warnings.foldl (fun ws w => if ws.contains w then ws else ws ++ [w])
                warnings) ds := by
  cases verbose <;> simp [generateEach]

/-- Generating objects in order writes their files in this order, and nothing else. -/
theorem generateEach_of_mapM {ds : List ObjectDefinition} {pairs : List (String × String)}
    (h : ds.mapM (fileOf g) = .ok pairs) {s : Session} (hopen : s.files.Open directory place names)
    (hnames : ∀ f ∈ pairs, f.1 ∈ names) (verbose : Bool) (warnings : List String) :
    ∃ warnings' s', (generateEach g (some directory) verbose warnings ds).run.run s =
        (.ok warnings', s') ∧
      s'.files = s.files.putFiles place pairs ∧
      s'.written = s.written ++
        pairs.map fun f => { path := directory.below f.1, content := .text f.2 } := by
  induction ds generalizing s pairs warnings with
  | nil =>
      cases h
      exact ⟨warnings, s, rfl, rfl, by simp⟩
  | cons d ds ih =>
      rw [List.mapM_cons] at h
      obtain ⟨file, hfile, h⟩ := Steps.exists_of_bind_eq_ok h
      obtain ⟨files, hfiles, h⟩ := Steps.exists_of_bind_eq_ok h
      cases h
      obtain ⟨hname, hcode⟩ := fileOf_eq_ok hfile
      obtain ⟨hhere, hnames⟩ := List.forall_mem_cons.mp hnames
      obtain ⟨preview, s₁, hpreview, hshown, hsame⟩ := previewObject_of_generate hcode s
      have hopen₁ : s₁.files.Open directory place names := hsame.files ▸ hopen
      obtain ⟨s₂, hsave, hfiles₂, hwritten₂⟩ :=
        saveObject_of_open hopen₁ (hname ▸ hhere) preview.code
      rw [hsame.files, hshown, ← hname] at hfiles₂
      rw [hsame.written, hshown, ← hname] at hwritten₂
      obtain ⟨s₃, hverbose, hsame₃⟩ : ∃ s₃,
          (if verbose then print (metadataTable preview.metadata) else pure ()).run.run s₂ =
            (.ok (), s₃) ∧ s₂.Unwritten s₃ := by
        split
        · exact ⟨_, run_print _ s₂, rfl, rfl⟩
        · exact ⟨s₂, rfl, rfl, rfl⟩
      have hopen₃ : s₃.files.Open directory place names := by
        rw [hsame₃.files, hfiles₂]
        exact hopen.put hhere _
      obtain ⟨warnings', s', hrun, hfinal, hlast⟩ := ih hfiles hopen₃ hnames
        (preview.warnings.foldl (fun ws w => if ws.contains w then ws else ws ++ [w]) warnings)
      refine ⟨warnings', s', ?_, ?_, ?_⟩
      · rw [generateEach_cons, Steps.run_bind_of_ok hpreview, Steps.run_bind_of_ok hsave,
          Steps.run_bind_of_ok hverbose, hrun]
      · rw [hfinal, hsame₃.files, hfiles₂]
        rfl
      · rw [hlast, hsame₃.written, hwritten₂, List.append_assoc]
        rfl

theorem exists_of_openDirectory_eq_ok {output : String} {s s' : Session}
    (h : (openDirectory output).run.run s = (.ok (some directory), s')) :
    ∃ place, s'.files.IsDirectory directory place := by
  rw [openDirectory] at h
  split at h
  next => cases h
  next =>
    obtain ⟨_, s₁, hwrite, h⟩ := Steps.exists_of_run_bind_eq_ok h
    cases h
    obtain ⟨_, s₂, hget, hwrite⟩ := Steps.exists_of_run_bind_eq_ok hwrite
    cases hget
    obtain ⟨files, s₃, hchange, hwrite⟩ := Steps.exists_of_run_bind_eq_ok hwrite
    cases hwrite
    exact Tree.isDirectory_of_makeDirectories
      (Steps.eq_ok_of_mapError (congrArg Prod.fst hchange))

/-- The files of selected objects are written below the directory of the output. -/
theorem saveObjects_of_mapM {output : String} {verbose : Bool} {selected : List ObjectDefinition}
    {pairs : List (String × String)} {s s₁ : Session}
    (hdirectory : (openDirectory output).run.run s = (.ok (some directory), s₁))
    (h : (orderByDependency selected).mapM (fileOf g) = .ok pairs)
    (hopen : s₁.files.Open directory place names) (hnames : ∀ f ∈ pairs, f.1 ∈ names) :
    ∃ s', (saveObjects output verbose selected g).run.run s = (.ok (), s') ∧
      s'.files = s₁.files.putFiles place pairs ∧
      s'.written = s₁.written ++
        pairs.map fun f => { path := directory.below f.1, content := .text f.2 } := by
  obtain ⟨warnings, s₂, hrun, hfiles, hwritten⟩ := generateEach_of_mapM h
    (s := { s₁ with records := s₁.records ++ cycleRecords selected }) hopen hnames verbose []
  obtain ⟨s', hsay, hsame⟩ : ∃ s', ((do
      unless warnings.isEmpty do
        say "\n[yellow]⚠️  Warnings:[/yellow]"
        warnings.forM fun w => say ("  [yellow]•[/yellow] " ++ w)) : Running Unit).run.run s₂ =
      (.ok (), s') ∧ s₂.Unwritten s' := by
    by_cases hnone : warnings.isEmpty
    · rw [if_pos hnone]
      exact ⟨s₂, rfl, rfl, rfl⟩
    · rw [if_neg hnone, Steps.run_bind_of_ok (run_say _ s₂)]
      obtain ⟨s', hrun, hsame⟩ := run_forM_say (fun w => "  [yellow]•[/yellow] " ++ w) warnings
        { s₂ with printed := s₂.printed ++ [.text "\n[yellow]⚠️  Warnings:[/yellow]"] }
      exact ⟨s', hrun, hsame.files, hsame.written⟩
  refine ⟨s', ?_, hsame.files.trans hfiles, hsame.written.trans hwritten⟩
  rw [saveObjects, Steps.run_bind_of_ok hdirectory, Steps.run_bind_of_ok (run_note _ s₁),
    Steps.run_bind_of_ok hrun, hsay]

/-- The archive of selected objects is written as a whole. -/
theorem archiveSelected_of_render {output : String} {objects selected : List ObjectDefinition}
    {rendering : Rendering} {archive : Archive} {files : Tree} {s : Session}
    (hrender : render g objects (selected.map (·.id)) = (.ok (), rendering))
    (harchive : archiveOf rendering.files = .ok archive)
    (hwrite : s.files.writeBytes (Path.ofText output) (Zip.bytes archive) = .ok files) :
    ∃ s', (archiveSelected output objects selected g).run.run s = (.ok (), s') ∧
      s'.files = files ∧
      s'.written = s.written ++ [{ path := Path.ofText output, content := .archive archive }] := by
  rw [archiveSelected, hrender]
  dsimp only
  rw [Steps.run_bind_of_ok (run_note _ s), Steps.run_bind_of_ok (run_orFail_of_ok rfl _),
    Steps.run_bind_of_ok (run_orFail_of_ok harchive _),
    Steps.run_bind_of_ok (run_write_of_ok hwrite), run_say]
  exact ⟨_, rfl, rfl, rfl⟩

/-! ### Failures -/

/-- A package clause that is no text ends the generation of every object. -/
theorem generate_of_clause {v : Json} (h : g.packageClause? = some v) (hv : ∀ text, v ≠ .str text)
    (d : ObjectDefinition) : g.generate d.schema (.str d.name) = .error (.packageKind v.kind) :=
  Generator.generate_of_packageClause h hv d.isObject

theorem saveObjects_of_error {output : String} {verbose : Bool} {selected : List ObjectDefinition}
    {e : GenerationError} {s s₁ : Session}
    (hdirectory : (openDirectory output).run.run s = (.ok (some directory), s₁))
    (h : ∀ d : ObjectDefinition, g.generate d.schema (.str d.name) = .error e)
    (hfatal : e.isExpected = false)
    (hselected : orderByDependency selected ≠ []) :
    ∃ s', (saveObjects output verbose selected g).run.run s = (.error (.generation e), s') ∧
      s₁.Unwritten s' := by
  obtain ⟨d, ds, hds⟩ := List.exists_cons_of_ne_nil hselected
  obtain ⟨s', hpreview, hsame⟩ := previewObject_of_error (h d) hfatal
    { s₁ with records := s₁.records ++ cycleRecords selected }
  refine ⟨s', ?_, hsame.files, hsame.written⟩
  have hgenerate : (generateEach g (some directory) verbose [] (orderByDependency selected)).run.run
      { s₁ with records := s₁.records ++ cycleRecords selected } =
        (.error (.generation e), s') := by
    rw [hds, generateEach_cons, Steps.run_bind_of_error hpreview]
  rw [saveObjects, Steps.run_bind_of_ok hdirectory, Steps.run_bind_of_ok (run_note _ s₁),
    Steps.run_bind_of_error hgenerate]

theorem render_of_error {objects : List ObjectDefinition} {selected : List String}
    {e : GenerationError} (h : ∀ d : ObjectDefinition, g.generate d.schema (.str d.name) = .error e)
    (hselected : ((orderByDependency objects).filter fun d => selected.contains d.id) ≠ []) :
    (render g objects selected).1 = .error e := by
  obtain ⟨d, ds, hds⟩ := List.exists_cons_of_ne_nil hselected
  have houtcome : (render g objects selected).1 = _ := forM_renderOne_fst _ _
  rw [houtcome, hds, List.mapM_cons, fileOf_eq_error_iff.mpr (h d)]
  rfl

theorem archiveSelected_of_error {output : String} {objects selected : List ObjectDefinition}
    {e : GenerationError} (h : (render g objects (selected.map (·.id))).1 = .error e)
    (s : Session) :
    ∃ s', (archiveSelected output objects selected g).run.run s = (.error (.generation e), s') ∧
      s.Unwritten s' := by
  refine ⟨{ s with
    records := s.records ++ (render g objects (selected.map (·.id))).2.records }, ?_, rfl, rfl⟩
  rw [archiveSelected]
  dsimp only
  rw [Steps.run_bind_of_ok (run_note _ s), Steps.run_bind_of_error (run_orFail_of_error h _)]

end Generate

end DtoForge.Console
