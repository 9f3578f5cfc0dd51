import DtoForge.Packaging.Render
import DtoForge.Proofs.Extraction.Completion
import DtoForge.Proofs.Generator.References
import DtoForge.Proofs.Json.Entries

/-! # Imports — the files of an example are closed under what they import

What an extracted object imports is the name of an extracted object, and every extracted object has
a file of its name. Objects of one name share a file, of which the last is kept, but they also share
the type that is declared in it. -/

namespace DtoForge

open Packaging (orderByDependency)

namespace Extraction

/-- The objects of a document have different identifiers. -/
theorem ofValue_ids_nodup (value : Json) (base : String) (role : Role) :
    ((ofValue value base role).map (·.id)).Nodup := by
  unfold ofValue
  split
  · next properties required ref _ =>
      obtain ⟨done, hdone, hplaces⟩ := extractAll_empty
        [{ source := ⟨"inline", "/" ++ base, "GET", role⟩
           base := Naming.orElse (Naming.pascal base) "Root", properties, required }]
      exact hdone.ids_nodup hplaces
  · exact List.nodup_nil

end Extraction

namespace Packaging

/-! ## Files -/

/-- The file of one object: its name and its code. -/
def fileOf (g : Generator) (d : ObjectDefinition) : Except GenerationError (String × String) := do
  return (fileName g d, ← g.generate d.schema (.str d.name))

theorem exampleFiles_eq (g : Generator) (value : Json) (base : String) :
    exampleFiles g value base =
      ((orderByDependency (Extraction.ofValue value base)).mapM (fileOf g) >>= fun files =>
        .ok (Entries.ofPairs files)) := rfl

theorem fileOf_eq_ok {g : Generator} {d : ObjectDefinition} {file : String × String}
    (h : fileOf g d = .ok file) :
    file.1 = fileName g d ∧ g.generate d.schema (.str d.name) = .ok file.2 := by
  obtain ⟨code, hcode, hfile⟩ := Steps.exists_of_bind_eq_ok h
  cases hfile
  exact ⟨rfl, hcode⟩

theorem fileName_inj {g : Generator} {d d' : ObjectDefinition} :
    fileName g d = fileName g d' ↔ d.name = d'.name :=
  String.append_left_inj _

section Example

variable {g : Generator} {value : Json} {base : String}

/-- Every extracted object has a file, and what it holds was generated for an object of the same
name. -/
theorem exists_file {files : Entries String String} (hfiles : exampleFiles g value base = .ok files)
    {d : ObjectDefinition} (hd : d ∈ Extraction.ofValue value base) :
    ∃ n ∈ Extraction.ofValue value base, n.name = d.name ∧
      ∃ code, g.generate n.schema (.str n.name) = .ok code ∧
        files.get? (fileName g d) = some code := by
  have hids := Extraction.ofValue_ids_nodup value base .response
  rw [exampleFiles_eq] at hfiles
  obtain ⟨pairs, hpairs, hfiles⟩ := Steps.exists_of_bind_eq_ok hfiles
  cases hfiles
  obtain ⟨hitems, hresults⟩ := Steps.mem_of_mapM_eq_ok hpairs
  obtain ⟨pair, hpair, hof⟩ := hitems d ((mem_orderByDependency hids).mpr hd)
  -- the last pair of that file is kept, whichever object it comes from
  obtain ⟨code, hcode⟩ := Entries.exists_get?_of_mem (List.mem_reverse.mpr hpair)
  rw [(fileOf_eq_ok hof).1] at hcode
  obtain ⟨n, hn, hlast⟩ := hresults _ (List.mem_reverse.mp (Entries.mem_of_get? hcode))
  obtain ⟨hname, hgenerated⟩ := fileOf_eq_ok hlast
  exact ⟨n, (mem_orderByDependency hids).mp hn, fileName_inj.mp hname.symm, code, hgenerated,
    by rw [Entries.get?_ofPairs, hcode]⟩

/-- Every object has code unless the package clause is no text. -/
theorem exists_code (g : Generator) (value : Json) (base : String)
    (hclause : ∀ v, g.packageClause? = some v → ∃ text, v = .str text) :
    ∀ d ∈ Extraction.ofValue value base, ∃ code, g.generate d.schema (.str d.name) = .ok code :=
  fun d hd => g.exists_generate_of_linked d hclause
    (Extraction.ofValue_linked value base .response d hd)

theorem exists_mapM_fileOf
    (hcode : ∀ d ∈ Extraction.ofValue value base,
      ∃ code, g.generate d.schema (.str d.name) = .ok code) :
    ∃ pairs, (orderByDependency (Extraction.ofValue value base)).mapM (fileOf g) = .ok pairs := by
  have hids := Extraction.ofValue_ids_nodup value base .response
  apply Steps.exists_mapM_eq_ok
  intro d hd
  obtain ⟨code, hcode⟩ := hcode d ((mem_orderByDependency hids).mp hd)
  exact ⟨_, by rw [fileOf, hcode]; rfl⟩

theorem exampleFiles_of_mapM {pairs : List (String × String)}
    (h : (orderByDependency (Extraction.ofValue value base)).mapM (fileOf g) = .ok pairs) :
    exampleFiles g value base = .ok (Entries.ofPairs pairs) := by
  rw [exampleFiles_eq, h]
  rfl

/-- An example has files unless the package clause is no text. -/
theorem exists_exampleFiles (g : Generator) (value : Json) (base : String)
    (hclause : ∀ v, g.packageClause? = some v → ∃ text, v = .str text) :
    ∃ files, exampleFiles g value base = .ok files := by
  obtain ⟨pairs, hpairs⟩ := exists_mapM_fileOf (exists_code g value base hclause)
  exact ⟨_, exampleFiles_of_mapM hpairs⟩

/-- **The files of an example are closed under imports.** What an extracted object refers to can be
read off its schema. Each reference has a file, whose code was generated for an extracted object and
declares the type that is imported; so would the code of any other object of that file. -/
theorem exampleFiles_closed (g : Generator) (value : Json) (base : String)
    {files : Entries String String}
    (hfiles : exampleFiles g value base = .ok files) :
    let objects := Extraction.ofValue value base
    ∀ d ∈ objects, ∃ refs, g.writer.references (.str d.name) d.schema = .ok refs ∧
      ∀ r ∈ refs,
        (∃ n ∈ objects, fileName g n = r.1.legible ++ g.target.extension ∧
          ∃ code, g.generate n.schema (.str n.name) = .ok code ∧
            files.get? (r.1.legible ++ g.target.extension) = some code ∧
            ∃ source : TypeSource, source.className = r.2 ∧ r.1 = source.stem ∧
              code = g.writer.format (Source.text (g.codeOf source))) ∧
        ∀ n ∈ objects, fileName g n = r.1.legible ++ g.target.extension →
          g.writer.typeName n.name = r.2 := by
  intro objects d hd
  obtain ⟨refs, hrefs, hnames⟩ := g.writer.references_of_linked (.str d.name) d.isObject
    (Extraction.ofValue_linked value base .response d hd)
  refine ⟨refs, hrefs, ?_⟩
  intro r hr
  obtain ⟨name, hname, rfl⟩ := hnames r hr
  obtain ⟨m, hm, rfl⟩ := List.mem_map.mp hname
  constructor
  · obtain ⟨n, hn, hsame, code, hcode, hfile⟩ := exists_file hfiles hm
    obtain ⟨source, hclass, hstem, hsource⟩ := Generator.exists_source_of_generate hcode
    rw [hsame] at hclass hstem
    exact ⟨n, hn, fileName_inj.mpr hsame, code, hcode, hfile, source, hclass,
      congrArg RawText.whole hstem.symm, hsource⟩
  · intro n _ hfile
    rw [fileName_inj.mp hfile]

/-- A property and the items of another one that take the same name. -/
theorem exampleFiles_closed_items :
    let g : Generator := { target := .go, options := {} }
    let value : Json := .object
      [("item", .object [("x", .null)]), ("items", .list [.object [("y", .null)]])]
    ∃ files, exampleFiles g value "order" = .ok files ∧
      ∀ d ∈ Extraction.ofValue value "order", ∃ refs,
        g.writer.references (.str d.name) d.schema = .ok refs ∧
          ∀ r ∈ refs, (∃ code, files.get? (r.1.legible ++ ".go") = some code) ∧
            ∀ n ∈ Extraction.ofValue value "order", fileName g n = r.1.legible ++ ".go" →
              g.writer.typeName n.name = r.2 := by
  intro g value
  have hclause : ∀ v, g.packageClause? = some v → ∃ text, v = .str text := by
    intro v hv
    exact ⟨_, (Option.some.inj hv).symm⟩
  obtain ⟨files, hfiles⟩ := exists_exampleFiles g value "order" hclause
  refine ⟨files, hfiles, ?_⟩
  intro d hd
  obtain ⟨refs, hrefs, hclosed⟩ := exampleFiles_closed g value "order" hfiles d hd
  refine ⟨refs, hrefs, ?_⟩
  intro r hr
  obtain ⟨⟨n, -, -, code, -, hcode, -⟩, hdeclared⟩ := hclosed r hr
  exact ⟨⟨code, hcode⟩, hdeclared⟩

end Example

end Packaging

end DtoForge
