import DtoForge.Packaging.Archive
import DtoForge.Packaging.Render
import DtoForge.Proofs.Extraction.Origins
import DtoForge.Proofs.Files.Tree
import DtoForge.Proofs.Naming.Kept

/-! # File names — which objects have a file of their own name

The file of an object is named after the object, and an object after a path or a property. A path
leaves no slash in a name, but a property passes one on, and then its object has no place right
below the directory that files are written to. -/

namespace DtoForge.Packaging

variable {g : Generator} {d : ObjectDefinition}

/-! ## Names and slashes -/

theorem slash_mem_objectName_iff {base : String} {role : Role} :
    '/' ∈ (Extraction.objectName base role).toList ↔ '/' ∈ base.toList := by
  have hsuffix : '/' ∉ role.suffix.toList := by cases role <;> decide
  rw [Extraction.objectName, String.toList_append, List.mem_append, or_iff_left hsuffix]

theorem slash_mem_fileName_iff : '/' ∈ (fileName g d).toList ↔ '/' ∈ d.name.toList := by
  have hextension : '/' ∉ g.target.extension.toList := by cases g.target <;> decide
  rw [fileName, String.toList_append, List.mem_append, or_iff_left hextension]

/-- The ending alone makes a file name longer than the names of the directories that are always
there. -/
theorem fileName_ne (g : Generator) (d : ObjectDefinition) :
    fileName g d ≠ "" ∧ fileName g d ≠ "." ∧ fileName g d ≠ ".." := by
  have hlength : 2 < (fileName g d).length := by
    have hextension : 2 < g.target.extension.length := by cases g.target <;> decide
    rw [fileName, String.length_append]
    omega
  have hne : ∀ text : String, text.length ≤ 2 → fileName g d ≠ text := by
    rintro text hshort rfl
    omega
  exact ⟨hne "" (by decide), hne "." (by decide), hne ".." (by decide)⟩

/-- The file of an object whose name has no slash and no null character has a name of its own. -/
theorem isName_fileName (hslash : '/' ∉ d.name.toList) (hnull : '\x00' ∉ d.name.toList) :
    Files.IsName (fileName g d) where
  ne_empty := (fileName_ne g d).1
  ne_point := (fileName_ne g d).2.1
  ne_points := (fileName_ne g d).2.2
  no_slash := slash_mem_fileName_iff.not.mpr hslash
  no_null := by
    have hextension : '\x00' ∉ g.target.extension.toList := by cases g.target <;> decide
    rw [fileName, String.toList_append, List.mem_append]
    exact not_or.mpr ⟨hnull, hextension⟩

theorem slash_not_mem_entryName {name : String} (h : '/' ∉ name.toList) :
    '/' ∉ (entryName name).toList := by
  rw [entryName, String.toList_ofList]
  exact fun hslash => h ((List.takeWhile_sublist _).subset hslash)

/-! ## Objects of a run -/

/-- **The name of an object has a slash exactly if it is named after a property whose name has
one.** Exactly the other objects have files right below the directory they are written to, and
entries of an archive without a slash. -/
theorem slash_mem_name_iff (endpoints : List Endpoint) (roles : List Role) (g : Generator) :
    ∀ d ∈ (Extraction.run endpoints roles).2.objects,
      (∃ root ∈ Extraction.rootsOf (Extraction.wantedBodies endpoints roles),
        d.source = root.source ∧
        ((d.name = Extraction.objectName (Naming.pathTypeName root.source.path) d.role ∧
            '/' ∉ d.name.toList) ∨
          ∃ p, root.Holds p ∧
            (∃ plural,
              d.name = Extraction.objectName (Extraction.nestedBase p.1.legible plural) d.role) ∧
            ('/' ∈ d.name.toList ↔ '/' ∈ p.1.legible.toList))) ∧
      (∀ directory : Files.Path,
        directory.below (fileName g d) =
            { directory with names := directory.names ++ [fileName g d] } ↔
          '/' ∉ d.name.toList) ∧
      fileName g d ≠ ".." ∧
      ('/' ∉ d.name.toList → '/' ∉ (entryName (fileName g d)).toList) := by
  intro d hd
  obtain ⟨hempty, hpoint, hpoints⟩ := fileName_ne g d
  refine ⟨?_, ?_, hpoints, ?_⟩
  · obtain ⟨root, hroot, hsource, hname⟩ := Extraction.run_origin hd
    refine ⟨root, hroot, hsource, ?_⟩
    rcases hname with hname | ⟨p, hp, plural, hname⟩
    · refine .inl ⟨hname, ?_⟩
      rw [hname, slash_mem_objectName_iff]
      exact Naming.slash_not_mem_pathTypeName root.source.path
    · refine .inr ⟨p, hp, ⟨plural, hname⟩, ?_⟩
      rw [hname, slash_mem_objectName_iff]
      exact Naming.mem_nestedBase_iff Naming.isKept_slash (by decide) p.1.legible plural
  · intro directory
    rw [directory.below_eq_iff hempty hpoint, slash_mem_fileName_iff]
  · intro hslash
    exact slash_not_mem_entryName (slash_mem_fileName_iff.not.mpr hslash)

/-- An endpoint that answers with a property whose name has a slash. -/
def slashEndpoint : Endpoint where
  id := "inline"
  path := .str "/order"
  response := { body := .str "\x7b\"a/b\": \x7b\"x\": 1\x7d\x7d" }

theorem names_slashEndpoint :
    (Extraction.run [slashEndpoint] [.response]).2.objects.map (·.name) =
      ["OrderResponse", "A/bResponse"] := by
  decide +kernel

theorem exists_mem_slashEndpoint :
    ∃ d ∈ (Extraction.run [slashEndpoint] [.response]).2.objects, d.name = "A/bResponse" := by
  apply List.mem_map.mp
  rw [names_slashEndpoint]
  decide

/-- The object of such a property, written as Go code. -/
theorem slash_mem_name_iff_slashEndpoint :
    ∃ d ∈ (Extraction.run [slashEndpoint] [.response]).2.objects, d.name = "A/bResponse" ∧
      ∀ directory : Files.Path,
        directory.below "A/bResponse.go" ≠
          { directory with names := directory.names ++ ["A/bResponse.go"] } := by
  obtain ⟨d, hd, hname⟩ := exists_mem_slashEndpoint
  refine ⟨d, hd, hname, ?_⟩
  intro directory hbelow
  obtain ⟨-, hplace, -⟩ :=
    slash_mem_name_iff [slashEndpoint] [.response] { target := .go, options := {} } d hd
  have hfile : fileName { target := .go, options := {} } d = "A/bResponse.go" := by
    rw [fileName, hname]
    rfl
  rw [hfile] at hplace
  exact (hplace directory).mp hbelow (by rw [hname]; decide)

/-- Not every name is free of slashes. -/
theorem exists_slash_mem_name :
    ∃ endpoints roles, ∃ d ∈ (Extraction.run endpoints roles).2.objects, '/' ∈ d.name.toList := by
  obtain ⟨d, hd, hname⟩ := exists_mem_slashEndpoint
  exact ⟨[slashEndpoint], [.response], d, hd, by rw [hname]; decide⟩

end DtoForge.Packaging
