import DtoForge.Files.Path
import DtoForge.Proofs.Text.Pieces

/-! # Paths — one name below a directory

A path is read as the pieces between its slashes, so no name in it holds one. A text with a slash is
no name, and what it leads to below a directory stands elsewhere than at the directory's names and
the text. -/

namespace DtoForge.Files.Path

variable {s name : String}

theorem slash_not_mem_of_mem_names (h : name ∈ (ofText s).names) : '/' ∉ name.toList := by
  obtain ⟨hname, -⟩ := List.mem_filter.mp h
  obtain ⟨piece, hpiece, rfl⟩ := List.mem_map.mp hname
  rw [String.toList_ofList]
  exact fun hslash => (Text.mem_splitPieces hpiece hslash).2 rfl

theorem ofText_of_slash_not_mem (h : '/' ∉ name.toList) (hempty : name ≠ "") (hpoint : name ≠ ".") :
    ofText name = { names := [name] } := by
  have hfront : name.toList.takeWhile (· == '/') = [] := by
    cases hcs : name.toList with
    | nil => rfl
    | cons c cs =>
        have hc : c ≠ '/' := fun hc => h (by rw [hcs, hc]; exact List.mem_cons_self)
        exact List.takeWhile_cons_of_neg (by simpa using hc)
  rw [ofText, hfront, Text.split, Text.splitPieces_of_not_mem h]
  simp [rootOf, hempty, hpoint]

/-- A name leads to one place right below the directory. -/
theorem below_of_slash_not_mem (directory : Path) (h : '/' ∉ name.toList) (hempty : name ≠ "")
    (hpoint : name ≠ ".") :
    directory.below name = { directory with names := directory.names ++ [name] } := by
  rw [below, ofText_of_slash_not_mem h hempty hpoint]
  rfl

theorem below_eq_iff (directory : Path) (hempty : name ≠ "") (hpoint : name ≠ ".") :
    directory.below name = { directory with names := directory.names ++ [name] } ↔
      '/' ∉ name.toList := by
  refine ⟨fun h => ?_, fun h => below_of_slash_not_mem directory h hempty hpoint⟩
  have hnames := congrArg Path.names h
  rw [below] at hnames
  dsimp only at hnames
  apply slash_not_mem_of_mem_names (s := name)
  split at hnames
  · rw [hnames]
    exact List.mem_append_right _ List.mem_cons_self
  · rw [List.append_cancel_left hnames]
    exact List.mem_cons_self

end DtoForge.Files.Path
