import DtoForge.Extraction
import DtoForge.Proofs.Naming.Casing
import DtoForge.Proofs.Unicode.Caseless

/-! # Kept characters — what a name takes over as it is

Casing looks at letters and at what separates words. Any other ASCII character stands in the Pascal
case and in the singular of a name exactly if it stands in the name. So the base of a nested object
takes such characters over from its property, and the type name of a path, which is cut out between
two slashes, has no slash. -/

namespace DtoForge.Naming

open Text Unicode

variable {c : Char} {cs : List Char}

/-- Whether a character has no case and separates no words. -/
def isKept (c : Char) : Bool :=
  isCaseless c && !isSeparator c && c != '_'

theorem isKept_slash : isKept '/' := by
  decide +kernel

theorem isCaseless_of_isKept (hc : isKept c) : isCaseless c := by
  simp only [isKept, Bool.and_eq_true] at hc
  exact hc.1.1

theorem not_isSeparator_of_isKept (hc : isKept c) : isSeparator c = false := by
  simp only [isKept, Bool.and_eq_true, Bool.not_eq_true'] at hc
  exact hc.1.2

theorem ne_underscore_of_isKept (hc : isKept c) : c ≠ '_' := by
  simp only [isKept, Bool.and_eq_true, bne_iff_ne] at hc
  exact hc.2

/-! ## Pascal case -/

theorem mem_breakWords_iff (hc : c ≠ '_') {before : Option Char} :
    c ∈ breakWords before cs ↔ c ∈ cs := by
  refine ⟨fun h => (mem_breakWords h).resolve_left hc, fun h => ?_⟩
  induction cs generalizing before with
  | nil => cases h
  | cons d ds ih =>
      -- before a character stands an underscore or nothing
      have hbreak : ∀ starts : Bool, d ∈ if starts then ['_', d] else [d] := by
        rintro (_ | _) <;> simp
      rcases List.mem_cons.mp h with rfl | h
      · exact List.mem_append_left _ (hbreak _)
      · exact List.mem_append_right _ (ih h)

theorem mem_snakeChars_iff (hc : isKept c) : c ∈ snakeChars cs ↔ c ∈ cs := by
  have hmark := ne_underscore_of_isKept hc
  have hunderscore : (c == '_') = false := beq_eq_false_iff_ne.mpr hmark
  rw [snakeChars, mem_strip_iff (p := fun d => d == '_') hunderscore,
    mem_squeeze_iff (p := fun d => d == '_') hunderscore hmark,
    mem_lower_iff (isCaseless_of_isKept hc), mem_breakWords_iff hmark,
    mem_squeeze_iff (not_isSeparator_of_isKept hc) hmark]

theorem mem_pascalChars_iff (hc : isKept c) : c ∈ pascalChars cs ↔ c ∈ cs := by
  have hwords : (∃ word ∈ wordsOf cs, c ∈ capitalize word) ↔
      ∃ piece ∈ splitPieces '_' (snakeChars cs), c ∈ piece := by
    simp only [mem_capitalize_iff (isCaseless_of_isKept hc), wordsOf, List.mem_filter]
    constructor
    · rintro ⟨word, ⟨hpiece, -⟩, hmem⟩
      exact ⟨word, hpiece, hmem⟩
    · rintro ⟨word, hpiece, hmem⟩
      have hne : word ≠ [] := List.ne_nil_of_mem hmem
      exact ⟨word, ⟨hpiece, by simpa using hne⟩, hmem⟩
  rw [pascalChars, List.mem_flatMap, hwords,
    exists_mem_splitPieces_iff (ne_underscore_of_isKept hc), mem_snakeChars_iff hc]

theorem mem_pascal_iff (hc : isKept c) (s : String) : c ∈ (pascal s).toList ↔ c ∈ s.toList := by
  rw [pascal, String.toList_ofList, mem_pascalChars_iff hc]

/-! ## Singular -/

/-- What a singular drops became the ending that told the plural. -/
theorem mem_dropEnd_iff (hc : isCaseless c) {tail : List Char} (htail : tail.all Char.isLower)
    (h : tail <:+ lower cs) {n : Nat} (hn : n ≤ tail.length) : c ∈ dropEnd n cs ↔ c ∈ cs := by
  obtain ⟨hle, hdrop⟩ := not_mem_drop_of_suffix (List.all_eq_true.mp htail) h hc
  refine ⟨List.mem_of_mem_take, fun hmem => ?_⟩
  rw [← List.take_append_drop (cs.length - tail.length) cs] at hmem
  have hkept := (List.mem_append.mp hmem).resolve_right hdrop
  exact List.take_subset_take_left cs (by omega) hkept

theorem mem_singular_iff (hc : isKept c) (s : String) :
    c ∈ (singular s).toList ↔ c ∈ s.toList := by
  have hcaseless := isCaseless_of_isKept hc
  have hy : ∀ capital : Bool, c ∉ [if capital then 'Y' else 'y'] := by
    rintro (_ | _) hmem
    all_goals
      rw [List.mem_singleton.mp hmem] at hcaseless
      exact absurd hcaseless (by decide)
  rw [singular]
  dsimp only
  split
  next hies =>
    have hends : "ies".toList <:+ lower s.toList :=
      List.isSuffixOf_iff_suffix.mp (Bool.and_eq_true_iff.mp hies).1
    rw [String.toList_ofList, List.mem_append, or_iff_left (hy _),
      mem_dropEnd_iff hcaseless (by decide) hends (by decide)]
  next =>
    split
    next hes =>
      obtain ⟨tail, htail, hends⟩ := List.any_eq_true.mp hes
      have hlisted : ∀ tail ∈ ["sses", "xes", "ches", "shes", "zzes"],
          tail.toList.all Char.isLower ∧ 2 ≤ tail.toList.length := by decide
      rw [String.toList_ofList, mem_dropEnd_iff hcaseless (hlisted tail htail).1
        (List.isSuffixOf_iff_suffix.mp hends) (hlisted tail htail).2]
    next =>
      split
      next hs =>
        have hends : "s".toList <:+ lower s.toList :=
          List.isSuffixOf_iff_suffix.mp (Bool.and_eq_true_iff.mp (Bool.and_eq_true_iff.mp hs).1).1
        rw [String.toList_ofList, mem_dropEnd_iff hcaseless (by decide) hends (by decide)]
      next => rfl

/-! ## Bases of names -/

theorem mem_nestedBase_iff (hc : isKept c) (hitem : c ∉ "Item".toList) (name : String)
    (plural : Bool) : c ∈ (Extraction.nestedBase name plural).toList ↔ c ∈ name.toList := by
  have hbase : c ∈ (orElse (pascal name) "Item").toList ↔ c ∈ name.toList := by
    rw [← mem_pascal_iff hc name, orElse]
    split
    next hempty =>
      rw [String.isEmpty_iff.mp hempty]
      exact iff_of_false hitem List.not_mem_nil
    next => rfl
  cases plural with
  | false => rwa [Extraction.nestedBase, if_neg (by decide)]
  | true => rwa [Extraction.nestedBase, if_pos rfl, mem_singular_iff hc]

/-- The last segment of a path stands between slashes. -/
theorem slash_not_mem_pathTypeName (path : String) : '/' ∉ (pathTypeName path).toList := by
  have hsegments : ∀ route : List Char, ∀ p : List Char → Bool,
      '/' ∉ ((((splitPieces '/' route).filter fun s => !s.isEmpty).reverse.dropWhile p).headD
        "root".toList) := by
    intro route p
    cases hfixed : ((splitPieces '/' route).filter fun s => !s.isEmpty).reverse.dropWhile p with
    | nil => decide
    | cons segment rest =>
        have hmem : segment ∈ ((splitPieces '/' route).filter fun s => !s.isEmpty).reverse :=
          (List.dropWhile_sublist p).subset (hfixed ▸ List.mem_cons_self)
        have hpiece := (List.mem_filter.mp (List.mem_reverse.mp hmem)).1
        exact fun hslash => (mem_splitPieces hpiece hslash).2 rfl
  rw [pathTypeName, orElse]
  split
  next => decide
  next =>
    rw [String.toList_ofList, mem_pascalChars_iff isKept_slash]
    exact hsegments _ _

end DtoForge.Naming
