import DtoForge.Naming.Sanitizer
import DtoForge.Proofs.Text.Pieces
import DtoForge.Proofs.Unicode.Ascii

/-! # Casing — what the names of a cleaned text look like

A cleaned text is made of word characters and hyphens and starts with a letter or a digit. Snake
case keeps that start and leaves small letters, digits and underscores, so there is a first word,
and every casing that rewrites gives a text of word characters that starts as the cleaned one
does — in Pascal case by no small letter. -/

namespace DtoForge.Naming

open Text Unicode

variable {c : Char} {cs : List Char}

/-! ## Cleaned texts -/

/-- Texts of word characters and hyphens that start with a letter or a digit. -/
structure Cleaned (cs : List Char) : Prop where
  chars : ∀ c ∈ cs, isWordChar c ∨ c = '-'
  start : ∃ c rest, cs = c :: rest ∧ c.isAlphanum

/-- Cleaning gives a cleaned text. -/
theorem clean_cleaned (name : String) : Cleaned (clean name).toList := by
  have hchars : ∀ c ∈ name.toList.map fun c => if isWordChar c || c == '-' then c else '_',
      isWordChar c ∨ c = '-' := by
    intro c hc
    obtain ⟨d, -, rfl⟩ := List.mem_map.mp hc
    split
    · next hd => simpa using hd
    · exact Or.inl (by decide)
  rw [clean, orElse]
  rcases strip_eq_nil_or_cons (fun c => c == '_' || c == '-')
    (name.toList.map fun c => if isWordChar c || c == '-' then c else '_') with hnil | hcons
  · -- nothing is left, and the default stands in
    rw [hnil]
    refine ⟨?_, 'f', ['i', 'e', 'l', 'd'], by decide, by decide⟩
    have hfield : "field".toList.all fun c => isWordChar c || c == '-' := by decide
    simpa using List.all_eq_true.mp hfield
  · obtain ⟨c, rest, hstrip, hc⟩ := hcons
    have hkept : ∀ d ∈ c :: rest, isWordChar d ∨ d = '-' := by
      intro d hd
      rw [← hstrip] at hd
      exact hchars d (mem_of_mem_strip hd)
    rw [hstrip, if_neg (by simp), String.toList_ofList]
    refine ⟨hkept, c, rest, rfl, ?_⟩
    -- at the start stands neither an underscore nor a hyphen
    have hstart := hkept c List.mem_cons_self
    simp only [Bool.or_eq_false_iff, beq_eq_false_iff_ne] at hc
    simpa [isWordChar, hc.1, hc.2] using hstart

/-! ## Snake case -/

theorem mem_breakWords {before : Option Char} (h : c ∈ breakWords before cs) :
    c = '_' ∨ c ∈ cs := by
  induction cs generalizing before with
  | nil => cases h
  | cons d ds ih =>
      -- before a character stands an underscore or nothing
      have hbreak : ∀ starts : Bool, (c ∈ if starts then ['_', d] else [d]) → c = '_' ∨ c = d := by
        rintro (_ | _) hc
        · exact Or.inr (List.mem_singleton.mp hc)
        · simpa using hc
      rw [List.mem_cons]
      rcases List.mem_append.mp h with h | h
      · exact (hbreak _ h).imp id Or.inl
      · exact (ih h).imp id Or.inr

theorem breakWords_none_cons (c : Char) (cs : List Char) :
    breakWords none (c :: cs) = c :: breakWords (some c) cs := by
  simp [breakWords]

/-- Where no capital is, no word starts within a piece. -/
theorem breakWords_of_not_isUpper (h : ∀ c ∈ cs, c.isUpper = false) (before : Option Char) :
    breakWords before cs = cs := by
  induction cs generalizing before with
  | nil => rfl
  | cons c cs ih =>
      rw [List.forall_mem_cons] at h
      simp only [breakWords, ih h.2, h.1, Bool.false_and, Bool.false_eq_true, if_false,
        List.singleton_append]

theorem not_isSeparator_of_isAlphanum (hc : c.isAlphanum) : isSeparator c = false := by
  have hhyphen : c ≠ '-' := by
    rintro rfl
    exact absurd hc (by decide)
  have hpoint : c ≠ '.' := by
    rintro rfl
    exact absurd hc (by decide)
  simp [isSeparator, hhyphen, hpoint, not_isBlank_of_isAlphanum hc]

theorem ne_underscore_of_isAlphanum (hc : c.isAlphanum) : c ≠ '_' := by
  rintro rfl
  exact absurd hc (by decide)

theorem ascii_of_isWordChar (hc : isWordChar c) : c.toNat < 128 := by
  simp only [isWordChar, Bool.or_eq_true, beq_iff_eq] at hc
  rcases hc with halnum | rfl
  · exact ascii_of_isAlphanum halnum
  · decide

namespace Cleaned

/-- The word characters of a cleaned text, cut into words. -/
theorem mem_broken (h : Cleaned cs)
    (hc : c ∈ breakWords none (squeeze isSeparator '_' cs)) : isWordChar c := by
  rcases mem_breakWords hc with rfl | hc
  · decide
  · rcases mem_squeeze hc with rfl | ⟨hc, hseparator⟩
    · decide
    · rcases h.chars c hc with hword | rfl
      · exact hword
      · exact absurd hseparator (by decide)

theorem lower_broken (h : Cleaned cs) :
    lower (breakWords none (squeeze isSeparator '_' cs)) =
      (breakWords none (squeeze isSeparator '_' cs)).map Char.toLower :=
  lower_of_ascii fun _ hc => ascii_of_isWordChar (h.mem_broken hc)

/-- Snake case leaves small letters, digits and underscores. -/
theorem mem_snakeChars (h : Cleaned cs) (hc : c ∈ snakeChars cs) : isSmall c ∨ c = '_' := by
  have hc := mem_of_mem_strip hc
  rcases mem_squeeze hc with rfl | ⟨hc, -⟩
  · exact Or.inr rfl
  · rw [h.lower_broken] at hc
    obtain ⟨d, hd, rfl⟩ := List.mem_map.mp hc
    have hword := h.mem_broken hd
    simp only [isWordChar, Bool.or_eq_true, beq_iff_eq] at hword
    rcases hword with halnum | rfl
    · exact Or.inl (isSmall_toLower halnum)
    · exact Or.inr (by decide)

/-- Snake case keeps the start. -/
theorem exists_snakeChars_eq_cons (h : Cleaned cs) :
    ∃ c rest, snakeChars cs = c :: rest ∧ isSmall c := by
  have hlower := h.lower_broken
  obtain ⟨c, rest, rfl, hc⟩ := h.start
  have hsmall := isSmall_toLower hc
  have hmark : (fun d => d == '_') c.toLower = false :=
    beq_eq_false_iff_ne.mpr (ne_underscore_of_isAlphanum (isAlphanum_of_isSmall hsmall))
  rw [squeeze_cons_of_neg (not_isSeparator_of_isAlphanum hc), breakWords_none_cons] at hlower
  rw [snakeChars, squeeze_cons_of_neg (not_isSeparator_of_isAlphanum hc), breakWords_none_cons,
    hlower, List.map_cons, squeeze_cons_of_neg (p := fun d => d == '_') hmark,
    strip_cons_of_neg (p := fun d => d == '_') hmark]
  exact ⟨c.toLower, _, rfl, hsmall⟩

/-! ## Words -/

theorem mem_wordsOf (h : Cleaned cs) {word : List Char} (hword : word ∈ wordsOf cs)
    (hc : c ∈ word) : isSmall c := by
  obtain ⟨hpiece, -⟩ := List.mem_filter.mp hword
  obtain ⟨hmem, hmark⟩ := mem_splitPieces hpiece hc
  exact (h.mem_snakeChars hmem).resolve_right hmark

/-- A cleaned text has a first word. -/
theorem exists_wordsOf_eq_cons (h : Cleaned cs) :
    ∃ c word words, wordsOf cs = (c :: word) :: words := by
  obtain ⟨c, rest, hsnake, hc⟩ := h.exists_snakeChars_eq_cons
  have hmark := ne_underscore_of_isAlphanum (isAlphanum_of_isSmall hc)
  obtain ⟨word, words, hpieces⟩ := splitPieces_cons_of_ne hmark rest
  exact ⟨c, word, words.filter fun w => !w.isEmpty, by rw [wordsOf, hsnake, hpieces]; rfl⟩

theorem mem_capitalize (h : Cleaned cs) {words : List (List Char)} (hwords : words ⊆ wordsOf cs)
    (hc : c ∈ words.flatMap capitalize) : c.isAlphanum := by
  obtain ⟨word, hword, hc⟩ := List.mem_flatMap.mp hc
  have hsmall : ∀ d ∈ word, isSmall d := fun d hd => h.mem_wordsOf (hwords hword) hd
  cases word with
  | nil => cases hc
  | cons d ds =>
      rw [capitalize_cons_of_isSmall hsmall] at hc
      rw [List.forall_mem_cons] at hsmall
      rcases List.mem_cons.mp hc with rfl | hc
      · exact (isAlphanum_toUpper hsmall.1).1
      · exact isAlphanum_of_isSmall (hsmall.2 c hc)

end Cleaned

/-! ## Casings -/

/-- **The names of a cleaned text.** In every casing that rewrites, they are made of word characters
and start with a letter or a digit, which in Pascal case is no small letter. -/
theorem Cleaned.apply {name : String} (h : Cleaned name.toList) {casing : Casing}
    (hcasing : casing ≠ .original) :
    ∃ c rest, (casing.apply name).toList = c :: rest ∧ c.isAlphanum ∧
      (casing = .pascal → c.isLower = false) ∧ ∀ d ∈ rest, isWordChar d := by
  have hword : ∀ {d : Char}, d.isAlphanum → isWordChar d := by
    intro d hd
    simp [isWordChar, hd]
  obtain ⟨c, word, words, hwords⟩ := h.exists_wordsOf_eq_cons
  have hsmall : ∀ d ∈ c :: word, isSmall d := fun d hd =>
    h.mem_wordsOf (hwords ▸ List.mem_cons_self) hd
  have hstart := hsmall c List.mem_cons_self
  have hrest : ∀ d ∈ word, isWordChar d := fun d hd =>
    hword (isAlphanum_of_isSmall (hsmall d (List.mem_cons_of_mem c hd)))
  have hothers : ∀ d ∈ words.flatMap capitalize, isWordChar d := fun d hd =>
    hword (h.mem_capitalize (hwords ▸ List.subset_cons_self _ _) hd)
  cases casing with
  | snake =>
      obtain ⟨d, rest, hsnake, hd⟩ := h.exists_snakeChars_eq_cons
      refine ⟨d, rest, ?_, isAlphanum_of_isSmall hd, by simp, ?_⟩
      · rw [Casing.apply, snake, String.toList_ofList, hsnake]
      · intro e he
        rcases h.mem_snakeChars (hsnake ▸ List.mem_cons_of_mem d he) with hsmall | rfl
        · exact hword (isAlphanum_of_isSmall hsmall)
        · decide
  | camel =>
      refine ⟨c, word ++ words.flatMap capitalize, ?_, isAlphanum_of_isSmall hstart, by simp, ?_⟩
      · rw [Casing.apply, camel, String.toList_ofList, camelChars, hwords]
        rfl
      · intro d hd
        exact (List.mem_append.mp hd).elim (hrest d) (hothers d)
  | pascal =>
      obtain ⟨halnum, hlower⟩ := isAlphanum_toUpper hstart
      refine ⟨c.toUpper, word ++ words.flatMap capitalize, ?_, halnum, fun _ => hlower, ?_⟩
      · rw [Casing.apply, pascal, String.toList_ofList, pascalChars, hwords, List.flatMap_cons,
          capitalize_cons_of_isSmall hsmall]
        rfl
      · intro d hd
        exact (List.mem_append.mp hd).elim (hrest d) (hothers d)
  | original => exact absurd rfl hcasing

end DtoForge.Naming
