import DtoForge.Proofs.Naming.Casing
import DtoForge.Proofs.Unicode.Caseless
import DtoForge.Proofs.Unicode.Lower

/-! # Snake case — a normal form of names

Snake case goes in steps: separators become underscores, underscores are put before the capitals
that start a word, everything is changed to lower case, and runs of underscores are squeezed and
stripped. No step undoes what an earlier one reached, because the change to lower case writes neither
separators nor capitals. So a name in snake case has small characters and single underscores between
them (`InSnakeCase`). On such a name no step has anything to do, and the names that snake case leaves
alone are those that it gives (`snakeChars_eq_self_iff`). -/

namespace DtoForge.Naming

open Text Unicode

variable {c : Char} {cs : List Char}

/-- Texts in lower case whose words are joined by single underscores and by nothing else. -/
structure InSnakeCase (cs : List Char) : Prop where
  settled : ∀ c ∈ cs, isSettled c
  joined : ∀ c ∈ cs, isSeparator c = false
  start : ¬ ['_'] <+: cs
  ending : ¬ ['_'] <:+ cs
  single : ¬ ['_', '_'] <:+: cs

/-! ## What snake case gives -/

/-- No separator is written by a change to lower case. -/
theorem mem_of_mem_lower_of_isSeparator (hc : c ∈ lower cs) (hseparator : isSeparator c) :
    c ∈ cs := by
  simp only [isSeparator, Bool.or_eq_true, beq_iff_eq] at hseparator
  obtain (rfl | rfl) | hblank := hseparator
  · exact (mem_lower_iff (by decide)).mp hc
  · exact (mem_lower_iff (by decide)).mp hc
  · exact mem_of_mem_lowerAfter_of_isBlank hc hblank

/-- Separators are gone before capitals are looked at, and they do not come back. -/
theorem not_isSeparator_of_mem_lower
    (hc : c ∈ lower (breakWords none (squeeze isSeparator '_' cs))) : isSeparator c = false := by
  have hmark : isSeparator '_' = false := by decide +kernel
  rw [Bool.eq_false_iff]
  intro hseparator
  have hbroken := mem_of_mem_lower_of_isSeparator hc hseparator
  apply Bool.eq_false_iff.mp ?_ hseparator
  rcases mem_breakWords hbroken with rfl | hsqueezed
  · exact hmark
  · rcases mem_squeeze hsqueezed with rfl | ⟨-, hother⟩
    · exact hmark
    · exact hother

theorem inSnakeCase_snakeChars (cs : List Char) : InSnakeCase (snakeChars cs) := by
  have hlower : ∀ c ∈ snakeChars cs,
      c = '_' ∨ c ∈ lower (breakWords none (squeeze isSeparator '_' cs)) := by
    intro c hc
    exact (mem_squeeze (mem_of_mem_strip hc)).imp_right And.left
  constructor
  case settled =>
    intro c hc
    rcases hlower c hc with rfl | hmem
    · decide +kernel
    · exact isSettled_of_mem_lowerAfter hmem
  case joined =>
    intro c hc
    rcases hlower c hc with rfl | hmem
    · decide +kernel
    · exact not_isSeparator_of_mem_lower hmem
  case start => exact not_prefix_strip (p := (· == '_')) rfl _
  case ending => exact not_suffix_strip (p := (· == '_')) rfl _
  case single =>
    intro hdouble
    apply not_marks_infix_squeeze (p := (· == '_')) (beq_self_eq_true '_')
    exact hdouble.trans (strip_isInfix _ _)

/-! ## What snake case leaves alone -/

/-- Every step leaves a text in snake case alone. -/
theorem InSnakeCase.snakeChars_eq_self (h : InSnakeCase cs) : snakeChars cs = cs := by
  have hseparators : squeeze isSeparator '_' cs = cs := squeeze_eq_self h.joined '_'
  have hwords : breakWords none cs = cs :=
    breakWords_of_not_isUpper (fun c hc => not_isUpper_of_isSettled (h.settled c hc)) none
  have hlower : lower cs = cs := lowerAfter_of_isSettled h.settled []
  have hruns : squeeze (· == '_') '_' cs = cs := squeezeFrom_mark_eq_self nofun h.single
  have hends : strip (· == '_') cs = cs := by
    apply strip_eq_self
    · intro c hc
      rw [beq_iff_eq.mp hc]
      exact h.start
    · intro c hc
      rw [beq_iff_eq.mp hc]
      exact h.ending
  rw [snakeChars, hseparators, hwords, hlower, hruns, hends]

theorem snakeChars_eq_self_iff : snakeChars cs = cs ↔ InSnakeCase cs := by
  constructor
  · intro h
    rw [← h]
    exact inSnakeCase_snakeChars cs
  · exact InSnakeCase.snakeChars_eq_self

@[simp] theorem snakeChars_snakeChars (cs : List Char) :
    snakeChars (snakeChars cs) = snakeChars cs :=
  (inSnakeCase_snakeChars cs).snakeChars_eq_self

/-- Snake case keeps the words of a text. -/
theorem wordsOf_snakeChars (cs : List Char) : wordsOf (snakeChars cs) = wordsOf cs := by
  rw [wordsOf, snakeChars_snakeChars, ← wordsOf]

/-! ## Main result -/

/-- **Snake case is a normal form.** A name in snake case has no capital of ASCII, no hyphen, no
point and no white space, its underscores stand one by one between other characters, and it is in
snake case already. The names that are left alone are those in lower case whose words are joined so
already. -/
theorem snake_normal_form (s : String) :
    (∀ c ∈ (snake s).toList, c.isUpper = false ∧ c ≠ '-' ∧ c ≠ '.' ∧ isBlank c = false) ∧
      (¬ ['_'] <+: (snake s).toList ∧ ¬ ['_'] <:+ (snake s).toList ∧
        ¬ ['_', '_'] <:+: (snake s).toList) ∧
      snake (snake s) = snake s ∧ (snake s = s ↔ InSnakeCase s.toList) := by
  have hform : InSnakeCase (snake s).toList := by
    rw [snake, String.toList_ofList]
    exact inSnakeCase_snakeChars s.toList
  refine ⟨?chars, ⟨hform.start, hform.ending, hform.single⟩, ?again, ?alone⟩
  case chars =>
    intro c hc
    have hjoined := hform.joined c hc
    simp only [isSeparator, Bool.or_eq_false_iff, beq_eq_false_iff_ne] at hjoined
    exact ⟨not_isUpper_of_isSettled (hform.settled c hc), hjoined.1.1, hjoined.1.2, hjoined.2⟩
  case again => simp only [snake, String.toList_ofList, snakeChars_snakeChars]
  case alone =>
    rw [← snakeChars_eq_self_iff, snake, ← String.toList_inj, String.toList_ofList]

/-- Capitals, a hyphen, a blank, a point and two underscores give single underscores and small
characters. -/
theorem snake_normal_form_url :
    let s := "HTTPServer-URL .v2__Id"
    snake s = "http_server_url_v2_id" ∧ '2' ∈ (snake s).toList ∧
      ('2'.isUpper = false ∧ '2' ≠ '-' ∧ '2' ≠ '.' ∧ isBlank '2' = false) ∧
      ¬ ['_', '_'] <:+: (snake s).toList ∧ snake (snake s) = snake s := by
  intro s
  have hsnake : snake s = "http_server_url_v2_id" := by decide +kernel
  have hmem : '2' ∈ (snake s).toList := by
    rw [hsnake]
    decide
  obtain ⟨hchars, ⟨-, -, hsingle⟩, hagain, -⟩ := snake_normal_form s
  exact ⟨hsnake, hmem, hchars '2' hmem, hsingle, hagain⟩

end DtoForge.Naming
