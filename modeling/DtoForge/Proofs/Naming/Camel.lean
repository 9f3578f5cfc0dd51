import DtoForge.Proofs.Naming.Identifier
import DtoForge.Proofs.Naming.Kept
import DtoForge.Proofs.Naming.Snake
import DtoForge.Proofs.Text.Lines

/-! # Camel — from a name to its words and back

The words of a text of word characters are the pieces between underscores, once an underscore stands
before each capital that starts a word. So underscores around a name leave its words alone, and so
does snake case, but camel case may run words together: of `a_b_c` it makes `aBC`, whose words are
`a` and `bc`. Names that are in camel case already keep their words in every form that a request gives
them (`pascal_word`), and Pascal case tells them apart (`IsCamel.pascal_inj`). -/

namespace DtoForge.Naming

open Text Unicode

variable {c : Char} {cs : List Char}

/-! ## Words -/

/-- The words of a text are the pieces of its parts in lower case. The underscores that snake case
squeezes and strips stand between pieces. -/
theorem wordsOf_eq (cs : List Char) :
    wordsOf cs = (splitPieces '_' (lower (breakWords none (squeeze isSeparator '_' cs)))).filter
      (!·.isEmpty) := by
  rw [wordsOf, snakeChars, filter_splitPieces_strip, filter_splitPieces_squeeze]

theorem isSeparator_of_isWordChar (hc : isWordChar c) : isSeparator c = false := by
  simp only [isWordChar, Bool.or_eq_true, beq_iff_eq] at hc
  rcases hc with halnum | rfl
  · exact not_isSeparator_of_isAlphanum halnum
  · decide +kernel

/-- A text of word characters has no other separators, and its case changes character by
character. -/
theorem wordsOf_of_wordChars (h : ∀ c ∈ cs, isWordChar c) :
    wordsOf cs = (splitPieces '_' ((breakWords none cs).map Char.toLower)).filter (!·.isEmpty) := by
  have hsqueeze : squeeze isSeparator '_' cs = cs :=
    squeeze_eq_self (fun c hc => isSeparator_of_isWordChar (h c hc)) '_'
  have hlower : lower (breakWords none cs) = (breakWords none cs).map Char.toLower := by
    apply lower_of_ascii
    intro c hc
    rcases mem_breakWords hc with rfl | hc
    · decide
    · exact ascii_of_isWordChar (h c hc)
  rw [wordsOf_eq, hsqueeze, hlower]

/-- The words of a text of word characters are made of small letters and digits. -/
theorem isSmall_of_mem_wordsOf (h : ∀ c ∈ cs, isWordChar c) {word : List Char}
    (hword : word ∈ wordsOf cs) (hc : c ∈ word) : isSmall c := by
  rw [wordsOf_of_wordChars h] at hword
  obtain ⟨hmem, hmark⟩ := mem_splitPieces (List.mem_filter.mp hword).1 hc
  obtain ⟨d, hd, rfl⟩ := List.mem_map.mp hmem
  have hdmark : d ≠ '_' := by
    rintro rfl
    exact hmark (by decide)
  have hdword := h d ((mem_breakWords hd).resolve_left hdmark)
  exact isSmall_toLower (by simpa [isWordChar, hdmark] using hdword)

/-- A text of word characters with a letter or a digit has a word. -/
theorem pascal_ne_empty {s : String} (h : ∀ c ∈ s.toList, isWordChar c)
    (hc : c ∈ s.toList) (halnum : c.isAlphanum) : pascal s ≠ "" := by
  have hmark : c.toLower ≠ '_' :=
    ne_underscore_of_isAlphanum (isAlphanum_of_isSmall (isSmall_toLower halnum))
  have hlower : c.toLower ∈ (breakWords none s.toList).map Char.toLower :=
    List.mem_map_of_mem ((mem_breakWords_iff (ne_underscore_of_isAlphanum halnum)).mpr hc)
  obtain ⟨piece, hpiece, hmem⟩ := (exists_mem_splitPieces_iff hmark).mpr hlower
  have hne : piece ≠ [] := List.ne_nil_of_mem hmem
  have hword : piece ∈ wordsOf s.toList := by
    rw [wordsOf_of_wordChars h]
    exact List.mem_filter.mpr ⟨hpiece, by simpa using hne⟩
  obtain ⟨d, ds, rfl⟩ := List.exists_cons_of_ne_nil hne
  intro hempty
  rw [pascal, String.ofList_eq_empty_iff, pascalChars, List.flatMap_eq_nil_iff] at hempty
  have hcapital := hempty _ hword
  rw [capitalize_cons_of_isSmall fun e he => isSmall_of_mem_wordsOf h hword he] at hcapital
  cases hcapital

/-! ## Underscores around a name -/

theorem breakWords_some_underscore (cs : List Char) :
    breakWords (some '_') cs = breakWords none cs := by
  cases cs with
  | nil => rfl
  | cons c cs => simp [breakWords]

theorem breakWords_concat_underscore (before : Option Char) (cs : List Char) :
    breakWords before (cs ++ ['_']) = breakWords before cs ++ ['_'] := by
  induction cs generalizing before with
  | nil => simp [breakWords]
  | cons c cs ih =>
      -- an underscore, like nothing, is no small letter behind a capital
      cases cs with
      | nil => simp [breakWords]
      | cons d ds =>
          show _ ++ breakWords (some c) (d :: ds ++ ['_']) = _
          rw [ih (some c), ← List.append_assoc]
          rfl

/-- Underscores around a text of word characters leave its words alone. -/
theorem wordsOf_around {front behind : List Char} (h : ∀ c ∈ cs, isWordChar c)
    (hmarks : ∀ c ∈ front ++ behind, c = '_') : wordsOf (front ++ cs ++ behind) = wordsOf cs := by
  have hword : ∀ {ds : List Char}, (∀ c ∈ ds, c = '_') → ∀ c ∈ ds, isWordChar c := by
    intro ds hds c hc
    rw [hds c hc]
    decide
  rw [List.forall_mem_append] at hmarks
  obtain ⟨hfront, hbehind⟩ := hmarks
  induction front with
  | cons c front ih =>
      rw [List.forall_mem_cons] at hfront
      obtain ⟨rfl, hfront⟩ := hfront
      have hrest : ∀ c ∈ front ++ cs ++ behind, isWordChar c := by
        simp only [List.forall_mem_append]
        exact ⟨⟨hword hfront, h⟩, hword hbehind⟩
      rw [← ih hfront, wordsOf_of_wordChars hrest, List.cons_append, List.cons_append,
        wordsOf_of_wordChars (List.forall_mem_cons.mpr ⟨by decide, hrest⟩), breakWords_none_cons,
        breakWords_some_underscore, List.map_cons]
      exact List.filter_cons_of_neg (by decide)
  | nil =>
      rw [List.nil_append]
      induction behind using List.reverseRecOn with
      | nil => rw [List.append_nil]
      | append_singleton behind c ih =>
          rw [List.forall_mem_append] at hbehind
          obtain ⟨hbehind, hc⟩ := hbehind
          obtain rfl := hc c List.mem_cons_self
          have hrest : ∀ c ∈ cs ++ behind, isWordChar c :=
            List.forall_mem_append.mpr ⟨h, hword hbehind⟩
          rw [← ih hbehind, wordsOf_of_wordChars hrest, ← List.append_assoc,
            wordsOf_of_wordChars (List.forall_mem_append.mpr ⟨hrest, hword hc⟩),
            breakWords_concat_underscore, List.map_append]
          have hsplit := splitPieces_append_cons '_'
            ((breakWords none (cs ++ behind)).map Char.toLower) []
          have hlower : ['_'].map Char.toLower = ['_'] := by decide
          rw [hlower, hsplit, List.filter_append]
          exact List.append_nil _

/-! ## Casings -/

namespace Cleaned

/-- The Pascal case of a cleaned text is its camel case with a capital at the start. -/
theorem exists_camelChars_eq_cons (h : Cleaned cs) :
    ∃ c rest, isSmall c ∧ camelChars cs = c :: rest ∧ pascalChars cs = c.toUpper :: rest := by
  obtain ⟨c, word, words, hwords⟩ := h.exists_wordsOf_eq_cons
  have hsmall : ∀ d ∈ c :: word, isSmall d := fun d hd =>
    h.mem_wordsOf (hwords ▸ List.mem_cons_self) hd
  refine ⟨c, word ++ words.flatMap capitalize, hsmall c List.mem_cons_self, ?_, ?_⟩
  · rw [camelChars, hwords]
    rfl
  · rw [pascalChars, hwords, List.flatMap_cons, capitalize_cons_of_isSmall hsmall]
    rfl

end Cleaned

/-! ## Names in camel case -/

/-- Names that cleaning and camel case leave as they are. -/
def IsCamel (s : String) : Prop :=
  clean s = s ∧ camel s = s

instance (s : String) : Decidable (IsCamel s) :=
  inferInstanceAs (Decidable (_ ∧ _))

theorem IsCamel.cleaned {s : String} (h : IsCamel s) : Cleaned s.toList :=
  h.1 ▸ clean_cleaned s

/-- Pascal case tells names in camel case apart. -/
theorem IsCamel.pascal_inj {s s' : String} (h : IsCamel s) (h' : IsCamel s')
    (heq : pascal s = pascal s') : s = s' := by
  obtain ⟨c, rest, hc, hcamel, hpascal⟩ := h.cleaned.exists_camelChars_eq_cons
  obtain ⟨d, rest', hd, hcamel', hpascal'⟩ := h'.cleaned.exists_camelChars_eq_cons
  rw [pascal, pascal, hpascal, hpascal'] at heq
  obtain ⟨hfirst, rfl⟩ := List.cons.inj (String.ofList_injective heq)
  have hsame : c = d := by
    rw [← toLower_toUpper_of_isSmall hc, hfirst, toLower_toUpper_of_isSmall hd]
  calc s = String.ofList (camelChars s.toList) := h.2.symm
    _ = String.ofList (camelChars s'.toList) := by rw [hcamel, hcamel', hsame]
    _ = s' := h'.2

/-- What shows a half of a surrogate pair is not in camel case. -/
theorem IsCamel.eq_whole {s : RawText} (h : IsCamel s.legible) : s = s.legible := by
  cases s with
  | whole s => rfl
  | torn ps =>
      obtain ⟨p, hp, hhalf⟩ := List.any_eq_true.mp ps.property
      have hshown : p.shownChar ∈ (RawText.torn ps).legible.toList := by
        rw [RawText.toList_legible]
        exact List.mem_map_of_mem hp
      cases p with
      | char c => cases hhalf
      | half half =>
          have hnone : ¬ (isWordChar '\ufffd' ∨ '\ufffd' = '-') := by decide
          exact absurd (h.cleaned.chars _ hshown) hnone

section

variable {names : List RawText} (h : ∀ s ∈ names, IsCamel s.legible)

include h

theorem mem_map_pascal_iff {s : String} (hs : IsCamel s) :
    pascal s ∈ names.map (fun name => pascal name.legible) ↔ .whole s ∈ names := by
  refine ⟨fun hmem => ?_, fun hmem => List.mem_map.mpr ⟨s, hmem, rfl⟩⟩
  obtain ⟨s', hs', heq⟩ := List.mem_map.mp hmem
  rw [← (h s' hs').pascal_inj hs heq, ← (h s' hs').eq_whole]
  exact hs'

theorem nodup_map_pascal (hnames : names.Nodup) :
    (names.map fun name => pascal name.legible).Nodup :=
  hnames.map_on fun s hs s' hs' heq => by
    rw [(h s hs).eq_whole, (h s' hs').eq_whole, (h s hs).pascal_inj (h s' hs') heq]

end

/-- The word that is asked for a name in camel case has the Pascal case of the name, whether the
name stays in camel case or is written in snake case. -/
theorem IsCamel.pascal_word {s : RawText} (h : IsCamel s.legible) (v : Vocabulary) {casing : Casing}
    (hcasing : casing = .camel ∨ casing = .snake) :
    pascal (Request.word v ⟨s, casing, "_"⟩) = pascal s.legible := by
  have hrewrites : casing ≠ .original := by
    rcases hcasing with rfl | rfl <;> decide
  have hwords : wordsOf (casing.apply s.legible).toList = wordsOf s.legible.toList := by
    rcases hcasing with rfl | rfl
    · rw [Casing.apply, h.2]
    · rw [Casing.apply, snake, String.toList_ofList, wordsOf_snakeChars]
  have hchars : ∀ c ∈ (casing.apply s.legible).toList, isWordChar c := by
    obtain ⟨c, rest, hs, halnum, -, hrest⟩ := h.cleaned.apply hrewrites
    rw [hs, List.forall_mem_cons]
    exact ⟨by simp [isWordChar, halnum], hrest⟩
  obtain ⟨front, behind, hword, hmarks⟩ := exists_around_word v hrewrites s
  rw [h.1] at hword
  rw [pascal, pascal, pascalChars, pascalChars, hword, wordsOf_around hchars hmarks, hwords]

end DtoForge.Naming
