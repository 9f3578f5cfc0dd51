import DtoForge.Proofs.Naming.Casing
import DtoForge.Proofs.Naming.Sanitizer

/-! # Identifiers — names a language accepts

A vocabulary admits the identifiers it does not take itself. Identifiers of types are admitted when no
word of the language ends in an underscore, since a word that is taken gets one at its end. The
identifiers of requests get numbers as well, so no word of the language may look like a numbered
name (`Vocabulary.Clear`). -/

namespace DtoForge.Naming

/-! ## Identifiers -/

/-- Texts of word characters that start with a letter or an underscore. -/
def isIdentifier (s : String) : Bool :=
  match s.toList with
  | [] => false
  | c :: cs => (c.isAlpha || c == '_') && cs.all isWordChar

theorem isIdentifier_iff {s : String} :
    isIdentifier s ↔
      ∃ c cs, s.toList = c :: cs ∧ (c.isAlpha ∨ c = '_') ∧ ∀ d ∈ cs, isWordChar d := by
  rw [isIdentifier]
  cases s.toList with
  | nil => simp
  | cons c cs => simp

theorem isIdentifier_append {s tail : String} (hs : isIdentifier s)
    (htail : tail.toList.all isWordChar) : isIdentifier (s ++ tail) := by
  obtain ⟨c, cs, hchars, hstart, hrest⟩ := isIdentifier_iff.mp hs
  refine isIdentifier_iff.mpr ⟨c, cs ++ tail.toList, ?_, hstart, ?_⟩
  · rw [String.toList_append, hchars]
    rfl
  · intro d hd
    exact (List.mem_append.mp hd).elim (hrest d) (List.all_eq_true.mp htail d)

theorem isIdentifier_append_toString {s : String} (hs : isIdentifier s) (n : Nat) :
    isIdentifier (s ++ toString n) := by
  apply isIdentifier_append hs
  rw [List.all_eq_true]
  intro d hd
  simp [isWordChar, Char.isAlphanum, Text.isDigit_of_mem_toString hd]

/-- A name with a number behind it ends in a digit. -/
theorem last_isDigit_append_toString (s : String) (n : Nat) :
    (s ++ toString n).toList.getLast?.any Char.isDigit := by
  obtain ⟨d, hd⟩ : ∃ d, (toString n).toList.getLast? = some d :=
    Option.ne_none_iff_exists'.mp (by simp)
  rw [String.toList_append, List.getLast?_append, hd]
  exact Text.isDigit_of_mem_toString (List.mem_of_getLast? hd)

/-- What is appended to an identifier does not change its start. -/
theorem head?_append {s : String} (hs : isIdentifier s) (tail : String) :
    (s ++ tail).toList.head? = s.toList.head? := by
  obtain ⟨c, cs, hchars, -⟩ := isIdentifier_iff.mp hs
  rw [String.toList_append, hchars]
  rfl

theorem guardDigit_cases (mark s : String) : guardDigit mark s = s ∨ guardDigit mark s = mark ++ s := by
  rw [guardDigit]
  split
  · split
    · exact .inr rfl
    · exact .inl rfl
  · exact .inl rfl

theorem guardDigit_eq_self {mark s : String} (h : s.toList.head?.any Char.isDigit = false) :
    guardDigit mark s = s := by
  rw [guardDigit]
  split
  next c cs hchars =>
    rw [hchars] at h
    exact if_neg (by simpa using h)
  next => rfl

/-- With a mark in front of a digit, texts of word characters are identifiers. -/
theorem isIdentifier_guardDigit {s : String} (mark : String) (hmark : isIdentifier mark)
    (hs : s ≠ "") (hchars : s.toList.all isWordChar) : isIdentifier (guardDigit mark s) := by
  rw [guardDigit]
  cases hcs : s.toList with
  | nil => exact absurd (String.toList_eq_nil_iff.mp hcs) hs
  | cons c cs =>
      dsimp only
      split
      · exact isIdentifier_append hmark hchars
      · next hdigit =>
          rw [hcs, List.all_cons, Bool.and_eq_true, List.all_eq_true] at hchars
          refine isIdentifier_iff.mpr ⟨c, cs, hcs, ?_, hchars.2⟩
          simpa [isWordChar, Char.isAlphanum, hdigit] using hchars.1

theorem orElse_of_ne_empty {s : String} (hs : s ≠ "") (fallback : String) :
    orElse s fallback = s :=
  if_neg fun hempty => hs (String.isEmpty_iff.mp hempty)

theorem orElse_ne_empty {fallback : String} (hfallback : fallback ≠ "") (s : String) :
    orElse s fallback ≠ "" := by
  rcases eq_or_ne s "" with rfl | hs
  · exact hfallback
  · rwa [orElse_of_ne_empty hs]

/-! ## Words of a language -/

/-- Whether a text starts with a small letter. -/
def startsSmall (s : String) : Bool :=
  s.toList.head?.any Char.isLower

namespace Vocabulary

/-- Whether a vocabulary lets a name stand: it is an identifier and no word of the language. -/
def admits (v : Vocabulary) (name : String) : Bool :=
  isIdentifier name && !v.takes name

theorem admits_iff {v : Vocabulary} {name : String} :
    v.admits name ↔ isIdentifier name ∧ name ∉ v.reserved ++ v.builtin := by
  simp [admits, takes]

/-- Whether no word of the language ends in an underscore. -/
def Unmarked (v : Vocabulary) : Prop :=
  ∀ word ∈ v.reserved ++ v.builtin, word.toList.getLast? ≠ some '_'

/-- A name with an underscore at its end is no word of the language. -/
theorem Unmarked.admits_append_underscore {v : Vocabulary} (hv : v.Unmarked) {name : String}
    (hname : isIdentifier name) : v.admits (name ++ "_") := by
  refine admits_iff.mpr ⟨isIdentifier_append hname (by decide), ?_⟩
  intro hmem
  apply hv _ hmem
  rw [String.toList_append]
  simp

/-- Whether the words of a language look like no name that was changed to give way: none ends in an
underscore, and one that ends in a digit starts with a small letter, where names start otherwise. -/
structure Clear (v : Vocabulary) (casing : Casing) : Prop where
  unmarked : ∀ word ∈ v.reserved ++ v.builtin, word.toList.getLast? ≠ some '_'
  unnumbered : ∀ word ∈ v.reserved ++ v.builtin, word.toList.getLast?.any Char.isDigit →
    casing = .pascal ∧ startsSmall word

/-- Words that end in letters look like no such name. -/
theorem Clear.of_letters {v : Vocabulary} {casing : Casing}
    (h : ∀ word ∈ v.reserved ++ v.builtin, word.toList.getLast?.all Char.isAlpha) :
    v.Clear casing where
  unmarked word hword hlast := by
    have hletter := h word hword
    rw [hlast] at hletter
    cases hletter
  unnumbered word hword hdigit := by
    have hletter := h word hword
    cases hlast : word.toList.getLast? with
    | none =>
        rw [hlast] at hdigit
        cases hdigit
    | some c =>
        rw [hlast] at hletter hdigit
        exact absurd hdigit (by simp [Unicode.not_isDigit_of_isAlpha hletter])

namespace Clear

variable {v : Vocabulary} {casing : Casing} (hv : v.Clear casing) {name : String}

include hv

/-- A numbered name is no word of the language. -/
theorem admits_numbered (hname : v.admits name) (hstart : casing = .pascal → startsSmall name = false)
    (n : Nat) : v.admits (numbered name n) := by
  rw [numbered]
  split
  · exact hname
  · obtain ⟨hidentifier, -⟩ := admits_iff.mp hname
    refine admits_iff.mpr ⟨isIdentifier_append_toString hidentifier n, ?_⟩
    intro hmem
    -- a word of the language that ends in a digit starts with a small letter
    obtain ⟨hpascal, hsmall⟩ := hv.unnumbered _ hmem (last_isDigit_append_toString name n)
    rw [startsSmall, head?_append hidentifier, ← startsSmall, hstart hpascal] at hsmall
    cases hsmall

end Clear

end Vocabulary

variable {v : Vocabulary} {casing : Casing}

/-! ## Identifiers of types -/

/-- The identifier of a type is admitted. -/
theorem admits_typeIdentifier (hv : v.Clear casing) (name : String) :
    v.admits (typeIdentifier v name) := by
  have hword : (orElse (String.ofList (name.toList.filter isWordChar)) "Root").toList.all
      isWordChar := by
    rw [orElse]
    split
    · decide
    · rw [String.toList_ofList, List.all_eq_true]
      exact fun c hc => (List.mem_filter.mp hc).2
  have hidentifier :=
    isIdentifier_guardDigit "T" (by decide) (orElse_ne_empty (by decide) _) hword
  rw [typeIdentifier]
  split
  · exact Vocabulary.Unmarked.admits_append_underscore hv.unmarked hidentifier
  · next htakes => simp [Vocabulary.admits, hidentifier, htakes]

/-! ## Identifiers of requests -/

theorem apply_clean_ne_empty (hcasing : casing ≠ .original) (name : String) :
    casing.apply (clean name) ≠ "" := by
  obtain ⟨c, rest, hchars, -⟩ := (clean_cleaned name).apply hcasing
  intro hempty
  rw [hempty] at hchars
  cases hchars

/-- The word of a request is admitted, and in Pascal case it starts with no small letter. -/
theorem admits_word (hv : v.Unmarked) (hcasing : casing ≠ .original) (name : RawText) :
    v.admits (Request.word v ⟨name, casing, "_"⟩) ∧
      (casing = .pascal → startsSmall (Request.word v ⟨name, casing, "_"⟩) = false) := by
  obtain ⟨c, rest, hchars, halnum, hlower, hrest⟩ := (clean_cleaned name.legible).apply hcasing
  have hne := apply_clean_ne_empty hcasing name.legible
  have hword : (casing.apply (clean name.legible)).toList.all isWordChar := by
    rw [hchars, List.all_cons, Bool.and_eq_true, List.all_eq_true]
    exact ⟨by simp [isWordChar, halnum], hrest⟩
  have hidentifier := isIdentifier_guardDigit "_" (by decide) hne hword
  have hstart : casing = .pascal →
      startsSmall (guardDigit "_" (casing.apply (clean name.legible))) = false := by
    intro hpascal
    rw [guardDigit, hchars]
    dsimp only
    split
    · rw [startsSmall, head?_append (by decide)]
      decide
    · rw [startsSmall, hchars]
      exact hlower hpascal
  rw [Request.word, orElse_of_ne_empty hne]
  dsimp only
  split
  · refine ⟨hv.admits_append_underscore hidentifier, ?_⟩
    rw [startsSmall, head?_append hidentifier, ← startsSmall]
    exact hstart
  · next htakes => exact ⟨by simp [Vocabulary.admits, hidentifier, htakes], hstart⟩

/-- A name that is no word of the language, and neither starts nor ends as one that gave way, is asked
for exactly by the names that have it in their casing. -/
theorem Request.word_eq_iff (hcasing : casing ≠ .original) {word : String}
    (hfree : v.takes word = false) (hstart : word.toList.head?.any Char.isAlpha)
    (hlast : word.toList.getLast? ≠ some '_') (name : RawText) :
    Request.word v ⟨name, casing, "_"⟩ = word ↔ casing.apply (clean name.legible) = word := by
  rw [Request.word, orElse_of_ne_empty (apply_clean_ne_empty hcasing name.legible)]
  dsimp only
  constructor
  · intro hword
    split at hword
    · rw [← hword, String.toList_append] at hlast
      exact absurd (by simp) hlast
    · rcases guardDigit_cases "_" (casing.apply (clean name.legible)) with hself | hmark
      · rw [← hself, hword]
      · rw [← hword, hmark, String.toList_append] at hstart
        cases hstart
  · rintro rfl
    rw [guardDigit_eq_self, hfree]
    · rfl
    · cases hhead : (casing.apply (clean name.legible)).toList.head? with
      | none => rfl
      | some c =>
          rw [hhead] at hstart
          exact Unicode.not_isDigit_of_isAlpha hstart

/-- The name in its casing stands in the word of a request, with underscores alone around it. -/
theorem exists_around_word (v : Vocabulary) (hcasing : casing ≠ .original) (name : RawText) :
    ∃ front behind, (Request.word v ⟨name, casing, "_"⟩).toList =
      front ++ (casing.apply (clean name.legible)).toList ++ behind ∧
      ∀ c ∈ front ++ behind, c = '_' := by
  obtain ⟨d, rest, hchars, -⟩ := (clean_cleaned name.legible).apply hcasing
  have hne := apply_clean_ne_empty hcasing name.legible
  have hfront : ∃ front, (guardDigit "_" (casing.apply (clean name.legible))).toList =
      front ++ (casing.apply (clean name.legible)).toList ∧ ∀ c ∈ front, c = '_' := by
    rw [guardDigit, hchars]
    dsimp only
    split
    · exact ⟨['_'], by rw [String.toList_append, hchars]; rfl, by simp⟩
    · exact ⟨[], hchars, by simp⟩
  obtain ⟨front, hfront, hmarks⟩ := hfront
  rw [Request.word, orElse_of_ne_empty hne]
  dsimp only
  split
  · refine ⟨front, ['_'], by rw [String.toList_append, hfront]; rfl, ?_⟩
    exact List.forall_mem_append.mpr ⟨hmarks, by simp⟩
  · exact ⟨front, [], by rw [hfront, List.append_nil], by rwa [List.append_nil]⟩

/-- Whatever form the word of a request takes, the name in its casing stands in it, with underscores
and digits alone around it. -/
theorem exists_around_numbered_word (v : Vocabulary) (hcasing : casing ≠ .original)
    (name : RawText) (n : Nat) :
    ∃ front behind, (numbered (Request.word v ⟨name, casing, "_"⟩) n).toList =
      front ++ (casing.apply (clean name.legible)).toList ++ behind ∧
      ∀ c ∈ front ++ behind, c = '_' ∨ c.isDigit := by
  obtain ⟨front, mark, hword, hmarks⟩ := exists_around_word v hcasing name
  have hmarks : ∀ c ∈ front ++ mark, c = '_' ∨ c.isDigit := fun c hc => .inl (hmarks c hc)
  rw [numbered]
  split
  · exact ⟨front, mark, hword, hmarks⟩
  · refine ⟨front, mark ++ (toString n).toList, ?_, ?_⟩
    · rw [String.toList_append, hword, List.append_assoc]
    · rw [← List.append_assoc, List.forall_mem_append]
      exact ⟨hmarks, fun c hc => .inr (Text.isDigit_of_mem_toString hc)⟩

/-- An answer is a form of the word asked for or was given before. So what holds of all of these
holds of all answers. -/
theorem answerAll_forall (holds : String → Prop) {table : NameTable} {requests : List Request}
    (hgiven : ∀ key a, table.given.get? key = some a → holds a)
    (hforms : ∀ r ∈ requests, ∀ n, holds (numbered (r.word v) n)) :
    ∀ a ∈ (NameTable.answerAll v table requests).1, holds a := by
  induction requests generalizing table with
  | nil => intro a ha; cases ha
  | cons r rs ih =>
      rw [List.forall_mem_cons] at hforms
      rw [NameTable.answerAll_cons, List.forall_mem_cons]
      cases hold : table.given.get? r.key with
      | some a =>
          rw [NameTable.answer_of_given hold]
          exact ⟨hgiven _ _ hold, ih hgiven hforms.2⟩
      | none =>
          obtain ⟨n, hn, -⟩ := firstFree_eq_numbered table.used (r.word v)
          have hfirst := hforms.1 n
          rw [← hn] at hfirst
          rw [NameTable.answer_of_new hold]
          refine ⟨hfirst, ih ?_ hforms.2⟩
          intro key a hkey
          rw [Entries.get?_put] at hkey
          split at hkey
          · exact Option.some.inj hkey ▸ hfirst
          · exact hgiven key a hkey

/-- **Identifiers of names.** All identifiers that a fresh table gives to names in one casing are
admitted. -/
theorem admits_of_mem_answers (hv : v.Clear casing) (hcasing : casing ≠ .original)
    (names : List RawText) {a : String}
    (ha : a ∈ answers v (names.map fun name => ⟨name, casing, "_"⟩)) : v.admits a := by
  refine answerAll_forall (fun a => v.admits a) (by simp) ?_ a ha
  intro r hr n
  obtain ⟨name, -, rfl⟩ := List.mem_map.mp hr
  obtain ⟨hword, hstart⟩ := admits_word hv.unmarked hcasing name
  exact hv.admits_numbered hword hstart n

end DtoForge.Naming
