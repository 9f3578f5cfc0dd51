import Mathlib.Data.List.Nodup
import DtoForge.Generator.Dart
import DtoForge.Generator.Kotlin
import DtoForge.Proofs.Text.Lines

/-! # Literals — what stands between the quotes is the text

`readBody` reads what stands between the quotes from left to right. A literal marks characters in one
pass, and escaping one mark after the other comes to the same as long as the backslash is the first
of them (`escapeEach_eq_escapeMarked`): later passes then leave the backslashes of earlier ones
alone. Parts of a text that hold no marks stand in the literal as they are. -/

namespace DtoForge.Text

variable {special marked part : List Char} {c : Char} {cs : List Char}

/-! ## Marks -/

theorem escapeMarked_cons_of_mem (hc : c ∈ marked) (cs : List Char) :
    escapeMarked marked (c :: cs) = '\\' :: c :: escapeMarked marked cs := by
  rw [escapeMarked, List.flatMap_cons, if_pos (by simpa using hc)]
  rfl

theorem escapeMarked_cons_of_not_mem (hc : c ∉ marked) (cs : List Char) :
    escapeMarked marked (c :: cs) = c :: escapeMarked marked cs := by
  rw [escapeMarked, List.flatMap_cons, if_neg (by simpa using hc)]
  rfl

theorem escapeMarked_eq_self (h : ∀ c ∈ cs, c ∉ marked) : escapeMarked marked cs = cs := by
  induction cs with
  | nil => rfl
  | cons c cs ih =>
      obtain ⟨hc, hcs⟩ := List.forall_mem_cons.mp h
      rw [escapeMarked_cons_of_not_mem hc, ih hcs]

theorem prefix_of_escapeMarked (hbackslash : '\\' ∈ marked) (hpart : ∀ c ∈ part, c ∉ marked)
    (h : part <+: escapeMarked marked cs) : part <+: cs := by
  induction cs generalizing part with
  | nil => exact h
  | cons c cs ih =>
      by_cases hc : c ∈ marked
      · rw [escapeMarked_cons_of_mem hc] at h
        have hnil := prefix_of_append_cons [] (fun hmem => hpart _ hmem hbackslash) h
        exact hnil.trans List.nil_prefix
      · rw [escapeMarked_cons_of_not_mem hc] at h
        cases part with
        | nil => exact List.nil_prefix
        | cons d ds =>
            obtain ⟨rfl, hds⟩ := List.cons_prefix_cons.mp h
            exact List.cons_prefix_cons.mpr ⟨rfl, ih (List.forall_mem_cons.mp hpart).2 hds⟩

/-- Parts without marks stand in the escaped text exactly if they stand in the text. -/
theorem infix_escapeMarked_iff (hbackslash : '\\' ∈ marked) (hpart : ∀ c ∈ part, c ∉ marked) :
    part <:+: escapeMarked marked cs ↔ part <:+: cs := by
  have hnot : ∀ {c}, c ∈ marked → c ∉ part := fun hc hmem => hpart _ hmem hc
  constructor
  · intro h
    induction cs with
    | nil => exact h
    | cons c cs ih =>
        by_cases hc : c ∈ marked
        · rw [escapeMarked_cons_of_mem hc] at h
          have hrest : part <:+: escapeMarked marked cs := by
            rcases infix_of_append_cons [] (hnot hbackslash) h with h | h
            · exact h.trans List.nil_infix
            · rcases infix_of_append_cons [] (hnot hc) h with h | h
              · exact h.trans List.nil_infix
              · exact h
          exact List.infix_cons (ih hrest)
        · rw [escapeMarked_cons_of_not_mem hc] at h
          rcases List.infix_cons_iff.mp h with hfirst | hrest
          · rw [← escapeMarked_cons_of_not_mem hc] at hfirst
            exact (prefix_of_escapeMarked hbackslash hpart hfirst).isInfix
          · exact List.infix_cons (ih hrest)
  · intro h
    rw [← escapeMarked_eq_self hpart]
    exact h.flatMap _

/-! ## Reading -/

/-- The text that is read between two quotes: a backslash takes the next character as it is. There
is none if a special character stands without a backslash, or nothing stands behind one. -/
def readBody (special : List Char) : List Char → Option (List Char)
  | [] => some []
  | ['\\'] => none
  | '\\' :: c :: cs => (readBody special cs).map (c :: ·)
  | c :: cs => if special.contains c then none else (readBody special cs).map (c :: ·)

theorem readBody_escape (special : List Char) (c : Char) (cs : List Char) :
    readBody special ('\\' :: c :: cs) = (readBody special cs).map (c :: ·) := rfl

theorem readBody_plain (hbackslash : c ≠ '\\') (hspecial : c ∉ special) (cs : List Char) :
    readBody special (c :: cs) = (readBody special cs).map (c :: ·) := by
  rw [readBody]
  · rw [if_neg (by simpa using hspecial)]
  · rintro rfl
    exact absurd rfl hbackslash
  · rintro d ds rfl
    exact absurd rfl hbackslash

/-- What was escaped is read as it was, if the backslash and all special characters are marked. -/
theorem readBody_escapeMarked (hbackslash : '\\' ∈ marked) (hspecial : special ⊆ marked)
    (cs : List Char) : readBody special (escapeMarked marked cs) = some cs := by
  induction cs with
  | nil => rfl
  | cons c cs ih =>
      by_cases hc : c ∈ marked
      · rw [escapeMarked_cons_of_mem hc, readBody_escape, ih]
        rfl
      · rw [escapeMarked_cons_of_not_mem hc,
          readBody_plain (ne_of_mem_of_not_mem hbackslash hc).symm fun h => hc (hspecial h), ih]
        rfl

/-! ## Writing -/

/-- Puts a backslash in front of a character wherever it stands. -/
def escapeOne (mark : Char) (cs : List Char) : List Char :=
  cs.flatMap fun c => if c = mark then ['\\', c] else [c]

/-- Escapes one character after the other. -/
def escapeEach (marks cs : List Char) : List Char :=
  marks.foldl (fun cs mark => escapeOne mark cs) cs

/-- Escaping one more character leaves the escapes that are there. -/
theorem escapeOne_escapeMarked {mark : Char} (hbackslash : '\\' ∈ marked) (hmark : mark ∉ marked)
    (cs : List Char) :
    escapeOne mark (escapeMarked marked cs) = escapeMarked (marked ++ [mark]) cs := by
  have hne : '\\' ≠ mark := ne_of_mem_of_not_mem hbackslash hmark
  rw [escapeOne, escapeMarked, escapeMarked, List.flatMap_assoc]
  congr 1
  funext c
  by_cases hc : c ∈ marked
  · have hcm : c ≠ mark := ne_of_mem_of_not_mem hc hmark
    simp [hc, hne, hcm]
  · by_cases hcm : c = mark
    · subst hcm
      simp [hc]
    · simp [hc, hcm]

theorem escapeEach_escapeMarked {marks : List Char} (hbackslash : '\\' ∈ marked)
    (hnodup : (marked ++ marks).Nodup) (cs : List Char) :
    escapeEach marks (escapeMarked marked cs) = escapeMarked (marked ++ marks) cs := by
  induction marks generalizing marked with
  | nil => rw [List.append_nil]; rfl
  | cons mark marks ih =>
      have hmark : mark ∉ marked := fun h =>
        List.disjoint_of_nodup_append hnodup h List.mem_cons_self
      rw [List.append_cons] at hnodup ⊢
      rw [escapeEach, List.foldl_cons, escapeOne_escapeMarked hbackslash hmark]
      exact ih (List.mem_append_left _ hbackslash) hnodup

/-- Different characters can be escaped one after the other, the backslash first. -/
theorem escapeEach_eq_escapeMarked {marks : List Char} (hnodup : ('\\' :: marks).Nodup)
    (cs : List Char) : escapeEach ('\\' :: marks) cs = escapeMarked ('\\' :: marks) cs := by
  have hfirst : escapeOne '\\' cs = escapeMarked ['\\'] cs := by
    simp [escapeOne, escapeMarked]
  rw [escapeEach, List.foldl_cons, hfirst]
  exact escapeEach_escapeMarked List.mem_cons_self hnodup cs

/-! ## Main result -/

/-- A literal of a text: the text with its marks escaped one after the other stands between two
quotes, and is read as the text. -/
structure IsLiteral (quote : Char) (special : List Char) (text literal : String) : Prop where
  written :
    literal.toList = quote :: escapeEach ('\\' :: quote :: special) text.toList ++ [quote]
  read : readBody (quote :: special) (escapeEach ('\\' :: quote :: special) text.toList) =
    some text.toList

theorem isLiteral_literal {quote : Char} {special : List Char}
    (hnodup : ('\\' :: quote :: special).Nodup) (s : String) :
    IsLiteral quote special s (literal quote special s) where
  written := by
    rw [escapeEach_eq_escapeMarked hnodup, literal, String.toList_ofList]
  read := by
    rw [escapeEach_eq_escapeMarked hnodup]
    exact readBody_escapeMarked List.mem_cons_self (List.subset_cons_self _ _) _

/-- **No text breaks out of its literal.** Whatever a text holds, what stands between the quotes of
its literal has no quote without a backslash and does not end in an escape, and is read as the text.
In Dart and Kotlin no dollar sign stands without a backslash either. -/
theorem literals_read_back (s : String) :
    IsLiteral '"' [] s (doubleQuoted s) ∧ IsLiteral '\'' [] s (singleQuoted s) ∧
      IsLiteral '\'' ['$'] s (Dart.stringLiteral s) ∧
      IsLiteral '"' ['$'] s (Kotlin.stringLiteral s) :=
  ⟨isLiteral_literal (by decide) s, isLiteral_literal (by decide) s,
    isLiteral_literal (by decide) s, isLiteral_literal (by decide) s⟩

/-- With the quote escaped before the backslash, a quote gets free. -/
example : readBody ['"'] (escapeEach ['"', '\\'] ['"']) = none := by decide

end DtoForge.Text
