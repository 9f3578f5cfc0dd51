import DtoForge.Generator.TypeScript
import DtoForge.Proofs.Text.Quotation

/-! # Keys — what the key of a property denotes

A key without quotes denotes itself, as far as it is a word; a quoted key denotes what its literal is
read as. Two characters stand in the way of the property's own name: a line feed at the end of a word
is not seen when the key is left without quotes, and in quotes neither a line feed nor a carriage
return is escaped. All other names are denoted by their keys (`propertyKey_denotes_iff`). -/

namespace DtoForge.TypeScript

open Text

variable {name : String} {word cs : List Char}

/-! ## Words -/

/-- Characters that may stand behind the start of a word. -/
def isKeyPart (c : Char) : Bool :=
  isKeyStart c || c.isDigit

/-- Whether a text may stand as a key without quotes. -/
def isWord : List Char → Bool
  | [] => false
  | c :: cs => isKeyStart c && cs.all isKeyPart

theorem isWord_iff :
    isWord cs ↔ ∃ c rest, cs = c :: rest ∧ isKeyStart c ∧ ∀ d ∈ rest, isKeyPart d := by
  cases cs with
  | nil => simp [isWord]
  | cons c cs => simp [isWord]

theorem not_mem_of_isWord (h : isWord cs) {c : Char} (hc : isKeyPart c = false) : c ∉ cs := by
  obtain ⟨d, rest, rfl, hd, hrest⟩ := isWord_iff.mp h
  intro hmem
  rcases List.mem_cons.mp hmem with rfl | hmem
  · simp [isKeyPart, hd] at hc
  · rw [hrest c hmem] at hc
    cases hc

/-! ## Reading -/

/-- What a backslash and another character stand for in a literal. Escapes that give a number, and
those that end a line, are left out. -/
def escapeOf : Char → Option Char
  | 'b' => some '\x08'
  | 'f' => some '\x0c'
  | 'n' => some '\n'
  | 'r' => some '\r'
  | 't' => some '\t'
  | 'v' => some '\x0b'
  | c => if c.isDigit || ['u', 'x', '\n', '\r', '\u2028', '\u2029'].contains c then none else some c

/-- How literals in single quotes are read: they end on their line. -/
def literalRules : QuoteRules where
  quote := '\''
  escape := escapeOf
  barred := ['\n', '\r']

/-- The property that the key at the start of a text denotes, and what stands behind the key. -/
def readKey : List Char → Option (List Char × List Char)
  | [] => none
  | c :: cs =>
    if c = '\'' then readQuoted literalRules cs
    else if isKeyStart c then some (c :: cs.takeWhile isKeyPart, cs.dropWhile isKeyPart)
    else none

theorem literalRules_unmarks : literalRules.Unmarks ['\\', '\''] where
  backslash_mem := by decide
  quote_mem := by decide
  quote_ne := by decide
  escape_eq := by simp [literalRules, escapeOf]
  free := by simp [literalRules]

/-- A word denotes itself up to a character that ends it. -/
theorem readKey_append (hword : isWord word) (rest : List Char)
    (hrest : ∀ c ∈ rest.head?, isKeyPart c = false) : readKey (word ++ rest) = some (word, rest) := by
  obtain ⟨c, cs, rfl, hc, hcs⟩ := isWord_iff.mp hword
  have hquote : c ≠ '\'' := by
    rintro rfl
    exact absurd hc (by decide)
  have hends : rest.takeWhile isKeyPart = [] ∧ rest.dropWhile isKeyPart = rest := by
    cases rest with
    | nil => exact ⟨rfl, rfl⟩
    | cons d ds =>
        have hd := hrest d rfl
        exact ⟨List.takeWhile_cons_of_neg (by simp [hd]), List.dropWhile_cons_of_neg (by simp [hd])⟩
  rw [List.cons_append, readKey, if_neg hquote, if_pos hc, List.takeWhile_append_of_pos hcs,
    List.dropWhile_append_of_pos hcs, hends.1, hends.2, List.append_nil]

/-- A quoted name denotes the name, unless it has a character that ends a line. -/
theorem readKey_singleQuoted_iff {out : List Char × List Char} :
    readKey (singleQuoted name).toList = some out ↔
      ('\n' ∉ name.toList ∧ '\r' ∉ name.toList) ∧ out = (name.toList, []) := by
  rw [singleQuoted, literal, String.toList_ofList, List.cons_append, readKey, if_pos rfl]
  refine (readQuoted_escapeMarked_iff literalRules_unmarks).trans (and_congr_left' ?_)
  show (∀ c ∈ name.toList, c ∉ ['\n', '\r']) ↔ _
  constructor
  · intro h
    exact ⟨fun hmem => h _ hmem (by simp), fun hmem => h _ hmem (by simp)⟩
  · rintro ⟨hfeed, hreturn⟩ c hc hbarred
    rcases List.mem_pair.mp hbarred with rfl | rfl
    · exact hfeed hc
    · exact hreturn hc

/-! ## Writing -/

/-- A name is written without quotes exactly if it is a word, or a word with a line feed behind it. -/
theorem isPlainKey_iff :
    isPlainKey name ↔
      isWord name.toList ∨ ∃ word, isWord word ∧ name.toList = word ++ ['\n'] := by
  have hplain : isPlainKey name = isWord
      (if name.toList.getLast? == some '\n' then name.toList.dropLast else name.toList) := rfl
  rw [hplain]
  split
  next hlast =>
    have hsplit : name.toList.dropLast ++ ['\n'] = name.toList :=
      List.dropLast_append_getLast? _ (beq_iff_eq.mp hlast)
    constructor
    · exact fun hword => .inr ⟨_, hword, hsplit.symm⟩
    · rintro (hword | ⟨word, hword, hname⟩)
      · exact absurd (List.mem_of_getLast? (beq_iff_eq.mp hlast))
          (not_mem_of_isWord hword (by decide))
      · rwa [hname, List.dropLast_concat]
  next hlast =>
    constructor
    · exact .inl
    · rintro (hword | ⟨word, -, hname⟩)
      · exact hword
      · rw [hname, List.getLast?_concat] at hlast
        exact absurd rfl hlast

/-- A key in quotes is longer than its name. -/
theorem singleQuoted_ne_self (name : String) : singleQuoted name ≠ name := by
  intro h
  have hlength := congrArg (fun s => s.toList.length) h
  have hle := (sublist_escapeMarked ['\\', '\''] name.toList).length_le
  simp only [singleQuoted, literal, String.toList_ofList, List.length_append, List.length_cons,
    List.length_nil] at hlength
  omega

theorem propertyKey_eq_self_iff : propertyKey name = name ↔ isPlainKey name := by
  rw [propertyKey]
  split
  next hplain => exact iff_of_true rfl hplain
  next hplain => exact iff_of_false (singleQuoted_ne_self name) hplain

/-- No name without quotes is read as one in quotes. -/
theorem singleQuoted_ne_of_isPlainKey {other : String} (h : isPlainKey name) :
    singleQuoted other ≠ name := by
  rintro rfl
  have hquote : '\'' ∈ (singleQuoted other).toList := by
    rw [singleQuoted, literal, String.toList_ofList]
    exact List.mem_cons_self
  rcases isPlainKey_iff.mp h with hword | ⟨word, hword, hname⟩
  · exact not_mem_of_isWord hword (by decide) hquote
  · rw [hname, List.mem_append, or_iff_left (by decide)] at hquote
    exact not_mem_of_isWord hword (by decide) hquote

/-- Keys tell names apart. -/
theorem propertyKey_injective : Function.Injective propertyKey := by
  intro a b h
  unfold propertyKey at h
  split at h <;> split at h
  · exact h
  next ha _ => exact absurd h.symm (singleQuoted_ne_of_isPlainKey ha)
  next _ hb => exact absurd h (singleQuoted_ne_of_isPlainKey hb)
  · simp only [singleQuoted, literal, String.ofList_inj] at h
    have hbody := (List.append_cancel_right (List.cons.inj h).2)
    exact String.toList_inj.mp (escapeMarked_injective List.mem_cons_self hbody)

/-! ## Main result -/

/-- **What keys denote.** The key of a property denotes its name exactly if the name has no line feed
and no carriage return. It is the name itself, without quotes, exactly if the name is a word or a word
with a line feed behind it. No other name has the same key. -/
theorem propertyKey_denotes_iff (name : String) :
    (readKey (propertyKey name).toList = some (name.toList, []) ↔
      '\n' ∉ name.toList ∧ '\r' ∉ name.toList) ∧
    (propertyKey name = name ↔
      isWord name.toList ∨ ∃ word, isWord word ∧ name.toList = word ++ ['\n']) ∧
    ∀ name', propertyKey name = propertyKey name' → name = name' := by
  refine ⟨?_, propertyKey_eq_self_iff.trans isPlainKey_iff, fun _ h => propertyKey_injective h⟩
  rw [propertyKey]
  split
  next hplain =>
    rcases isPlainKey_iff.mp hplain with hword | ⟨word, hword, hname⟩
    · have hread := readKey_append hword [] nofun
      rw [List.append_nil] at hread
      exact iff_of_true hread
        ⟨not_mem_of_isWord hword (by decide), not_mem_of_isWord hword (by decide)⟩
    · -- the line feed ends the word, and the key denotes what stands before it
      have hends : isKeyPart '\n' = false := by decide
      have hread := readKey_append hword ['\n'] (by simp [hends])
      rw [hname, hread]
      exact iff_of_false (by simp) (by simp)
  next => rw [readKey_singleQuoted_iff, and_iff_left rfl]

/-- The key of a name with a line feed at its end has no quotes, and denotes the name without it. -/
theorem exists_key_of_other_name :
    isWord "id\n".toList = false ∧ propertyKey "id\n" = "id\n" ∧
      readKey (propertyKey "id\n").toList = some ("id".toList, ['\n']) := by
  decide

end DtoForge.TypeScript
