import DtoForge.Proofs.Text.Literal

/-! # Quotations — literals read by the rules of a language

Languages differ in the quote around a literal, in what a backslash and the character behind it stand
for, and in what must not stand in a literal as it is. `readQuoted` reads up to the closing quote
under such rules. What was escaped is read back exactly if it has no barred character, and whatever
stands behind the quote is left (`readQuoted_escapeMarked_iff`). -/

namespace DtoForge.Text

/-- How a language reads literals. -/
structure QuoteRules where
  /-- The character at both ends. -/
  quote : Char
  /-- What a backslash and another character stand for. -/
  escape : Char → Option Char
  /-- Characters that must not stand in a literal as they are. -/
  barred : List Char

/-- The text up to the closing quote, and what stands behind it. -/
def readQuoted (rules : QuoteRules) : List Char → Option (List Char × List Char)
  | [] => none
  | ['\\'] => none
  | '\\' :: c :: cs => do
    let d ← rules.escape c
    (readQuoted rules cs).map fun (text, rest) => (d :: text, rest)
  | c :: cs =>
    if c = rules.quote then some ([], cs)
    else if rules.barred.contains c then none
    else (readQuoted rules cs).map fun (text, rest) => (c :: text, rest)

/-- Whether a language reads all marks as what they are when they are escaped, the backslash and the
quote among them. -/
structure QuoteRules.Unmarks (rules : QuoteRules) (marked : List Char) : Prop where
  backslash_mem : '\\' ∈ marked
  quote_mem : rules.quote ∈ marked
  quote_ne : rules.quote ≠ '\\'
  escape_eq : ∀ c ∈ marked, rules.escape c = some c
  free : ∀ c ∈ marked, c ∉ rules.barred

section

variable {rules : QuoteRules} {marked cs rest : List Char} {c : Char} {out : List Char × List Char}

theorem readQuoted_quote (hne : rules.quote ≠ '\\') (rest : List Char) :
    readQuoted rules (rules.quote :: rest) = some ([], rest) := by
  rw [readQuoted]
  · rw [if_pos rfl]
  · exact fun h _ => hne h
  · exact fun _ _ h _ => hne h

theorem readQuoted_escape (hescape : rules.escape c = some c) (cs : List Char) :
    readQuoted rules ('\\' :: c :: cs) =
      (readQuoted rules cs).map fun (text, rest) => (c :: text, rest) := by
  rw [readQuoted, hescape]
  rfl

theorem readQuoted_unescaped (hbackslash : c ≠ '\\') (hquote : c ≠ rules.quote) (cs : List Char) :
    readQuoted rules (c :: cs) = if rules.barred.contains c then none
      else (readQuoted rules cs).map fun (text, rest) => (c :: text, rest) := by
  rw [readQuoted]
  · rw [if_neg hquote]
  · exact fun h _ => hbackslash h
  · exact fun _ _ h _ => hbackslash h

/-- **What was escaped is read back** up to its closing quote, exactly if it has no barred
character. -/
theorem readQuoted_escapeMarked_iff (h : rules.Unmarks marked) :
    readQuoted rules (escapeMarked marked cs ++ rules.quote :: rest) = some out ↔
      (∀ c ∈ cs, c ∉ rules.barred) ∧ out = (cs, rest) := by
  induction cs generalizing out with
  | nil =>
      show readQuoted rules (rules.quote :: rest) = some out ↔ _
      rw [readQuoted_quote h.quote_ne, Option.some_inj]
      simp [eq_comm]
  | cons c cs ih =>
      have hread : ((readQuoted rules (escapeMarked marked cs ++ rules.quote :: rest)).map
          fun (text, rest) => (c :: text, rest)) = some out ↔
          (∀ c ∈ cs, c ∉ rules.barred) ∧ out = (c :: cs, rest) := by
        simp only [Option.map_eq_some_iff, ih]
        constructor
        · rintro ⟨read, ⟨hcs, rfl⟩, rfl⟩
          exact ⟨hcs, rfl⟩
        · rintro ⟨hcs, rfl⟩
          exact ⟨(cs, rest), ⟨hcs, rfl⟩, rfl⟩
      rw [List.forall_mem_cons]
      by_cases hc : c ∈ marked
      · rw [escapeMarked_cons_of_mem hc, List.cons_append, List.cons_append,
          readQuoted_escape (h.escape_eq c hc), hread, and_iff_right (h.free c hc)]
      · have hbackslash := (ne_of_mem_of_not_mem h.backslash_mem hc).symm
        have hquote := (ne_of_mem_of_not_mem h.quote_mem hc).symm
        rw [escapeMarked_cons_of_not_mem hc, List.cons_append,
          readQuoted_unescaped hbackslash hquote, and_assoc, ← hread]
        by_cases hbarred : c ∈ rules.barred <;> simp [hbarred]

end

/-! ## Escaped parts -/

variable {marked cs : List Char}

theorem escapeMarked_append (marked front behind : List Char) :
    escapeMarked marked (front ++ behind) = escapeMarked marked front ++ escapeMarked marked behind :=
  List.flatMap_append

theorem sublist_escapeMarked (marked cs : List Char) : cs.Sublist (escapeMarked marked cs) := by
  induction cs with
  | nil => exact List.Sublist.refl _
  | cons c cs ih =>
      by_cases hc : c ∈ marked
      · rw [escapeMarked_cons_of_mem hc]
        exact (ih.cons_cons c).cons '\\'
      · rw [escapeMarked_cons_of_not_mem hc]
        exact ih.cons_cons c

/-- What was escaped can be told from what it became. -/
theorem escapeMarked_injective (hbackslash : '\\' ∈ marked) :
    Function.Injective (escapeMarked marked) := by
  intro cs ds h
  have hread := readBody_escapeMarked hbackslash (List.nil_subset marked)
  exact Option.some.inj ((hread cs).symm.trans (h ▸ hread ds))

theorem mem_escapeMarked_iff {c : Char} (hc : c ≠ '\\') : c ∈ escapeMarked marked cs ↔ c ∈ cs := by
  induction cs with
  | nil => rfl
  | cons d cs ih =>
      by_cases hd : d ∈ marked
      · rw [escapeMarked_cons_of_mem hd, List.mem_cons, List.mem_cons, List.mem_cons, ih,
          or_iff_right hc]
      · rw [escapeMarked_cons_of_not_mem hd, List.mem_cons, List.mem_cons, ih]

/-- Dropping characters that are no marks leaves the escapes. -/
theorem filter_escapeMarked {p : Char → Bool} (hbackslash : p '\\' = true)
    (hmarked : ∀ c ∈ marked, p c = true) (cs : List Char) :
    (escapeMarked marked cs).filter p = escapeMarked marked (cs.filter p) := by
  induction cs with
  | nil => rfl
  | cons c cs ih =>
      by_cases hc : c ∈ marked
      · rw [escapeMarked_cons_of_mem hc, List.filter_cons_of_pos hbackslash,
          List.filter_cons_of_pos (hmarked c hc), List.filter_cons_of_pos (hmarked c hc),
          escapeMarked_cons_of_mem hc, ih]
      · rw [escapeMarked_cons_of_not_mem hc]
        by_cases hp : p c = true
        · rw [List.filter_cons_of_pos hp, List.filter_cons_of_pos hp,
            escapeMarked_cons_of_not_mem hc, ih]
        · rw [List.filter_cons_of_neg hp, List.filter_cons_of_neg hp, ih]

end DtoForge.Text
