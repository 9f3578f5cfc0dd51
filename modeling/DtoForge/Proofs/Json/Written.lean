import DtoForge.Proofs.Json.Text

/-! # Written — where the parts of a document on one line end

On one line the level of nesting does not matter (`writeAt_level`), and a list or an object is its
parts with commas between them in a pair of marks. When each part tells where it ends, the parts
are determined by the whole and whatever stands behind it (`joined_append_inj`). -/

namespace DtoForge.Json

/-! ## One line -/

theorem enclose_line {layout : Layout} (hline : layout.indent = none) (level : Nat)
    (opening closing : String) (parts : List String) :
    enclose layout level opening closing parts =
      opening ++ String.intercalate ", " parts ++ closing := by
  unfold enclose
  cases parts with
  | nil => simp
  | cons part parts => simp [hline]

mutual

/-- On one line the level of nesting does not matter. -/
theorem writeAt_level {layout : Layout} (hline : layout.indent = none) (m n : Nat) :
    ∀ v, writeAt layout m v = writeAt layout n v
  | .null | .bool _ | .int _ | .float _ | .str _ => rfl
  | .list items => by
      simp only [writeAt, enclose_line hline, writeItems_level hline (m + 1) (n + 1) items]
  | .object entries => by
      simp only [writeAt, enclose_line hline, writeEntries_level hline (m + 1) (n + 1) entries]

theorem writeItems_level {layout : Layout} (hline : layout.indent = none) (m n : Nat) :
    ∀ items, writeItems layout m items = writeItems layout n items
  | [] => rfl
  | v :: vs => by
      rw [writeItems, writeItems, writeAt_level hline m n v, writeItems_level hline m n vs]

theorem writeEntries_level {layout : Layout} (hline : layout.indent = none) (m n : Nat) :
    ∀ entries, writeEntries layout m entries = writeEntries layout n entries
  | [] => rfl
  | (k, v) :: es => by
      rw [writeEntries, writeEntries, writeAt_level hline m n v, writeEntries_level hline m n es]

end

/-- The texts of items are those of the items on their own. -/
theorem writeItems_line {layout : Layout} (hline : layout.indent = none) (level : Nat)
    (items : List Json) : writeItems layout level items = items.map (write layout) := by
  induction items with
  | nil => rfl
  | cons v vs ih => rw [writeItems, ih, List.map_cons, write, writeAt_level hline level 0]

/-- The texts of entries are those of their values on their own, behind the keys. -/
theorem writeEntries_line {layout : Layout} (hline : layout.indent = none) (level : Nat)
    (entries : List (RawText × Json)) :
    writeEntries layout level entries =
      entries.map fun e => (e.1, writeText layout.asciiOnly e.1 ++ ": " ++ e.2.write layout) := by
  induction entries with
  | nil => rfl
  | cons e es ih =>
      obtain ⟨k, v⟩ := e
      rw [writeEntries, ih, List.map_cons, write, writeAt_level hline level 0]

theorem arrange_perm {α : Type} (layout : Layout) (entries : List (RawText × α)) :
    (layout.arrange entries).Perm entries := by
  unfold Layout.arrange
  split
  · exact List.mergeSort_perm _ _
  · exact List.Perm.refl _

/-! ## Parts between commas -/

/-- Parts with a comma and a blank between them. -/
def joined (parts : List (List Char)) : List Char :=
  [',', ' '].intercalate parts

@[simp] theorem joined_nil : joined [] = [] := rfl

@[simp] theorem joined_cons (part : List Char) (parts : List (List Char)) :
    joined (part :: parts) = part ++ parts.flatMap ([',', ' '] ++ ·) := by
  induction parts generalizing part with
  | nil => simp [joined]
  | cons next parts ih =>
      have hrest := ih next
      simp only [joined, List.intercalate_cons_cons] at hrest ⊢
      simp [hrest]

/-- The length of a part is at most that of the whole. -/
theorem length_le_joined {part : List Char} {parts : List (List Char)} (h : part ∈ parts) :
    part.length ≤ (joined parts).length := by
  cases parts with
  | nil => cases h
  | cons first parts =>
      rw [joined_cons, List.length_append]
      rcases List.mem_cons.mp h with rfl | h
      · omega
      · obtain ⟨before, behind, rfl⟩ := List.append_of_mem h
        simp only [List.flatMap_append, List.flatMap_cons, List.length_append]
        omega

/-- A text tells where it ends, compared with another one. -/
def EndsItself (a b : List Char) : Prop :=
  ∀ r r', a ++ r = b ++ r' → a = b ∧ r = r'

theorem EndsItself.refl (a : List Char) : EndsItself a a :=
  fun _ _ h => ⟨rfl, List.append_cancel_left h⟩

theorem EndsItself.append {a b c d : List Char} (h : EndsItself a b) (h' : EndsItself c d) :
    EndsItself (a ++ c) (b ++ d) := by
  intro r r' heq
  rw [List.append_assoc, List.append_assoc] at heq
  obtain ⟨rfl, hrest⟩ := h _ _ heq
  obtain ⟨rfl, hr⟩ := h' _ _ hrest
  exact ⟨rfl, hr⟩

theorem endsItself_writeText (s t : RawText) :
    EndsItself (writeText true s).toList (writeText true t).toList := by
  intro r r' h
  obtain ⟨htext, hr⟩ := writeText_append_inj h
  exact ⟨congrArg String.toList htext, hr⟩

/-- Parts that each have a comma in front are determined by what they are together. -/
theorem flatMap_comma_append_inj {parts parts' : List (List Char)} {closing : Char}
    (hends : ∀ a ∈ parts, ∀ b ∈ parts', EndsItself a b) (hcomma : closing ≠ ',') {r r' : List Char}
    (h : parts.flatMap ([',', ' '] ++ ·) ++ closing :: r =
      parts'.flatMap ([',', ' '] ++ ·) ++ closing :: r') : parts = parts' ∧ r = r' := by
  induction parts generalizing parts' with
  | nil =>
      cases parts' with
      | nil => simpa using h
      | cons q qs =>
          simp only [List.flatMap_nil, List.nil_append, List.flatMap_cons, List.cons_append,
            List.cons.injEq] at h
          exact absurd h.1 hcomma
  | cons p ps ih =>
      cases parts' with
      | nil =>
          simp only [List.flatMap_nil, List.nil_append, List.flatMap_cons, List.cons_append,
            List.cons.injEq] at h
          exact absurd h.1.symm hcomma
      | cons q qs =>
          simp only [List.flatMap_cons, List.cons_append, List.nil_append, List.append_assoc,
            List.cons.injEq, true_and] at h
          obtain ⟨rfl, hrest⟩ := hends p List.mem_cons_self q List.mem_cons_self _ _ h
          obtain ⟨rfl, hr⟩ := ih
            (fun a ha b hb => hends a (List.mem_cons_of_mem _ ha) b (List.mem_cons_of_mem _ hb))
            hrest
          exact ⟨rfl, hr⟩

/-- **Parts that tell where they end are determined by the whole**, up to a closing mark that
starts none of them. -/
theorem joined_append_inj {parts parts' : List (List Char)} {closing : Char}
    (hends : ∀ a ∈ parts, ∀ b ∈ parts', EndsItself a b) (hcomma : closing ≠ ',')
    (hstart : ∀ a ∈ parts, ∃ c rest, a = c :: rest ∧ c ≠ closing)
    (hstart' : ∀ a ∈ parts', ∃ c rest, a = c :: rest ∧ c ≠ closing) {r r' : List Char}
    (h : joined parts ++ closing :: r = joined parts' ++ closing :: r') :
    parts = parts' ∧ r = r' := by
  cases parts with
  | nil =>
      cases parts' with
      | nil => simpa using h
      | cons q qs =>
          obtain ⟨c, rest, rfl, hc⟩ := hstart' q List.mem_cons_self
          simp only [joined_nil, joined_cons, List.nil_append, List.cons_append,
            List.cons.injEq] at h
          exact absurd h.1.symm hc
  | cons p ps =>
      cases parts' with
      | nil =>
          obtain ⟨c, rest, rfl, hc⟩ := hstart p List.mem_cons_self
          simp only [joined_nil, joined_cons, List.nil_append, List.cons_append,
            List.cons.injEq] at h
          exact absurd h.1 hc
      | cons q qs =>
          -- the first parts end at the same place, and behind them every part has its comma
          simp only [joined_cons, List.append_assoc] at h
          obtain ⟨rfl, hrest⟩ := hends p List.mem_cons_self q List.mem_cons_self _ _ h
          obtain ⟨rfl, hr⟩ := flatMap_comma_append_inj
            (fun a ha b hb => hends a (List.mem_cons_of_mem _ ha) b (List.mem_cons_of_mem _ hb))
            hcomma hrest
          exact ⟨rfl, hr⟩

/-- Parts with their closing mark tell where they end, when what follows does. -/
theorem EndsItself.joined {parts parts' : List (List Char)} {closing : Char} {c d : List Char}
    (hends : ∀ a ∈ parts, ∀ b ∈ parts', EndsItself a b) (hcomma : closing ≠ ',')
    (hstart : ∀ a ∈ parts, ∃ c rest, a = c :: rest ∧ c ≠ closing)
    (hstart' : ∀ a ∈ parts', ∃ c rest, a = c :: rest ∧ c ≠ closing) (h : EndsItself c d) :
    EndsItself (Json.joined parts ++ closing :: c) (Json.joined parts' ++ closing :: d) := by
  intro r r' heq
  simp only [List.append_assoc, List.cons_append] at heq
  obtain ⟨rfl, hrest⟩ := joined_append_inj hends hcomma hstart hstart' heq
  obtain ⟨rfl, hr⟩ := h _ _ hrest
  exact ⟨rfl, hr⟩

end DtoForge.Json
