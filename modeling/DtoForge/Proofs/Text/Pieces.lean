import Mathlib.Data.List.DropRight
import DtoForge.Text.Pieces

/-! # Pieces — what the parts of a text are made of

Stripping, squeezing and splitting add no characters but the mark. A text that starts outside a class
of characters still starts so after it was stripped of the class, and after the class was squeezed. A
stripped text neither starts nor ends in the class, a squeezed text has no two marks in a row, and such
texts stay as they are. -/

namespace DtoForge.Text

variable {p : Char → Bool} {c mark sep : Char} {cs : List Char}

/-! ## Stripping -/

theorem stripRight_cons_of_neg (hc : p c = false) (cs : List Char) :
    stripRight p (c :: cs) = c :: stripRight p cs := by
  rw [stripRight, stripRight, List.reverse_cons, List.dropWhile_append]
  split
  · next hall =>
      rw [List.isEmpty_iff.mp hall]
      simp [hc]
  · rw [List.reverse_append]
    rfl

theorem strip_cons_of_neg (hc : p c = false) (cs : List Char) :
    strip p (c :: cs) = c :: stripRight p cs := by
  rw [strip, List.dropWhile_cons_of_neg (by simp [hc]), stripRight_cons_of_neg hc]

theorem mem_of_mem_strip (h : c ∈ strip p cs) : c ∈ cs := by
  rw [strip, stripRight, List.mem_reverse] at h
  have h := (List.dropWhile_sublist p).subset h
  exact (List.dropWhile_sublist p).subset (List.mem_reverse.mp h)

theorem mem_dropWhile_iff (hc : p c = false) : c ∈ cs.dropWhile p ↔ c ∈ cs := by
  refine ⟨fun h => (List.dropWhile_sublist p).subset h, fun h => ?_⟩
  rw [← List.takeWhile_append_dropWhile (p := p) (l := cs)] at h
  refine (List.mem_append.mp h).resolve_left fun hmem => ?_
  rw [List.all_eq_true.mp List.all_takeWhile c hmem] at hc
  cases hc

/-- Stripping keeps whatever is outside the class. -/
theorem mem_strip_iff (hc : p c = false) : c ∈ strip p cs ↔ c ∈ cs := by
  rw [strip, stripRight, List.mem_reverse, mem_dropWhile_iff hc, List.mem_reverse,
    mem_dropWhile_iff hc]

/-- What is left of a text starts outside the class. -/
theorem strip_eq_nil_or_cons (p : Char → Bool) (cs : List Char) :
    strip p cs = [] ∨ ∃ c rest, strip p cs = c :: rest ∧ p c = false := by
  cases hcs : cs.dropWhile p with
  | nil => exact Or.inl (by rw [strip, hcs]; rfl)
  | cons c rest =>
      have hc : p c = false := by
        have hne : cs.dropWhile p ≠ [] := by simp [hcs]
        simpa [hcs] using List.head_dropWhile_not p hne
      exact Or.inr ⟨c, stripRight p rest, by rw [strip, hcs, stripRight_cons_of_neg hc], hc⟩

/-- What is left of a text starts outside the class. -/
theorem not_prefix_dropWhile (hc : p c = true) (cs : List Char) : ¬ [c] <+: cs.dropWhile p := by
  induction cs with
  | nil => simp
  | cons d ds ih =>
      rw [List.dropWhile_cons]
      split
      next => exact ih
      next hd =>
        rw [List.cons_prefix_cons]
        rintro ⟨rfl, -⟩
        exact hd hc

theorem strip_isPrefix (p : Char → Bool) (cs : List Char) : strip p cs <+: cs.dropWhile p :=
  List.rdropWhile_prefix p (cs.dropWhile p)

/-- Stripping cuts a part out of a text. -/
theorem strip_isInfix (p : Char → Bool) (cs : List Char) : strip p cs <:+: cs :=
  (strip_isPrefix p cs).isInfix.trans (List.dropWhile_suffix p).isInfix

/-- A stripped text neither starts nor ends in the class. -/
theorem not_prefix_strip (hc : p c = true) (cs : List Char) : ¬ [c] <+: strip p cs :=
  fun h => not_prefix_dropWhile hc cs (h.trans (strip_isPrefix p cs))

theorem not_suffix_strip (hc : p c = true) (cs : List Char) : ¬ [c] <:+ strip p cs := by
  rw [strip, stripRight, ← List.reverse_singleton, List.reverse_suffix]
  apply not_prefix_dropWhile hc

/-- A text that neither starts nor ends in the class stays as it is. -/
theorem strip_eq_self (hstart : ∀ c, p c = true → ¬ [c] <+: cs)
    (hend : ∀ c, p c = true → ¬ [c] <:+ cs) : strip p cs = cs := by
  have hleft : cs.dropWhile p = cs := by
    apply List.dropWhile_eq_self_iff.mpr
    intro hne hhead
    apply hstart _ hhead
    cases cs with
    | nil => cases hne
    | cons d ds => exact ⟨ds, rfl⟩
  have hright : cs.rdropWhile p = cs := by
    apply List.rdropWhile_eq_self_iff.mpr
    intro hne hlast
    apply hend _ hlast
    exact ⟨cs.dropLast, List.dropLast_append_getLast hne⟩
  rw [strip, hleft]
  exact hright

/-! ## Squeezing -/

theorem mem_squeezeFrom {inside : Bool} (h : c ∈ squeezeFrom p mark inside cs) :
    c = mark ∨ c ∈ cs ∧ p c = false := by
  induction cs generalizing inside with
  | nil => cases h
  | cons d ds ih =>
      have hrest : ∀ {inside}, c ∈ squeezeFrom p mark inside ds →
          c = mark ∨ c ∈ d :: ds ∧ p c = false := by
        intro inside h
        exact (ih h).imp id fun ⟨hmem, hc⟩ => ⟨List.mem_cons_of_mem d hmem, hc⟩
      rw [squeezeFrom] at h
      split at h
      · split at h
        · exact hrest h
        · rcases List.mem_cons.mp h with rfl | h
          · exact Or.inl rfl
          · exact hrest h
      · next hd =>
          rcases List.mem_cons.mp h with rfl | h
          · exact Or.inr ⟨List.mem_cons_self, by simpa using hd⟩
          · exact hrest h

/-- A squeezed text has no character of the class but the mark. -/
theorem mem_squeeze (h : c ∈ squeeze p mark cs) : c = mark ∨ c ∈ cs ∧ p c = false :=
  mem_squeezeFrom h

/-- Squeezing keeps whatever is outside the class, and adds the mark alone. -/
theorem mem_squeeze_iff (hc : p c = false) (hmark : c ≠ mark) :
    c ∈ squeeze p mark cs ↔ c ∈ cs := by
  have hfrom : ∀ inside, c ∈ cs → c ∈ squeezeFrom p mark inside cs := by
    induction cs with
    | nil => exact fun _ h => h
    | cons d ds ih =>
        intro inside h
        rw [squeezeFrom]
        rcases List.mem_cons.mp h with rfl | h
        · rw [if_neg (by simp [hc])]
          exact List.mem_cons_self
        · split
          · split
            · exact ih true h
            · exact List.mem_cons_of_mem _ (ih true h)
          · exact List.mem_cons_of_mem _ (ih false h)
  exact ⟨fun h => ((mem_squeeze h).resolve_left hmark).1, hfrom false⟩

theorem squeeze_cons_of_neg (hc : p c = false) (mark : Char) (cs : List Char) :
    squeeze p mark (c :: cs) = c :: squeeze p mark cs := by
  rw [squeeze, squeezeFrom, if_neg (by simp [hc]), squeeze]

theorem squeeze_cons_of_pos (hc : p c = true) (mark : Char) (cs : List Char) :
    squeeze p mark (c :: cs) = mark :: squeezeFrom p mark true cs := by
  rw [squeeze, squeezeFrom, if_pos hc]
  rfl

/-- After a run of the class nothing of the class is added, and no two marks come in a row. -/
theorem not_marks_infix_squeezeFrom (hmark : p mark = true) (inside : Bool) (cs : List Char) :
    (inside = true → ¬ [mark] <+: squeezeFrom p mark inside cs) ∧
      ¬ [mark, mark] <:+: squeezeFrom p mark inside cs := by
  -- a mark is written outside of runs alone, where the rest goes on inside of one
  induction cs generalizing inside with
  | nil => simp [squeezeFrom]
  | cons c cs ih =>
      rw [squeezeFrom]
      by_cases hc : p c = true
      · rw [if_pos hc]
        obtain ⟨hstart, hinfix⟩ := ih true
        cases inside with
        | true => exact ⟨hstart, hinfix⟩
        | false =>
            refine ⟨nofun, ?_⟩
            rw [if_neg nofun, List.infix_cons_iff, List.cons_prefix_cons]
            exact not_or.mpr ⟨fun h => hstart rfl h.2, hinfix⟩
      · rw [if_neg hc]
        have hne : mark ≠ c := by
          rintro rfl
          exact hc hmark
        refine ⟨fun _ h => hne (List.cons_prefix_cons.mp h).1, ?_⟩
        rw [List.infix_cons_iff, List.cons_prefix_cons]
        exact not_or.mpr ⟨fun h => hne h.1, (ih false).2⟩

/-- A squeezed text has no two marks in a row. -/
theorem not_marks_infix_squeeze (hmark : p mark = true) (cs : List Char) :
    ¬ [mark, mark] <:+: squeeze p mark cs :=
  (not_marks_infix_squeezeFrom hmark false cs).2

/-- A text without the class is squeezed to itself. -/
theorem squeeze_eq_self (h : ∀ c ∈ cs, p c = false) (mark : Char) : squeeze p mark cs = cs := by
  induction cs with
  | nil => rfl
  | cons c cs ih =>
      rw [List.forall_mem_cons] at h
      rw [squeeze_cons_of_neg h.1, ih h.2]

/-- A text without two marks in a row stays as it is when runs of the mark are squeezed. -/
theorem squeezeFrom_mark_eq_self {inside : Bool} (hinside : inside = true → ¬ [mark] <+: cs)
    (h : ¬ [mark, mark] <:+: cs) : squeezeFrom (· == mark) mark inside cs = cs := by
  induction cs generalizing inside with
  | nil => rfl
  | cons c cs ih =>
      rw [List.infix_cons_iff, not_or, List.cons_prefix_cons] at h
      rw [squeezeFrom]
      by_cases hc : mark = c
      · subst hc
        have houtside : inside = false := by
          rw [Bool.eq_false_iff]
          intro hin
          exact hinside hin ⟨cs, rfl⟩
        have hrest : squeezeFrom (· == mark) mark true cs = cs :=
          ih (fun _ hstart => h.1 ⟨rfl, hstart⟩) h.2
        rw [houtside, hrest]
        simp
      · have hrest : squeezeFrom (· == mark) mark false cs = cs := ih nofun h.2
        rw [hrest, if_neg (by simpa using Ne.symm hc)]

/-! ## Splitting -/

theorem mem_splitPieces {piece : List Char} (hpiece : piece ∈ splitPieces sep cs)
    (hc : c ∈ piece) : c ∈ cs ∧ c ≠ sep := by
  induction cs generalizing piece with
  | nil =>
      obtain rfl := List.mem_singleton.mp hpiece
      cases hc
  | cons d ds ih =>
      rw [splitPieces] at hpiece
      have hrest : ∀ {piece}, piece ∈ splitPieces sep ds → c ∈ piece → c ∈ d :: ds ∧ c ≠ sep := by
        intro piece hpiece hc
        obtain ⟨hmem, hsep⟩ := ih hpiece hc
        exact ⟨List.mem_cons_of_mem d hmem, hsep⟩
      split at hpiece
      · rcases List.mem_cons.mp hpiece with rfl | hpiece
        · cases hc
        · exact hrest hpiece hc
      · next hd =>
          have hhead : c = d → c ∈ d :: ds ∧ c ≠ sep := by
            rintro rfl
            exact ⟨List.mem_cons_self, hd⟩
          cases hpieces : splitPieces sep ds with
          | nil => exact absurd hpieces (splitPieces_ne_nil sep ds)
          | cons q qs =>
              rw [hpieces] at hpiece hrest
              rcases List.mem_cons.mp hpiece with rfl | hpiece
              · rcases List.mem_cons.mp hc with heq | hc
                · exact hhead heq
                · exact hrest List.mem_cons_self hc
              · exact hrest (List.mem_cons_of_mem q hpiece) hc

/-- Joining pieces adds separators alone. -/
theorem mem_joinPieces {pieces : List (List Char)} (h : c ∈ joinPieces sep pieces) :
    c = sep ∨ ∃ piece ∈ pieces, c ∈ piece := by
  induction pieces with
  | nil => cases h
  | cons p ps ih =>
      cases ps with
      | nil => exact Or.inr ⟨p, List.mem_cons_self, h⟩
      | cons q qs =>
          rw [joinPieces, List.mem_append, List.mem_cons] at h
          rcases h with h | h | h
          · exact Or.inr ⟨p, List.mem_cons_self, h⟩
          · exact Or.inl h
          · rcases ih h with hsep | ⟨piece, hpiece, hc⟩
            · exact Or.inl hsep
            · exact Or.inr ⟨piece, List.mem_cons_of_mem p hpiece, hc⟩

/-- Whatever is no separator stands in some piece. -/
theorem exists_mem_splitPieces_iff (hc : c ≠ sep) :
    (∃ piece ∈ splitPieces sep cs, c ∈ piece) ↔ c ∈ cs := by
  refine ⟨fun ⟨_, hpiece, hmem⟩ => (mem_splitPieces hpiece hmem).1, fun h => ?_⟩
  rw [← joinPieces_splitPieces sep cs] at h
  exact (mem_joinPieces h).resolve_left hc

theorem splitPieces_of_not_mem (h : sep ∉ cs) : splitPieces sep cs = [cs] := by
  induction cs with
  | nil => rfl
  | cons c cs ih =>
      rw [List.mem_cons, not_or] at h
      rw [splitPieces, if_neg (Ne.symm h.1), ih h.2]

/-- The first piece starts as the text does. -/
theorem splitPieces_cons_of_ne (hc : c ≠ sep) (cs : List Char) :
    ∃ piece pieces, splitPieces sep (c :: cs) = (c :: piece) :: pieces := by
  rw [splitPieces, if_neg hc]
  cases hpieces : splitPieces sep cs with
  | nil => exact absurd hpieces (splitPieces_ne_nil sep cs)
  | cons piece pieces => exact ⟨piece, pieces, rfl⟩

end DtoForge.Text
