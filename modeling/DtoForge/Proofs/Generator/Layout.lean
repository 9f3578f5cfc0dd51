import DtoForge.Generator.Source
import DtoForge.Proofs.Text.Lines

/-! # Layout — the final form of generated code

The lines of finished code end in no white space, none at either end is blank, and no more than the
limit are blank in a row (`Finished`). Finished lines in the middle of other code are kept as they
are (`finishedLines_of_pieces`). With nothing around them they are the whole code, so code in its
final form is left alone. -/

namespace DtoForge.Source

open scoped List
open Text

variable {limit run : Nat} {line : List Char} {lines front behind : List (List Char)}

/-! ## Blank lines in a row -/

theorem limitBlank_sublist (limit run : Nat) (lines : List (List Char)) :
    limitBlank limit run lines <+ lines := by
  induction lines generalizing run with
  | nil => exact List.Sublist.refl _
  | cons l ls ih =>
      rw [limitBlank]
      split
      · split
        · exact (ih (run + 1)).cons_cons l
        · exact (ih (run + 1)).cons l
      · exact (ih 0).cons_cons l

/-- Only blank lines are dropped. -/
theorem filter_limitBlank (limit run : Nat) (lines : List (List Char)) :
    (limitBlank limit run lines).filter (!·.isEmpty) = lines.filter (!·.isEmpty) := by
  induction lines generalizing run with
  | nil => rfl
  | cons l ls ih =>
      rw [limitBlank]
      split
      next hl =>
        rw [List.filter_cons_of_neg (by simpa using hl)]
        split
        · rw [List.filter_cons_of_neg (by simpa using hl), ih]
        · exact ih _
      next hl =>
        rw [List.filter_cons_of_pos (by simpa using hl), List.filter_cons_of_pos (by simpa using hl),
          ih]

theorem limitBlank_cons (hline : line ≠ []) (limit run : Nat) (behind : List (List Char)) :
    limitBlank limit run (line :: behind) = line :: limitBlank limit 0 behind := by
  rw [limitBlank, if_neg (by simpa using hline)]

/-- The count of blank lines starts anew at a line that is not blank. -/
theorem limitBlank_append_cons (hline : line ≠ []) (limit run : Nat)
    (front behind : List (List Char)) :
    limitBlank limit run (front ++ line :: behind) =
      limitBlank limit run front ++ line :: limitBlank limit 0 behind := by
  induction front generalizing run with
  | nil => exact limitBlank_cons hline limit run behind
  | cons l ls ih =>
      rw [List.cons_append, limitBlank, limitBlank]
      split
      · split
        · rw [ih, List.cons_append]
        · exact ih _
      · rw [ih, List.cons_append]

theorem replicate_succ_append {α : Type} (n : Nat) (a : α) (l : List α) :
    List.replicate (n + 1) a ++ l = List.replicate n a ++ a :: l := by
  rw [List.replicate_succ', List.append_assoc, List.singleton_append]

/-- No more blank lines than the limit are left in a row, with those just before. -/
theorem not_replicate_infix_limitBlank (limit run : Nat) (lines : List (List Char)) :
    ¬ List.replicate (limit + 1) [] <:+:
      List.replicate (min run limit) [] ++ limitBlank limit run lines := by
  induction lines generalizing run with
  | nil =>
      intro h
      have hlength := h.length_le
      rw [limitBlank, List.append_nil, List.length_replicate, List.length_replicate] at hlength
      omega
  | cons l ls ih =>
      rw [limitBlank]
      split
      next hl =>
        obtain rfl := List.isEmpty_iff.mp hl
        split
        next hrun =>
          have hmin : min (run + 1) limit = min run limit + 1 := by omega
          have hstep := ih (run + 1)
          rw [hmin, replicate_succ_append] at hstep
          exact hstep
        next hrun =>
          have hmin : min (run + 1) limit = min run limit := by omega
          exact hmin ▸ ih (run + 1)
      next hl =>
        intro h
        have hnot : l ∉ List.replicate (limit + 1) [] := fun hmem =>
          hl (List.isEmpty_iff.mpr (List.eq_of_mem_replicate hmem))
        rcases infix_of_append_cons _ hnot h with hbefore | hbehind
        · have hlength := hbefore.length_le
          rw [List.length_replicate, List.length_replicate] at hlength
          omega
        · have hrest := ih 0
          rw [Nat.zero_min] at hrest
          exact hrest hbehind

/-- Lines with no more blank ones in a row than the limit are left alone. -/
theorem limitBlank_eq_self (hrun : run ≤ limit)
    (h : ¬ List.replicate (limit + 1) [] <:+: List.replicate run [] ++ lines) :
    limitBlank limit run lines = lines := by
  induction lines generalizing run with
  | nil => rfl
  | cons l ls ih =>
      rw [limitBlank]
      split
      next hl =>
        obtain rfl := List.isEmpty_iff.mp hl
        have hmany : ¬ List.replicate (limit + 1) [] <:+: List.replicate (run + 1) [] ++ ls := by
          rw [replicate_succ_append]
          exact h
        have hlt : run < limit := by
          by_contra hge
          obtain rfl : run = limit := by omega
          exact hmany (List.prefix_append _ ls).isInfix
        rw [if_pos hlt, ih hlt hmany]
      next hl =>
        rw [ih (Nat.zero_le limit)]
        intro hls
        exact h (hls.trans ((List.suffix_cons l ls).trans (List.suffix_append _ _)).isInfix)

/-! ## Blank lines at the ends -/

/-- Lines without the blank ones at either end. -/
def dropEnds (lines : List (List Char)) : List (List Char) :=
  (lines.dropWhile List.isEmpty).rdropWhile List.isEmpty

theorem dropEnds_isInfix (lines : List (List Char)) : dropEnds lines <:+: lines := by
  have hleft : dropEnds lines <+: lines.dropWhile List.isEmpty := List.rdropWhile_prefix _ _
  exact hleft.isInfix.trans (List.dropWhile_suffix _).isInfix

theorem filter_dropEnds (lines : List (List Char)) :
    (dropEnds lines).filter (!·.isEmpty) = lines.filter (!·.isEmpty) := by
  have hdrop : ∀ ls : List (List Char),
      (ls.dropWhile List.isEmpty).filter (!·.isEmpty) = ls.filter (!·.isEmpty) := by
    intro ls
    induction ls with
    | nil => rfl
    | cons l ls ih =>
        rw [List.dropWhile_cons]
        split
        next hl => rw [ih, List.filter_cons_of_neg (by simpa using hl)]
        next => rfl
  rw [dropEnds, List.rdropWhile, List.filter_reverse, hdrop, ← List.filter_reverse,
    List.reverse_reverse, hdrop]

theorem dropEnds_of_blank (h : ∀ line ∈ lines, line = []) : dropEnds lines = [] := by
  rw [dropEnds, List.rdropWhile_eq_nil_iff]
  intro line hline
  rw [h line ((List.dropWhile_sublist _).subset hline)]
  rfl

theorem head?_dropEnds (lines : List (List Char)) : (dropEnds lines).head? ≠ some [] := by
  intro h
  obtain ⟨rest, hrest⟩ := List.rdropWhile_prefix List.isEmpty (l := lines.dropWhile List.isEmpty)
  have hhead : (lines.dropWhile List.isEmpty).head? = some [] := by
    rw [← hrest, List.head?_append]
    exact congrArg (·.or rest.head?) h
  have hnot := List.head?_dropWhile_not List.isEmpty lines
  rw [hhead] at hnot
  exact Bool.noConfusion hnot

theorem getLast?_dropEnds (lines : List (List Char)) : (dropEnds lines).getLast? ≠ some [] := by
  intro h
  have hne : dropEnds lines ≠ [] := by
    rintro hnil
    rw [hnil] at h
    cases h
  rw [List.getLast?_eq_getLast_of_ne_nil hne] at h
  have hlast := List.rdropWhile_last_not List.isEmpty (lines.dropWhile List.isEmpty) hne
  exact hlast (List.isEmpty_iff.mpr (Option.some.inj h))

theorem dropWhile_append_cons (hline : line ≠ []) (front behind : List (List Char)) :
    (front ++ line :: behind).dropWhile List.isEmpty =
      front.dropWhile List.isEmpty ++ line :: behind := by
  rw [List.dropWhile_append]
  split
  next hfront =>
    rw [List.isEmpty_iff.mp hfront, List.dropWhile_cons_of_neg (by simpa using hline)]
    rfl
  next => rfl

theorem rdropWhile_append_cons (hline : line ≠ []) (front behind : List (List Char)) :
    (front ++ line :: behind).rdropWhile List.isEmpty =
      front ++ line :: behind.rdropWhile List.isEmpty := by
  rw [List.rdropWhile, List.reverse_append, List.reverse_cons, List.append_assoc,
    List.singleton_append, dropWhile_append_cons hline]
  simp [List.rdropWhile]

/-! ## Finished lines -/

/-- Lines in their final form. -/
structure Finished (limit : Nat) (lines : List (List Char)) : Prop where
  whole : ∀ line ∈ lines, '\n' ∉ line
  trimmed : ∀ line ∈ lines, stripRight Unicode.isBlank line = line
  starts : lines.head? ≠ some []
  ends : lines.getLast? ≠ some []
  spaced : ¬ List.replicate (limit + 1) [] <:+: lines

namespace Finished

theorem exists_cons (h : Finished limit lines) (hne : lines ≠ []) :
    ∃ first rest, lines = first :: rest ∧ first ≠ [] := by
  obtain ⟨first, rest, rfl⟩ := List.exists_cons_of_ne_nil hne
  refine ⟨first, rest, rfl, ?_⟩
  rintro rfl
  exact h.starts rfl

theorem exists_concat (h : Finished limit lines) (hne : lines ≠ []) :
    ∃ rest last, lines = rest ++ [last] ∧ last ≠ [] := by
  rcases List.eq_nil_or_concat lines with rfl | ⟨rest, last, rfl⟩
  · exact absurd rfl hne
  · rw [List.concat_eq_append] at h ⊢
    refine ⟨rest, last, rfl, ?_⟩
    rintro rfl
    exact h.ends List.getLast?_concat

/-- Finished lines are left alone, whatever stands around them. -/
theorem limitBlank_append (h : Finished limit lines) (hne : lines ≠ [])
    (front behind : List (List Char)) :
    limitBlank limit 0 (front ++ lines ++ behind) =
      limitBlank limit 0 front ++ lines ++ limitBlank limit 0 behind := by
  obtain ⟨first, rest, rfl, hfirst⟩ := h.exists_cons hne
  rw [List.append_assoc, List.cons_append, limitBlank_append_cons hfirst, List.append_assoc,
    List.cons_append]
  congr 2
  by_cases hrest : rest = []
  · subst hrest
    rfl
  · obtain ⟨inner, last, hsplit, hlast⟩ := h.exists_concat hne
    cases inner with
    | nil => exact absurd (List.cons.inj hsplit).2 hrest
    | cons x inner =>
        obtain rfl : first = x := (List.cons.inj hsplit).1
        obtain rfl : rest = inner ++ [last] := (List.cons.inj hsplit).2
        have hinner : limitBlank limit 0 inner = inner := by
          apply limitBlank_eq_self (Nat.zero_le limit)
          intro hblank
          exact h.spaced (hblank.trans ⟨[first], [last], rfl⟩)
        rw [List.append_assoc, List.singleton_append, limitBlank_append_cons hlast, hinner,
          List.append_assoc, List.singleton_append]

theorem dropEnds_append (h : Finished limit lines) (hne : lines ≠ [])
    (front behind : List (List Char)) :
    dropEnds (front ++ lines ++ behind) =
      front.dropWhile List.isEmpty ++ lines ++ behind.rdropWhile List.isEmpty := by
  obtain ⟨first, rest, hfirst, hfirst'⟩ := h.exists_cons hne
  obtain ⟨inner, last, hlast, hlast'⟩ := h.exists_concat hne
  have hdrop : (front ++ lines ++ behind).dropWhile List.isEmpty =
      front.dropWhile List.isEmpty ++ lines ++ behind := by
    rw [hfirst, List.append_assoc, List.cons_append, dropWhile_append_cons hfirst',
      List.append_assoc, List.cons_append]
  rw [dropEnds, hdrop, hlast, ← List.append_assoc, List.append_assoc _ [last] behind,
    List.singleton_append, rdropWhile_append_cons hlast', List.append_assoc _ [last],
    List.singleton_append]

/-- The first and the last character of finished lines are no line feeds. -/
theorem head?_joinPieces (h : Finished limit lines) :
    (joinPieces '\n' lines).head? ≠ some '\n' := by
  by_cases hne : lines = []
  · subst hne
    exact nofun
  · obtain ⟨first, rest, rfl, hfirst⟩ := h.exists_cons hne
    obtain ⟨c, cs, rfl⟩ := List.exists_cons_of_ne_nil hfirst
    have hc : c ≠ '\n' := by
      rintro rfl
      exact h.whole _ List.mem_cons_self List.mem_cons_self
    cases rest with
    | nil => simpa [joinPieces] using hc
    | cons l ls => simpa [joinPieces] using hc

theorem getLast?_joinPieces (h : Finished limit lines) :
    (joinPieces '\n' lines).getLast? ≠ some '\n' := by
  by_cases hne : lines = []
  · subst hne
    exact nofun
  · obtain ⟨rest, last, rfl, hlast⟩ := h.exists_concat hne
    intro hfeed
    have hsuffix : last <:+ joinPieces '\n' (rest ++ [last]) :=
      joinPieces_suffix rest (List.cons_ne_nil last [])
    obtain ⟨early, hearly⟩ := hsuffix
    rw [← hearly, List.getLast?_append_of_ne_nil _ hlast] at hfeed
    exact h.whole last (by simp) (List.mem_of_getLast? hfeed)

end Finished

/-! ## The final form -/

/-- The lines of a text, without the white space at their ends. -/
def trimmedLines (code : List Char) : List (List Char) :=
  (splitPieces '\n' code).map (stripRight Unicode.isBlank)

theorem mem_trimmedLines {code : List Char} (h : line ∈ trimmedLines code) :
    '\n' ∉ line ∧ stripRight Unicode.isBlank line = line := by
  obtain ⟨piece, hpiece, rfl⟩ := List.mem_map.mp h
  refine ⟨fun hfeed => ?_, List.rdropWhile_idempotent _ _⟩
  have hleft : stripRight Unicode.isBlank piece <+: piece := List.rdropWhile_prefix _ _
  exact (mem_splitPieces hpiece (hleft.subset hfeed)).2 rfl

/-- The lines of code in its final form. -/
def finishedLines (limit : Nat) (code : List Char) : List (List Char) :=
  dropEnds (limitBlank limit 0 (trimmedLines code))

theorem toList_format (limit : Nat) (code : String) :
    (format limit code).toList = joinPieces '\n' (finishedLines limit code.toList) ++ ['\n'] := by
  rw [format, String.toList_ofList, strip_joinPieces]
  · rfl
  · intro line hline
    exact (mem_trimmedLines ((limitBlank_sublist _ _ _).subset hline)).1

theorem finished_finishedLines (limit : Nat) (code : List Char) :
    Finished limit (finishedLines limit code) := by
  have hmem : ∀ line ∈ finishedLines limit code, line ∈ trimmedLines code := fun line hline =>
    (limitBlank_sublist _ _ _).subset ((dropEnds_isInfix _).subset hline)
  refine ⟨fun line hline => (mem_trimmedLines (hmem line hline)).1,
    fun line hline => (mem_trimmedLines (hmem line hline)).2, head?_dropEnds _,
    getLast?_dropEnds _, fun hblank => ?_⟩
  have hnone := not_replicate_infix_limitBlank limit 0 (trimmedLines code)
  rw [Nat.zero_min] at hnone
  exact hnone (hblank.trans (dropEnds_isInfix _))

theorem filter_finishedLines (limit : Nat) (code : List Char) :
    (finishedLines limit code).filter (!·.isEmpty) =
      (trimmedLines code).filter (!·.isEmpty) := by
  rw [finishedLines, filter_dropEnds, filter_limitBlank]

/-- Finished lines in the middle of code are kept as they are. -/
theorem finishedLines_of_pieces {code : List Char} (front behind : List (List Char))
    (h : Finished limit lines) (hne : lines ≠ [])
    (hpieces : trimmedLines code = front ++ lines ++ behind) :
    finishedLines limit code = (limitBlank limit 0 front).dropWhile List.isEmpty ++ lines ++
      (limitBlank limit 0 behind).rdropWhile List.isEmpty := by
  rw [finishedLines, hpieces, h.limitBlank_append hne, h.dropEnds_append hne]

theorem trimmedLines_of_finished (h : Finished limit lines) (hne : lines ≠ []) :
    trimmedLines (joinPieces '\n' lines ++ ['\n']) = lines ++ [[]] := by
  rw [trimmedLines, splitPieces_append_cons, splitPieces_joinPieces hne h.whole, List.map_append,
    List.map_congr_left h.trimmed, List.map_id']
  rfl

/-- Finished lines are the lines of what they are joined to. -/
theorem finishedLines_of_finished (h : Finished limit lines) :
    finishedLines limit (joinPieces '\n' lines ++ ['\n']) = lines := by
  have hblank : ∀ ls : List (List Char), (∀ l ∈ ls, l = []) →
      ∀ l ∈ limitBlank limit 0 ls, l = [] := fun ls hls l hl =>
    hls l ((limitBlank_sublist _ _ _).subset hl)
  by_cases hne : lines = []
  · subst hne
    exact dropEnds_of_blank (hblank [[], []] (by simp))
  · have hpieces : trimmedLines (joinPieces '\n' lines ++ ['\n']) = [] ++ lines ++ [[]] :=
      trimmedLines_of_finished h hne
    have hbehind : (limitBlank limit 0 [[]]).rdropWhile List.isEmpty = [] := by
      rw [List.rdropWhile_eq_nil_iff]
      intro l hl
      rw [hblank [[]] (by simp) l hl]
      rfl
    rw [finishedLines_of_pieces [] [[]] h hne hpieces, hbehind, List.append_nil]
    rfl

/-! ## Settled texts -/

/-- Whether a text keeps its lines inside of code: no white space stands in front of a line feed,
and no more lines than the limit are blank in a row. -/
structure Settled (limit : Nat) (cs : List Char) : Prop where
  trimmed : ∀ c, [c, '\n'] <:+: cs → Unicode.isBlank c = true → c = '\n'
  spaced : ¬ List.replicate (limit + 2) '\n' <:+: cs

theorem settled_iff {cs : List Char} :
    Settled limit cs ↔
      (∀ piece ∈ (splitPieces '\n' cs).dropLast, stripRight Unicode.isBlank piece = piece) ∧
        ¬ List.replicate (limit + 2) '\n' <:+: cs :=
  ⟨fun h => ⟨forall_stripRight_eq_self_iff.mpr h.trimmed, h.spaced⟩,
    fun h => ⟨forall_stripRight_eq_self_iff.mp h.1, h.2⟩⟩

instance (limit : Nat) (cs : List Char) : Decidable (Settled limit cs) :=
  decidable_of_iff' _ settled_iff

theorem Settled.of_isInfix {cs ds : List Char} (h : Settled limit ds) (hpart : cs <:+: ds) :
    Settled limit cs where
  trimmed c hc := h.trimmed c (hc.trans hpart)
  spaced hfeeds := h.spaced (hfeeds.trans hpart)

theorem ne_lineFeed {c : Char} (hc : Unicode.isBlank c = false) : c ≠ '\n' := by
  rintro rfl
  exact absurd hc (by decide +kernel)

theorem settled_of_not_mem {cs : List Char} (h : '\n' ∉ cs) : Settled limit cs where
  trimmed c hc := absurd (hc.subset (by simp)) h
  spaced hfeeds := h (hfeeds.subset (by simp))

/-- A character that is no white space parts a text into two that are settled on their own. -/
theorem settled_append_cons_iff {cs ds : List Char} {c : Char} (hc : Unicode.isBlank c = false) :
    Settled limit (cs ++ c :: ds) ↔ Settled limit cs ∧ Settled limit ds := by
  have hfeed : c ≠ '\n' := ne_lineFeed hc
  constructor
  · intro h
    exact ⟨h.of_isInfix (List.prefix_append _ _).isInfix,
      h.of_isInfix ((List.suffix_cons c ds).trans (List.suffix_append _ _)).isInfix⟩
  · rintro ⟨hcs, hds⟩
    constructor
    · intro d hd hblank
      have hnot : c ∉ [d, '\n'] := by
        have hne : c ≠ d := by
          rintro rfl
          rw [hblank] at hc
          cases hc
        simp [hne, hfeed]
      rcases infix_of_append_cons _ hnot hd with hd | hd
      · exact hcs.trimmed d hd hblank
      · exact hds.trimmed d hd hblank
    · intro hfeeds
      have hnot : c ∉ List.replicate (limit + 2) '\n' := fun hmem =>
        hfeed (List.eq_of_mem_replicate hmem)
      rcases infix_of_append_cons _ hnot hfeeds with hfeeds | hfeeds
      · exact hcs.spaced hfeeds
      · exact hds.spaced hfeeds

/-- Code in its final form is settled. -/
theorem settled_format (limit : Nat) (code : String) :
    Settled limit (format limit code).toList := by
  have hfinished := finished_finishedLines limit code.toList
  have hsplit : splitPieces '\n' (format limit code).toList =
      splitPieces '\n' (joinPieces '\n' (finishedLines limit code.toList)) ++ [[]] := by
    rw [toList_format, splitPieces_append_cons]
    rfl
  by_cases hne : finishedLines limit code.toList = []
  · rw [hne] at hsplit
    refine settled_iff.mpr ⟨?_, ?_⟩
    · rw [hsplit]
      decide
    · rw [replicate_infix_iff]
      rintro ⟨front, behind, hfront, hbehind, hpieces⟩
      have hlength := congrArg List.length (hsplit.symm.trans hpieces)
      have hfront := List.length_pos_of_ne_nil hfront
      have hbehind := List.length_pos_of_ne_nil hbehind
      simp [joinPieces, splitPieces] at hlength
      omega
  · rw [splitPieces_joinPieces hne hfinished.whole] at hsplit
    refine settled_iff.mpr ⟨?_, ?_⟩
    · rw [hsplit, List.dropLast_concat]
      exact hfinished.trimmed
    · rw [replicate_infix_iff]
      rintro ⟨front, behind, -, hbehind, hpieces⟩
      obtain ⟨inner, last, rfl⟩ := (List.eq_nil_or_concat' behind).resolve_left hbehind
      rw [hsplit, ← List.append_assoc] at hpieces
      have hlines := List.append_inj_left' hpieces rfl
      exact hfinished.spaced (hlines ▸ ⟨front, inner, rfl⟩)

/-- The lines of a settled text are finished if it starts with no line feed and does not end in white
space. -/
theorem Settled.finished {cs : List Char} (h : Settled limit cs) (hstart : cs.head? ≠ some '\n')
    {c : Char} (hend : cs.getLast? = some c) (hc : Unicode.isBlank c = false) :
    Finished limit (splitPieces '\n' cs) := by
  have hfeed : c ≠ '\n' := ne_lineFeed hc
  obtain ⟨ds, rfl⟩ := List.getLast?_eq_some_iff.mp hend
  obtain ⟨early, last, hlast⟩ := exists_splitPieces_concat hfeed ds
  have htrimmed := (settled_iff.mp h).1
  have hstarts : (splitPieces '\n' (ds ++ [c])).head? ≠ some [] := by
    cases hds : ds ++ [c] with
    | nil => simp at hds
    | cons d rest =>
        rw [hds] at hstart
        have hd : d ≠ '\n' := fun heq => hstart (congrArg some heq)
        obtain ⟨piece, pieces, hpieces⟩ := splitPieces_cons_of_ne hd rest
        rw [hpieces]
        exact nofun
  have hends : (splitPieces '\n' (ds ++ [c])).getLast? ≠ some [] := by
    rw [hlast, List.getLast?_concat]
    simp
  refine ⟨fun line hline hmem => (mem_splitPieces hline hmem).2 rfl, ?_, hstarts, hends, ?_⟩
  · rw [hlast] at htrimmed ⊢
    rw [List.dropLast_concat] at htrimmed
    intro line hline
    rcases List.mem_append.mp hline with hline | hline
    · exact htrimmed line hline
    · rw [List.mem_singleton.mp hline, stripRight_concat_eq_self_iff]
      exact hc
  · rintro ⟨front, behind, hpieces⟩
    refine h.spaced (replicate_infix_iff.mpr ⟨front, behind, ?_, ?_, hpieces.symm⟩)
    · rintro rfl
      rw [← hpieces] at hstarts
      exact hstarts rfl
    · rintro rfl
      rw [← hpieces, List.append_nil, List.replicate_succ', ← List.append_assoc,
        List.getLast?_concat] at hends
      exact hends rfl

/-! ## Lines of a text -/

theorem trimmedLines_text_cons (line : String) (lines : Lines) :
    trimmedLines (text (line :: lines)).toList =
      trimmedLines line.toList ++ trimmedLines (text lines).toList := by
  have htext : (text (line :: lines)).toList = line.toList ++ '\n' :: (text lines).toList := by
    rw [text, List.map_cons, String.join_cons, String.toList_append, String.toList_append,
      List.append_assoc]
    rfl
  rw [htext, trimmedLines, splitPieces_append_cons, List.map_append, trimmedLines, trimmedLines]

theorem exists_trimmedLines_text {line : String} {lines : Lines} (h : line ∈ lines) :
    ∃ front behind,
      trimmedLines (text lines).toList = front ++ trimmedLines line.toList ++ behind := by
  induction lines with
  | nil => cases h
  | cons l ls ih =>
      rw [trimmedLines_text_cons]
      rcases List.mem_cons.mp h with rfl | h
      · exact ⟨[], _, rfl⟩
      · obtain ⟨front, behind, hpieces⟩ := ih h
        exact ⟨trimmedLines l.toList ++ front, behind, by rw [hpieces]; simp⟩

/-- A settled line of code that starts with no line feed and does not end in white space is kept as
it is. -/
theorem infix_format_text {line : String} {lines : Lines} (hmem : line ∈ lines)
    (h : Settled limit line.toList) (hstart : line.toList.head? ≠ some '\n') {c : Char}
    (hend : line.toList.getLast? = some c) (hc : Unicode.isBlank c = false) :
    line.toList <:+: (format limit (text lines)).toList := by
  obtain ⟨front, behind, hpieces⟩ := exists_trimmedLines_text hmem
  have hfinished := h.finished hstart hend hc
  have hne : splitPieces '\n' line.toList ≠ [] := splitPieces_ne_nil _ _
  have htrimmed : trimmedLines line.toList = splitPieces '\n' line.toList := by
    rw [trimmedLines, List.map_congr_left hfinished.trimmed, List.map_id']
  rw [htrimmed] at hpieces
  rw [toList_format, finishedLines_of_pieces front behind hfinished hne hpieces, List.append_assoc]
  have hjoined : joinPieces '\n' (splitPieces '\n' line.toList) <+:
      joinPieces '\n' (splitPieces '\n' line.toList ++
        (limitBlank limit 0 behind).rdropWhile List.isEmpty) := joinPieces_prefix hne _
  rw [joinPieces_splitPieces] at hjoined
  exact (hjoined.isInfix.trans (joinPieces_suffix _ (by simp [hne])).isInfix).trans
    (List.prefix_append _ _).isInfix

/-! ## Main results -/

/-- **The final form of code.** Code in its final form consists of lines, each ended by a line feed,
and code without lines is one line feed. No line ends in white space, neither the first nor the last
one is blank, and no more than the limit are blank in a row. The lines that are not blank are those of
the code without the white space at their ends. Code in its final form stays as it is. -/
theorem format_normal_form (limit : Nat) (code : String) :
    ∃ lines, Finished limit lines ∧
      (format limit code).toList = joinPieces '\n' lines ++ ['\n'] ∧
      (joinPieces '\n' lines).head? ≠ some '\n' ∧ (joinPieces '\n' lines).getLast? ≠ some '\n' ∧
      lines.filter (!·.isEmpty) = (trimmedLines code.toList).filter (!·.isEmpty) ∧
      Settled limit (format limit code).toList ∧
      format limit (format limit code) = format limit code := by
  have hfinished := finished_finishedLines limit code.toList
  refine ⟨_, hfinished, toList_format limit code, hfinished.head?_joinPieces,
    hfinished.getLast?_joinPieces, filter_finishedLines limit code.toList,
    settled_format limit code, ?_⟩
  rw [← String.toList_inj, toList_format, toList_format limit code,
    finishedLines_of_finished hfinished]

end DtoForge.Source
