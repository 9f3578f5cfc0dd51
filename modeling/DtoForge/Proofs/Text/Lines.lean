import Mathlib.Data.List.DropRight
import Mathlib.Data.List.Infix
import DtoForge.Proofs.Text.Pieces

/-! # Lines — a text and its pieces between separators

Pieces without separators are the pieces of what they are joined to, and stripping the separators
from a text drops the empty pieces at its ends. What stands in front of a separator is the end of a
piece, and separators in a row have empty pieces between them. -/

namespace DtoForge.Text

variable {sep : Char} {pieces : List (List Char)} {cs : List Char}

/-! ## Joining -/

theorem joinPieces_cons (piece : List Char) (h : pieces ≠ []) :
    joinPieces sep (piece :: pieces) = piece ++ sep :: joinPieces sep pieces := by
  cases pieces with
  | nil => exact absurd rfl h
  | cons q qs => rfl

theorem joinPieces_append {front behind : List (List Char)} (hfront : front ≠ [])
    (hbehind : behind ≠ []) :
    joinPieces sep (front ++ behind) = joinPieces sep front ++ sep :: joinPieces sep behind := by
  induction front with
  | nil => exact absurd rfl hfront
  | cons p ps ih =>
      by_cases hps : ps = []
      · subst hps
        exact joinPieces_cons p hbehind
      · rw [List.cons_append, joinPieces_cons p (by simp [hps]), ih hps, joinPieces_cons p hps,
          List.append_assoc, List.cons_append]

theorem joinPieces_prefix {front : List (List Char)} (hfront : front ≠ [])
    (behind : List (List Char)) : joinPieces sep front <+: joinPieces sep (front ++ behind) := by
  by_cases hbehind : behind = []
  · subst hbehind
    rw [List.append_nil]
  · exact ⟨sep :: joinPieces sep behind, (joinPieces_append hfront hbehind).symm⟩

theorem joinPieces_suffix (front : List (List Char)) {behind : List (List Char)}
    (hbehind : behind ≠ []) : joinPieces sep behind <:+ joinPieces sep (front ++ behind) := by
  by_cases hfront : front = []
  · subst hfront
    exact List.suffix_refl _
  · exact ⟨joinPieces sep front ++ [sep], by rw [joinPieces_append hfront hbehind]; simp⟩

theorem joinPieces_replicate_append (n : Nat) (h : pieces ≠ []) :
    joinPieces sep (List.replicate n [] ++ pieces) =
      List.replicate n sep ++ joinPieces sep pieces := by
  induction n with
  | zero => rfl
  | succ n ih =>
      rw [List.replicate_succ, List.cons_append, joinPieces_cons [] (by simp [h]), ih]
      rfl

/-- Joining from behind joins the pieces read from behind. -/
theorem reverse_joinPieces (sep : Char) (pieces : List (List Char)) :
    (joinPieces sep pieces).reverse = joinPieces sep (pieces.map List.reverse).reverse := by
  induction pieces with
  | nil => rfl
  | cons p ps ih =>
      by_cases hps : ps = []
      · subst hps
        rfl
      · rw [joinPieces_cons p hps, List.reverse_append, List.reverse_cons, ih, List.map_cons,
          List.reverse_cons, joinPieces_append (by simp [hps]) (by simp), List.append_assoc]
        rfl

/-! ## Splitting -/

theorem splitPieces_append_cons (sep : Char) (front behind : List Char) :
    splitPieces sep (front ++ sep :: behind) = splitPieces sep front ++ splitPieces sep behind := by
  induction front with
  | nil => simp [splitPieces]
  | cons c cs ih =>
      rw [List.cons_append, splitPieces, splitPieces, ih]
      by_cases hc : c = sep
      · rw [if_pos hc, if_pos hc]
        rfl
      · rw [if_neg hc, if_neg hc]
        cases hcs : splitPieces sep cs with
        | nil => exact absurd hcs (splitPieces_ne_nil sep cs)
        | cons p ps => rfl

/-- Pieces without separators are those of what they are joined to. -/
theorem splitPieces_joinPieces (hne : pieces ≠ []) (h : ∀ piece ∈ pieces, sep ∉ piece) :
    splitPieces sep (joinPieces sep pieces) = pieces := by
  induction pieces with
  | nil => exact absurd rfl hne
  | cons p ps ih =>
      obtain ⟨hp, hps⟩ := List.forall_mem_cons.mp h
      by_cases hnil : ps = []
      · subst hnil
        exact splitPieces_of_not_mem hp
      · rw [joinPieces_cons p hnil, splitPieces_append_cons, splitPieces_of_not_mem hp, ih hnil hps]
        rfl

/-- Between separators in a row stand empty pieces. -/
theorem splitPieces_replicate (sep : Char) (n : Nat) (front behind : List Char) :
    splitPieces sep (front ++ List.replicate (n + 1) sep ++ behind) =
      splitPieces sep front ++ List.replicate n [] ++ splitPieces sep behind := by
  rw [List.replicate_succ, List.append_assoc, List.cons_append, splitPieces_append_cons,
    List.append_assoc]
  congr 1
  induction n with
  | zero => rfl
  | succ n ih => rw [List.replicate_succ, List.cons_append, splitPieces, if_pos rfl, ih]; rfl

/-- The last piece ends as the text does. -/
theorem exists_splitPieces_concat {c : Char} (hc : c ≠ sep) (cs : List Char) :
    ∃ front last, splitPieces sep (cs ++ [c]) = front ++ [last ++ [c]] := by
  induction cs with
  | nil => exact ⟨[], [], by simp [splitPieces, hc]⟩
  | cons d ds ih =>
      obtain ⟨front, last, hsplit⟩ := ih
      rw [List.cons_append, splitPieces, hsplit]
      by_cases hd : d = sep
      · exact ⟨[] :: front, last, by rw [if_pos hd]; rfl⟩
      · rw [if_neg hd]
        cases front with
        | nil => exact ⟨[], d :: last, rfl⟩
        | cons p ps => exact ⟨(d :: p) :: ps, last, rfl⟩

/-! ## Stripping -/

theorem dropWhile_joinPieces (h : ∀ piece ∈ pieces, sep ∉ piece) :
    (joinPieces sep pieces).dropWhile (· == sep) =
      joinPieces sep (pieces.dropWhile List.isEmpty) := by
  induction pieces with
  | nil => rfl
  | cons p ps ih =>
      obtain ⟨hp, hps⟩ := List.forall_mem_cons.mp h
      cases p with
      | nil =>
          rw [List.dropWhile_cons_of_pos rfl]
          by_cases hnil : ps = []
          · subst hnil
            rfl
          · rw [joinPieces_cons [] hnil, List.nil_append, List.dropWhile_cons_of_pos (by simp)]
            exact ih hps
      | cons c cs =>
          have hc : c ≠ sep := fun heq => hp (heq ▸ List.mem_cons_self)
          rw [List.dropWhile_cons_of_neg (p := List.isEmpty) (by simp)]
          obtain ⟨rest, hrest⟩ : ∃ rest, joinPieces sep ((c :: cs) :: ps) = c :: rest := by
            cases ps with
            | nil => exact ⟨cs, rfl⟩
            | cons q qs => exact ⟨_, rfl⟩
          rw [hrest, List.dropWhile_cons_of_neg (by simpa using hc)]

theorem stripRight_joinPieces (h : ∀ piece ∈ pieces, sep ∉ piece) :
    stripRight (· == sep) (joinPieces sep pieces) =
      joinPieces sep (pieces.rdropWhile List.isEmpty) := by
  have hreverse : ∀ piece ∈ (pieces.map List.reverse).reverse, sep ∉ piece := by
    intro piece hpiece
    obtain ⟨p, hp, rfl⟩ := List.mem_map.mp (List.mem_reverse.mp hpiece)
    exact fun hsep => h p hp (List.mem_reverse.mp hsep)
  have hempty : (List.isEmpty ∘ List.reverse : List Char → Bool) = List.isEmpty := by
    funext l
    simp
  rw [stripRight, reverse_joinPieces, dropWhile_joinPieces hreverse, reverse_joinPieces,
    List.rdropWhile, ← List.map_reverse (l := pieces), List.dropWhile_map, hempty, List.map_map,
    List.reverse_involutive.comp_self, List.map_id]

/-- Stripping the separators from a text drops the empty pieces at its ends. -/
theorem strip_joinPieces (h : ∀ piece ∈ pieces, sep ∉ piece) :
    strip (· == sep) (joinPieces sep pieces) =
      joinPieces sep ((pieces.dropWhile List.isEmpty).rdropWhile List.isEmpty) := by
  rw [strip, dropWhile_joinPieces h]
  exact stripRight_joinPieces fun piece hpiece =>
    h piece ((List.dropWhile_sublist _).subset hpiece)

/-! ## Pieces that are not empty -/

theorem splitPieces_cons_self (sep : Char) (cs : List Char) :
    splitPieces sep (sep :: cs) = [] :: splitPieces sep cs := by
  rw [splitPieces, if_pos rfl]

/-- Squeezing the separators keeps the first piece and, of the others, those that are not empty. Right
behind a separator it may drop the first piece too, if that is empty. -/
theorem splitPieces_squeezeFrom (sep : Char) (cs : List Char) :
    (∃ piece ps qs, splitPieces sep (squeezeFrom (· == sep) sep false cs) = piece :: ps ∧
      splitPieces sep cs = piece :: qs ∧ ps.filter (!·.isEmpty) = qs.filter (!·.isEmpty)) ∧
    (splitPieces sep (squeezeFrom (· == sep) sep true cs)).filter (!·.isEmpty) =
      (splitPieces sep cs).filter (!·.isEmpty) := by
  induction cs with
  | nil => exact ⟨⟨[], [], [], rfl, rfl, rfl⟩, rfl⟩
  | cons c cs ih =>
      obtain ⟨⟨piece, ps, qs, hsqueezed, hsplit, hrest⟩, hinside⟩ := ih
      simp only [squeezeFrom, beq_iff_eq]
      by_cases hc : c = sep
      · subst hc
        simp only [if_true, Bool.false_eq_true, if_false, splitPieces_cons_self]
        exact ⟨⟨[], _, _, rfl, rfl, hinside⟩, hinside⟩
      · have hfirst : splitPieces sep (c :: squeezeFrom (· == sep) sep false cs) =
            (c :: piece) :: ps := by
          rw [splitPieces, if_neg hc, hsqueezed]
        have hwhole : splitPieces sep (c :: cs) = (c :: piece) :: qs := by
          rw [splitPieces, if_neg hc, hsplit]
        rw [if_neg hc, if_neg hc, hfirst, hwhole]
        refine ⟨⟨c :: piece, ps, qs, rfl, rfl, hrest⟩, ?_⟩
        rw [List.filter_cons_of_pos rfl, List.filter_cons_of_pos rfl, hrest]

theorem filter_splitPieces_squeeze (sep : Char) (cs : List Char) :
    (splitPieces sep (squeeze (· == sep) sep cs)).filter (!·.isEmpty) =
      (splitPieces sep cs).filter (!·.isEmpty) := by
  obtain ⟨⟨piece, ps, qs, hsqueezed, hsplit, hrest⟩, -⟩ := splitPieces_squeezeFrom sep cs
  rw [squeeze, hsqueezed, hsplit, List.filter_cons, List.filter_cons, hrest]

theorem filter_splitPieces_strip (sep : Char) (cs : List Char) :
    (splitPieces sep (strip (· == sep) cs)).filter (!·.isEmpty) =
      (splitPieces sep cs).filter (!·.isEmpty) := by
  have hleft : ∀ cs, (splitPieces sep (cs.dropWhile (· == sep))).filter (!·.isEmpty) =
      (splitPieces sep cs).filter (!·.isEmpty) := by
    intro cs
    induction cs with
    | nil => rfl
    | cons c cs ih =>
        rw [List.dropWhile_cons]
        split
        next hc =>
          rw [ih, beq_iff_eq.mp hc, splitPieces_cons_self, List.filter_cons_of_neg (by simp)]
        next => rfl
  have hright : ∀ cs, (splitPieces sep (stripRight (· == sep) cs)).filter (!·.isEmpty) =
      (splitPieces sep cs).filter (!·.isEmpty) := by
    intro cs
    induction cs using List.reverseRecOn with
    | nil => rfl
    | append_singleton cs c ih =>
        rw [stripRight, ← List.rdropWhile, List.rdropWhile_concat]
        split
        next hc =>
          rw [List.rdropWhile, ← stripRight, ih, beq_iff_eq.mp hc, splitPieces_append_cons,
            List.filter_append]
          exact (List.append_nil _).symm
        next => rfl
  rw [strip, hright, hleft]

/-! ## What stands around a separator -/

section

variable {α : Type} {a : α} {part behind : List α}

theorem prefix_of_append_cons (front : List α) (ha : a ∉ part)
    (h : part <+: front ++ a :: behind) : part <+: front := by
  rw [List.append_cons] at h
  rcases List.prefix_or_prefix_of_prefix h (List.prefix_append _ behind) with hshort | hlong
  · rcases List.prefix_concat_iff.mp hshort with rfl | hfront
    · exact absurd (by simp) ha
    · exact hfront
  · exact absurd (hlong.subset (by simp)) ha

/-- A part stands on one side of what it does not hold. -/
theorem infix_of_append_cons (front : List α) (ha : a ∉ part)
    (h : part <:+: front ++ a :: behind) : part <:+: front ∨ part <:+: behind := by
  induction front with
  | nil =>
      rcases List.infix_cons_iff.mp h with hfirst | hbehind
      · exact .inl (prefix_of_append_cons [] ha hfirst).isInfix
      · exact .inr hbehind
  | cons b bs ih =>
      rcases List.infix_cons_iff.mp h with hfirst | hrest
      · exact .inl (prefix_of_append_cons (b :: bs) ha hfirst).isInfix
      · exact (ih hrest).imp_left fun hbs => List.infix_cons_iff.mpr (.inr hbs)

end

theorem stripRight_concat_eq_self_iff {p : Char → Bool} {c : Char} :
    stripRight p (cs ++ [c]) = cs ++ [c] ↔ p c = false := by
  show List.rdropWhile p (cs ++ [c]) = cs ++ [c] ↔ _
  rw [List.rdropWhile_concat]
  cases p c with
  | false => exact iff_of_true rfl rfl
  | true =>
      refine iff_of_false (fun h => ?_) nofun
      have hleft := List.rdropWhile_prefix p (l := cs)
      have hlength := hleft.length_le
      rw [if_pos rfl] at h
      rw [h, List.length_append, List.length_singleton] at hlength
      omega

theorem exists_of_mem_dropLast {α : Type} {l : List α} {a : α} (h : a ∈ l.dropLast) :
    ∃ front behind, behind ≠ [] ∧ l = front ++ a :: behind := by
  obtain ⟨front, behind, hsplit⟩ := List.append_of_mem h
  have hne : l ≠ [] := by
    rintro rfl
    cases h
  refine ⟨front, behind ++ [l.getLast hne], by simp, ?_⟩
  calc l = l.dropLast ++ [l.getLast hne] := (List.dropLast_append_getLast hne).symm
    _ = front ++ a :: (behind ++ [l.getLast hne]) := by rw [hsplit, List.append_assoc]; rfl

/-- No piece but the last ends in a class exactly if nothing of the class stands in front of a
separator but another separator. -/
theorem forall_stripRight_eq_self_iff {p : Char → Bool} :
    (∀ piece ∈ (splitPieces sep cs).dropLast, stripRight p piece = piece) ↔
      ∀ c, [c, sep] <:+: cs → p c = true → c = sep := by
  constructor
  · rintro h c ⟨front, behind, rfl⟩ hpc
    by_contra hc
    obtain ⟨early, last, hlast⟩ := exists_splitPieces_concat hc front
    have hsplit : splitPieces sep (front ++ [c, sep] ++ behind) =
        early ++ (last ++ [c]) :: splitPieces sep behind := by
      rw [List.append_assoc, List.cons_append, List.singleton_append, List.append_cons,
        splitPieces_append_cons, hlast, List.append_assoc]
      rfl
    have hmem : last ++ [c] ∈ (splitPieces sep (front ++ [c, sep] ++ behind)).dropLast := by
      rw [hsplit, List.dropLast_append_of_ne_nil (by simp), List.dropLast_cons_of_ne_nil
        (splitPieces_ne_nil sep behind)]
      simp
    rw [stripRight_concat_eq_self_iff.mp (h _ hmem)] at hpc
    cases hpc
  · intro h piece hpiece
    obtain ⟨front, behind, hbehind, hsplit⟩ := exists_of_mem_dropLast hpiece
    have hno : sep ∉ piece := fun hsep =>
      (mem_splitPieces ((List.dropLast_sublist _).subset hpiece) hsep).2 rfl
    rcases List.eq_nil_or_concat piece with rfl | ⟨init, c, rfl⟩
    · rfl
    · rw [List.concat_eq_append] at hno hsplit ⊢
      rw [stripRight_concat_eq_self_iff, Bool.eq_false_iff]
      intro hpc
      have hstands : [c, sep] <:+: cs := by
        rw [← joinPieces_splitPieces sep cs, hsplit]
        refine List.IsInfix.trans ?_ (joinPieces_suffix front (by simp)).isInfix
        rw [joinPieces_cons _ hbehind]
        exact ⟨init, joinPieces sep behind, by simp⟩
      exact hno (h c hstands hpc ▸ List.mem_append_right _ List.mem_cons_self)

/-- Separators in a row stand around empty pieces within a text. -/
theorem replicate_infix_iff {n : Nat} :
    List.replicate (n + 1) sep <:+: cs ↔
      ∃ front behind, front ≠ [] ∧ behind ≠ [] ∧
        splitPieces sep cs = front ++ List.replicate n [] ++ behind := by
  constructor
  · rintro ⟨front, behind, rfl⟩
    exact ⟨_, _, splitPieces_ne_nil sep front, splitPieces_ne_nil sep behind,
      splitPieces_replicate sep n front behind⟩
  · rintro ⟨front, behind, hfront, hbehind, hsplit⟩
    rw [← joinPieces_splitPieces sep cs, hsplit, List.append_assoc,
      joinPieces_append hfront (by simp [hbehind]), joinPieces_replicate_append n hbehind]
    exact ⟨joinPieces sep front, joinPieces sep behind, by simp [List.replicate_succ]⟩

end DtoForge.Text
