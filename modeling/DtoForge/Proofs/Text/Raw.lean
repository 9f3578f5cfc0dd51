import Mathlib.Data.List.Basic
import DtoForge.Text.Raw

/-! # Raw texts — points, their order and pairs of halves

A text is told by its points and by their numbers, so texts are ordered like lists of numbers. A
character beyond the first plane has a surrogate pair, and the two halves make the character again
(`Half.join_highOf_lowOf`). A text is unsplit when no two halves in it stand side by side like the
pair of a character. -/

namespace DtoForge

/-! ## Points -/

/-- A character is a code point, and no half of a surrogate pair. -/
theorem toNat_valid (c : Char) :
    c.toNat < 0xd800 ∨ (0xdfff < c.toNat ∧ c.toNat < 0x110000) := by
  have hvalid := c.valid
  simp only [UInt32.isValidChar, Nat.isValidChar] at hvalid
  exact hvalid

theorem Half.unit_bounds (h : Half) : 0xd800 ≤ h.unit ∧ h.unit ≤ 0xdfff := by
  have hlt := h.isLt
  simp only [Half.unit]
  omega

theorem Point.code_injective : Function.Injective Point.code := by
  rintro (c | h) (d | l) heq
  · exact congrArg Point.char (Char.toNat_inj.mp heq)
  · have hvalid := toNat_valid c
    have hbounds := l.unit_bounds
    simp only [Point.code] at heq
    omega
  · have hvalid := toNat_valid d
    have hbounds := h.unit_bounds
    simp only [Point.code] at heq
    omega
  · exact congrArg Point.half (Fin.ext (Nat.add_left_cancel heq))

namespace RawText

theorem points_ofPoints (ps : List Point) : (ofPoints ps).points = ps := by
  rw [ofPoints]
  split
  · rfl
  · next hwhole =>
      rw [points_whole, String.toList_ofList, List.map_map]
      refine (List.map_congr_left fun p hp => ?_).trans (List.map_id ps)
      cases p with
      | char c => rfl
      | half h => exact absurd (List.any_eq_true.mpr ⟨_, hp, rfl⟩) hwhole

theorem ofPoints_points (s : RawText) : ofPoints s.points = s := by
  cases s with
  | whole s =>
      have hwhole : ¬ (s.toList.map Point.char).any Point.isHalf = true := by
        simp [Point.isHalf]
      have hshown : (s.toList.map Point.char).map Point.shownChar = s.toList := by
        rw [List.map_map]
        exact List.map_id _
      rw [points_whole, ofPoints, dif_neg hwhole, hshown, String.ofList_toList]
  | torn ps => exact dif_pos ps.property

theorem points_injective : Function.Injective points := by
  intro s t h
  rw [← ofPoints_points s, h, ofPoints_points]

theorem codes_injective : Function.Injective codes := fun _ _ h =>
  points_injective (Point.code_injective.list_map h)

theorem toList_legible (s : RawText) : s.legible.toList = s.points.map Point.shownChar := by
  cases s with
  | whole s =>
      rw [legible_whole, points_whole, List.map_map]
      exact (List.map_id _).symm
  | torn ps => exact String.toList_ofList

theorem points_append (s : RawText) (text : String) :
    (s.append text).points = s.points ++ text.toList.map .char := by
  cases s with
  | whole s => simp [append]
  | torn ps => exact points_ofPoints _

theorem isEmpty_iff {s : RawText} : s.isEmpty = true ↔ s = "" := by
  cases s with
  | whole s => simp [isEmpty, String.isEmpty_iff]
  | torn ps => simp [isEmpty]

/-! ## Order -/

section Order

variable {s t u : RawText}

protected theorem le_total (s t : RawText) : s ≤ t ∨ t ≤ s :=
  List.le_total s.codes t.codes

protected theorem le_trans (h : s ≤ t) (h' : t ≤ u) : s ≤ u :=
  List.le_trans h h'

protected theorem le_antisymm (h : s ≤ t) (h' : t ≤ s) : s = t :=
  codes_injective (List.le_antisymm h h')

protected theorem lt_irrefl (s : RawText) : ¬ s < s :=
  List.lt_irrefl s.codes

protected theorem lt_trans (h : s < t) (h' : t < u) : s < u :=
  List.lt_trans h h'

protected theorem not_lt : ¬ s < t ↔ t ≤ s :=
  Iff.rfl

end Order

end RawText

/-! ## Pairs of halves -/

/-- The first half of the pair of a character. -/
def Half.highOf (c : Char) : Half :=
  Fin.ofNat 0x800 ((c.toNat - 0x10000) / 0x400)

/-- The second half of the pair of a character. -/
def Half.lowOf (c : Char) : Half :=
  Fin.ofNat 0x800 (0x400 + (c.toNat - 0x10000) % 0x400)

section Halves

variable {c : Char} (hc : 0xffff < c.toNat)

theorem Half.val_lowOf (c : Char) :
    (Half.lowOf c).val = 0x400 + (c.toNat - 0x10000) % 0x400 := by
  simp only [Half.lowOf, Fin.val_ofNat]
  omega

theorem Half.isHigh_lowOf (c : Char) : (Half.lowOf c).isHigh = false := by
  rw [Half.isHigh, Half.val_lowOf]
  simp

include hc

theorem Half.val_highOf : (Half.highOf c).val = (c.toNat - 0x10000) / 0x400 := by
  have hvalid := toNat_valid c
  simp only [Half.highOf, Fin.val_ofNat]
  omega

theorem Half.isHigh_highOf : (Half.highOf c).isHigh = true := by
  have hvalid := toNat_valid c
  rw [Half.isHigh, Half.val_highOf hc, decide_eq_true_eq]
  omega

theorem Half.join_highOf_lowOf : (Half.highOf c).join (Half.lowOf c) = c := by
  have hsum : 0x10000 + (c.toNat - 0x10000) / 0x400 * 0x400 +
      (0x400 + (c.toNat - 0x10000) % 0x400 - 0x400) = c.toNat := by omega
  rw [Half.join, Half.val_highOf hc, Half.val_lowOf, hsum, Char.ofNat_toNat]

end Halves

/-- Whether a point is the first half of a pair and the next one a second half. -/
def Point.Splits (p q : Point) : Prop :=
  ∃ h l : Half, p = .half h ∧ q = .half l ∧ h.isHigh = true ∧ l.isHigh = false

namespace RawText

/-- Whether no two halves side by side would make a character. -/
def Unsplit (s : RawText) : Prop :=
  s.points.IsChain fun p q => ¬ p.Splits q

theorem unsplit_whole (s : String) : (whole s).Unsplit := by
  have hchain : ∀ cs : List Char, (cs.map Point.char).IsChain fun p q => ¬ p.Splits q := by
    intro cs
    induction cs with
    | nil => exact List.IsChain.nil
    | cons c cs ih =>
        cases cs with
        | nil => exact List.IsChain.singleton _
        | cons d cs => exact List.isChain_cons_cons.mpr ⟨nofun, ih⟩
  exact hchain s.toList

theorem eq_legible_of_isWhole {s : RawText} (h : s.isWhole = true) : s = s.legible := by
  cases s with
  | whole s => rfl
  | torn ps => cases h

theorem unsplit_of_isWhole {s : RawText} (h : s.isWhole = true) : s.Unsplit := by
  cases s with
  | whole s => exact unsplit_whole s
  | torn ps => cases h

theorem unsplit_point (p : Point) : (ofPoints [p]).Unsplit := by
  rw [Unsplit, points_ofPoints]
  exact List.IsChain.singleton p

end RawText

end DtoForge
