import Mathlib.Data.Nat.Cast.Order.Field
import DtoForge.Proofs.Number.Rounding

/-! # Shortest digits — what is written for a double is read as it

The digits that are written are the point of a decimal grid that reads back, so they are rounded to
the double (`readsBack_iff`). The search ends: on a grid finer than a quarter of the unit the point
below the double reads back, and a double has so few digits that one of the grids that are tried is
as fine (`shortest_rounds`). -/

namespace DtoForge.Number.Double

variable {mantissa : Nat} {exponent : Int}

/-! ## Points of a grid -/

section Quarters

variable (exponent) (point : Nat) (grid : Int)

/-- A point and a number of quarters of a unit, over one denominator. -/
theorem exists_quarters : ∃ scale : ℚ, 0 < scale ∧
    (((scaled point 10 grid).1 * (scaled 1 2 (exponent - 2)).2 : Nat) : ℚ) =
      point * 10 ^ grid / 2 ^ exponent * scale ∧
    ∀ quarters : Nat,
      ((quarters * (scaled 1 2 (exponent - 2)).1 * (scaled point 10 grid).2 : Nat) : ℚ) =
        quarters / 4 * scale := by
  have hpoint := scaled_value point 10 grid
  have hunit := scaled_value 1 2 (exponent - 2)
  have hpd : (0 : ℚ) < (scaled point 10 grid).2 := by exact_mod_cast scaled_den_pos (by decide)
  have hud : (0 : ℚ) < (scaled 1 2 (exponent - 2)).2 := by exact_mod_cast scaled_den_pos two_pos
  have hpower := two_zpow_pos exponent
  rw [div_eq_iff hpd.ne'] at hpoint
  rw [div_eq_iff hud.ne'] at hunit
  push_cast at hpoint hunit
  rw [zpow_sub₀ two_ne_zero] at hunit
  refine ⟨2 ^ exponent * (scaled 1 2 (exponent - 2)).2 * (scaled point 10 grid).2, by positivity,
    ?_, fun quarters => ?_⟩
  · push_cast
    rw [hpoint]
    field_simp
  · push_cast
    rw [hunit]
    ring

/-- The integers that are compared stand for the quarters and the point. -/
theorem quarters_le_iff (quarters : Nat) :
    quarters * (scaled 1 2 (exponent - 2)).1 * (scaled point 10 grid).2 ≤
        (scaled point 10 grid).1 * (scaled 1 2 (exponent - 2)).2 ↔
      (quarters : ℚ) / 4 ≤ point * 10 ^ grid / 2 ^ exponent := by
  obtain ⟨scale, hscale, hpoint, hquarters⟩ := exists_quarters exponent point grid
  rw [← Nat.cast_le (α := ℚ), hpoint, hquarters, mul_le_mul_iff_left₀ hscale]

theorem le_quarters_iff (quarters : Nat) :
    (scaled point 10 grid).1 * (scaled 1 2 (exponent - 2)).2 ≤
        quarters * (scaled 1 2 (exponent - 2)).1 * (scaled point 10 grid).2 ↔
      (point : ℚ) * 10 ^ grid / 2 ^ exponent ≤ quarters / 4 := by
  obtain ⟨scale, hscale, hpoint, hquarters⟩ := exists_quarters exponent point grid
  rw [← Nat.cast_le (α := ℚ), hpoint, hquarters, mul_le_mul_iff_left₀ hscale]

end Quarters

/-- What reads back lies between the ends in quarters, which count for an even mantissa. -/
theorem readsBack_eq (mantissa : Nat) (exponent : Int) (point : Nat) (grid : Int) :
    readsBack mantissa exponent point grid =
      if mantissa % 2 = 0 then
        decide ((4 * mantissa - lowGap mantissa exponent) * (scaled 1 2 (exponent - 2)).1 *
          (scaled point 10 grid).2 ≤ (scaled point 10 grid).1 * (scaled 1 2 (exponent - 2)).2) &&
        decide ((scaled point 10 grid).1 * (scaled 1 2 (exponent - 2)).2 ≤
          (4 * mantissa + 2) * (scaled 1 2 (exponent - 2)).1 * (scaled point 10 grid).2)
      else
        decide ((4 * mantissa - lowGap mantissa exponent) * (scaled 1 2 (exponent - 2)).1 *
          (scaled point 10 grid).2 < (scaled point 10 grid).1 * (scaled 1 2 (exponent - 2)).2) &&
        decide ((scaled point 10 grid).1 * (scaled 1 2 (exponent - 2)).2 <
          (4 * mantissa + 2) * (scaled 1 2 (exponent - 2)).1 * (scaled point 10 grid).2) := rfl

/-- A point that reads back is rounded to the double. -/
theorem readsBack_iff (hpos : 0 < mantissa) (point : Nat) (grid : Int) :
    readsBack mantissa exponent point grid = true ↔
      Rounds mantissa exponent (point * 10 ^ grid) := by
  have hgap : lowGap mantissa exponent ≤ 4 * mantissa := by
    rcases lowGap_cases mantissa exponent with ⟨-, -, h⟩ | ⟨-, h⟩ <;> omega
  have hlow : ((4 * mantissa - lowGap mantissa exponent : Nat) : ℚ) / 4 =
      mantissa - lowGap mantissa exponent / 4 := by
    rw [Nat.cast_sub hgap]
    push_cast
    ring
  have hhigh : ((4 * mantissa + 2 : Nat) : ℚ) / 4 = mantissa + 1 / 2 := by
    push_cast
    ring
  rw [readsBack_eq]
  split
  · next heven =>
      rw [Bool.and_eq_true, decide_eq_true_eq, decide_eq_true_eq, quarters_le_iff, le_quarters_iff,
        hlow, hhigh]
      exact ⟨fun ⟨h1, h2⟩ => ⟨h1, h2, fun hodd => by omega⟩, fun h => ⟨h.low, h.high⟩⟩
  · next hodd =>
      rw [Bool.and_eq_true, decide_eq_true_eq, decide_eq_true_eq, ← not_le, ← not_le,
        quarters_le_iff, le_quarters_iff, not_le, not_le, hlow, hhigh]
      exact ⟨fun ⟨h1, h2⟩ => ⟨h1.le, h2.le, fun _ => ⟨h1, h2⟩⟩, fun h => h.odd (by omega)⟩

theorem onGrid_rounds (hpos : 0 < mantissa) {grid : Int} {point : Nat}
    (h : onGrid mantissa exponent grid = some point) :
    0 < point ∧ Rounds mantissa exponent (point * 10 ^ grid) := by
  unfold onGrid at h
  simp only at h
  generalize neighbours _ _ grid = found at h
  obtain ⟨low, side⟩ := found
  have hlow : (low != 0 && readsBack mantissa exponent low grid) = true →
      0 < low ∧ Rounds mantissa exponent (low * 10 ^ grid) := by
    intro hlow
    rw [Bool.and_eq_true, bne_iff_ne, readsBack_iff hpos] at hlow
    exact ⟨Nat.pos_of_ne_zero hlow.1, hlow.2⟩
  have hhigh : readsBack mantissa exponent (low + 1) grid = true →
      0 < low + 1 ∧ Rounds mantissa exponent ((low + 1 : Nat) * 10 ^ grid) :=
    fun hhigh => ⟨Nat.succ_pos low, (readsBack_iff hpos _ _).mp hhigh⟩
  split at h
  · next h1 h2 =>
      split at h
      · cases h; exact hlow h1
      · cases h; exact hhigh h2
      · cases h
        split
        · exact hlow h1
        · exact hhigh h2
  · next h1 _ => cases h; exact hlow h1
  · next _ h2 => cases h; exact hhigh h2
  · cases h

/-- The lower neighbour of a number on a grid. -/
theorem neighbours_low {num den : Nat} (hden : 0 < den) (grid : Int) :
    ((neighbours num den grid).1 : ℚ) * 10 ^ grid ≤ num / den ∧
      (num : ℚ) / den < ((neighbours num den grid).1 + 1) * 10 ^ grid := by
  have hgrid : (0 : ℚ) < 10 ^ grid := zpow_pos (by norm_num) grid
  have hnum : 0 < (scaled 1 10 grid).1 := scaled_num_pos (by decide) Nat.one_pos
  have hpoint : 0 < den * (scaled 1 10 grid).1 := Nat.mul_pos hden hnum
  have hvalue := scaled_value 1 10 grid
  have hgd : (0 : ℚ) < (scaled 1 10 grid).2 := by exact_mod_cast scaled_den_pos (by decide)
  have hden' : (0 : ℚ) < den := by exact_mod_cast hden
  have hpoint' : (0 : ℚ) < ((den * (scaled 1 10 grid).1 : Nat) : ℚ) := by exact_mod_cast hpoint
  -- the quotient that is rounded down is the number in steps of the grid
  have hsteps : ((num * (scaled 1 10 grid).2 : Nat) : ℚ) / (den * (scaled 1 10 grid).1 : Nat) =
      num / den / 10 ^ grid := by
    rw [div_eq_iff hgd.ne'] at hvalue
    push_cast at hvalue ⊢
    rw [hvalue]
    field_simp
  show ((num * (scaled 1 10 grid).2 / (den * (scaled 1 10 grid).1) : Nat) : ℚ) * 10 ^ grid ≤ _ ∧
    _ < (((num * (scaled 1 10 grid).2 / (den * (scaled 1 10 grid).1) : Nat) : ℚ) + 1) * 10 ^ grid
  rw [← le_div_iff₀ hgrid, ← div_lt_iff₀ hgrid, ← hsteps]
  refine ⟨Nat.cast_div_le, ?_⟩
  rw [div_lt_iff₀ hpoint']
  exact_mod_cast (Nat.lt_mul_div_succ (num * _) hpoint).trans_eq (Nat.mul_comm _ _)

/-- On a grid as fine as a quarter of the unit some point reads back. -/
theorem exists_onGrid (hpos : 0 < mantissa) {grid : Int}
    (hfine : (10 : ℚ) ^ grid ≤ 2 ^ (exponent - 2))
    (hle : (10 : ℚ) ^ grid ≤ mantissa * 2 ^ exponent) :
    ∃ point, onGrid mantissa exponent grid = some point := by
  have hunit := two_zpow_pos exponent
  have hgrid : (0 : ℚ) < 10 ^ grid := zpow_pos (by norm_num) grid
  have hden : 0 < (scaled mantissa 2 exponent).2 := scaled_den_pos two_pos
  obtain ⟨hbelow, habove⟩ := neighbours_low hden grid
  rw [scaled_value] at hbelow habove
  push_cast at hbelow habove
  unfold onGrid
  simp only
  generalize neighbours _ _ grid = found at hbelow habove ⊢
  obtain ⟨low, side⟩ := found
  have hrounds : Rounds mantissa exponent (low * 10 ^ grid) := by
    have hquarter : (10 : ℚ) ^ grid ≤ 2 ^ exponent / 4 := by
      rw [zpow_sub₀ two_ne_zero] at hfine
      norm_num at hfine
      exact hfine
    have hgap : (1 : ℚ) / 4 ≤ lowGap mantissa exponent / 4 := by
      rcases lowGap_cases mantissa exponent with ⟨-, -, h⟩ | ⟨-, h⟩ <;> rw [h] <;> norm_num
    have hlow : (mantissa : ℚ) - lowGap mantissa exponent / 4 < low * 10 ^ grid / 2 ^ exponent := by
      rw [lt_div_iff₀ hunit]
      nlinarith
    have hhigh : (low : ℚ) * 10 ^ grid / 2 ^ exponent < mantissa + 1 / 2 := by
      rw [div_lt_iff₀ hunit]
      nlinarith
    exact ⟨hlow.le, hhigh.le, fun _ => ⟨hlow, hhigh⟩⟩
  have hlow : (low != 0 && readsBack mantissa exponent low grid) = true := by
    rw [Bool.and_eq_true, bne_iff_ne, readsBack_iff hpos]
    refine ⟨?_, hrounds⟩
    rintro rfl
    norm_num at habove
    linarith
  simp only at hlow ⊢
  rw [hlow]
  cases readsBack mantissa exponent (low + 1) grid with
  | false => exact ⟨low, rfl⟩
  | true => cases side <;> exact ⟨_, rfl⟩

/-! ## The search -/

theorem decimalSize_spec (hpos : 0 < mantissa) (exponent : Int) :
    (10 : ℚ) ^ (decimalSize mantissa exponent - 1) ≤ mantissa * 2 ^ exponent := by
  have hnum : 0 < (scaled mantissa 2 exponent).1 := scaled_num_pos two_pos hpos
  have hden : 0 < (scaled mantissa 2 exponent).2 := scaled_den_pos two_pos
  have hvalue := scaled_value mantissa 2 exponent
  push_cast at hvalue
  rw [← hvalue]
  unfold decimalSize
  generalize scaled mantissa 2 exponent = fraction at hnum hden
  obtain ⟨num, den⟩ := fraction
  simp only at hnum hden ⊢
  have hnum' : (0 : ℚ) < num := by exact_mod_cast hnum
  have hden' : (0 : ℚ) < den := by exact_mod_cast hden
  split
  · next h =>
      have hwhole : 0 < num / den := Nat.div_pos h hden
      have hpow := pow_digitCount_le hwhole
      have hcount : ((digitCount (num / den) : Int) - 1) = (digitCount (num / den) - 1 : Nat) := by
        have := digitCount_pos (num / den)
        omega
      rw [hcount, zpow_natCast]
      calc (10 : ℚ) ^ (digitCount (num / den) - 1) ≤ (num / den : Nat) := by exact_mod_cast hpow
        _ ≤ num / den := Nat.cast_div_le
  · have hinverse : (den : ℚ) / num ≤ 10 ^ digitCount (den / num) := by
      rw [div_le_iff₀ hnum']
      have hlt := Nat.lt_mul_div_succ den hnum
      have hpow : den / num + 1 ≤ 10 ^ digitCount (den / num) := lt_pow_digitCount _
      have hle : den ≤ 10 ^ digitCount (den / num) * num := by
        calc den ≤ num * (den / num + 1) := hlt.le
          _ = (den / num + 1) * num := Nat.mul_comm _ _
          _ ≤ 10 ^ digitCount (den / num) * num := Nat.mul_le_mul_right _ hpow
      exact_mod_cast hle
    rw [show 1 - (digitCount (den / num) : Int) - 1 = -(digitCount (den / num) : Int) by omega,
      zpow_neg, zpow_natCast, inv_le_comm₀ (by positivity) (by positivity), inv_div]
    exact hinverse

/-- The search ends on a grid with a point. -/
theorem onGrid_firstGrid {grid : Int} (fuel : Nat)
    (h : ∃ k < fuel, ∃ point, onGrid mantissa exponent (grid - k) = some point) :
    onGrid mantissa exponent (firstGrid mantissa exponent grid fuel).2 =
      some (firstGrid mantissa exponent grid fuel).1 := by
  induction fuel generalizing grid with
  | zero =>
      obtain ⟨k, hk, -⟩ := h
      cases hk
  | succ fuel ih =>
      rw [firstGrid]
      cases hgrid : onGrid mantissa exponent grid with
      | some point => exact hgrid
      | none =>
          apply ih
          obtain ⟨k, hk, point, hpoint⟩ := h
          cases k with
          | zero => simp [hgrid] at hpoint
          | succ k =>
              refine ⟨k, by omega, point, ?_⟩
              rw [← hpoint]
              congr 1
              omega

theorem trimZeros_spec (n : Nat) :
    (trimZeros n).1 * 10 ^ (trimZeros n).2 = n ∧ (0 < n → 0 < (trimZeros n).1) := by
  induction n using trimZeros.induct with
  | case1 n h m k hrest ih =>
      rw [hrest] at ih
      rw [trimZeros, dif_pos h, hrest]
      refine ⟨?_, fun _ => ih.2 (by omega)⟩
      show m * 10 ^ (k + 1) = n
      have := ih.1
      rw [Nat.pow_succ, ← Nat.mul_assoc, this]
      omega
  | case2 n h =>
      rw [trimZeros, dif_neg h]
      exact ⟨by simp, id⟩

/-- **The shortest digits are rounded to the double they are written for.** -/
theorem shortest_rounds (hdouble : IsDouble mantissa exponent) (hpos : 0 < mantissa) :
    0 < (shortest mantissa exponent).1 ∧
      Rounds mantissa exponent
        ((shortest mantissa exponent).1 * 10 ^ (shortest mantissa exponent).2) := by
  have hten : (10 : ℚ) ≠ 0 := by norm_num
  have hsize := decimalSize_spec hpos exponent
  -- eighteen digits below the size the grid is fine enough
  have hfound : ∃ point, onGrid mantissa exponent (decimalSize mantissa exponent - 18) =
      some point := by
    have hsplit : (10 : ℚ) ^ (decimalSize mantissa exponent - 18) =
        10 ^ (decimalSize mantissa exponent - 1) / 10 ^ 17 := by
      rw [eq_div_iff (by norm_num), ← zpow_natCast (10 : ℚ) 17, ← zpow_add₀ hten]
      congr 1
      omega
    have hmantissa : (mantissa : ℚ) ≤ 2 ^ 53 := by exact_mod_cast hdouble.mantissa_lt.le
    have hunit := two_zpow_pos exponent
    apply exists_onGrid hpos
    · rw [hsplit, div_le_iff₀ (by positivity), zpow_sub₀ two_ne_zero]
      norm_num
      nlinarith
    · rw [hsplit, div_le_iff₀ (by positivity)]
      norm_num
      nlinarith
  have hpoint := onGrid_firstGrid 20 ⟨18, by decide, hfound⟩
  obtain ⟨hpointpos, hrounds⟩ := onGrid_rounds hpos hpoint
  unfold shortest
  generalize firstGrid mantissa exponent _ 20 = found at hpointpos hrounds
  obtain ⟨point, grid⟩ := found
  obtain ⟨hvalue, htrimmed⟩ := trimZeros_spec point
  simp only at hpointpos hrounds ⊢
  refine ⟨htrimmed hpointpos, ?_⟩
  rw [zpow_add₀ hten, zpow_natCast, mul_comm ((10 : ℚ) ^ grid), ← mul_assoc]
  convert hrounds using 2
  exact_mod_cast hvalue

end DtoForge.Number.Double
