import Mathlib.Algebra.Order.Field.Power
import Mathlib.Algebra.Order.Field.Rat
import Mathlib.Tactic.FieldSimp
import Mathlib.Tactic.Linarith
import Mathlib.Tactic.NormNum
import Mathlib.Tactic.Positivity
import Mathlib.Tactic.Ring
import DtoForge.Number.Double

/-! # Rounding — which fractions are read as a double

A fraction is scaled so that its whole part has 53 binary digits, or fewer near zero, and rounded to
the nearest integer, a half to the even one. `Double.Rounds` is the interval of the fractions that
become a given double: half a unit to both sides, below a power of two a quarter, the ends counting
for an even mantissa. `ofDecimal_of_rounds` says that all of them are read as that double, and
`canonical_ofDecimal` that nothing but doubles is read. -/

namespace DtoForge.Number

/-! ## Fractions -/

section Scaled

variable {mantissa base : Nat} {exponent : Int}

theorem scaled_den_pos (hbase : 0 < base) : 0 < (Double.scaled mantissa base exponent).2 := by
  unfold Double.scaled
  split
  · exact Nat.one_pos
  · exact Nat.pow_pos hbase

theorem scaled_num_pos (hbase : 0 < base) (h : 0 < mantissa) :
    0 < (Double.scaled mantissa base exponent).1 := by
  unfold Double.scaled
  split
  · exact Nat.mul_pos h (Nat.pow_pos hbase)
  · exact h

/-- A scaled fraction has the value it is made for. -/
theorem scaled_value (mantissa base : Nat) (exponent : Int) :
    ((Double.scaled mantissa base exponent).1 : ℚ) / (Double.scaled mantissa base exponent).2 =
      mantissa * (base : ℚ) ^ exponent := by
  unfold Double.scaled
  split
  · next h =>
      obtain ⟨n, rfl⟩ := Int.eq_ofNat_of_zero_le h
      simp
  · next h =>
      obtain ⟨n, hn⟩ := Int.eq_ofNat_of_zero_le (show 0 ≤ -exponent by omega)
      obtain rfl : exponent = -(n : Int) := by omega
      simp [div_eq_mul_inv]

end Scaled

namespace Double

/-! ## Rounding to an integer -/

/-- An integer is nearest to a number; one that is as near to its neighbour is even. -/
structure Nearest (x : ℚ) (n : Nat) : Prop where
  low : (n : ℚ) - 1 / 2 ≤ x
  high : x ≤ n + 1 / 2
  even : n % 2 = 1 → (n : ℚ) - 1 / 2 < x ∧ x < n + 1 / 2

theorem Nearest.unique {x : ℚ} {m n : Nat} (hm : Nearest x m) (hn : Nearest x n) : m = n := by
  wlog hle : m ≤ n generalizing m n
  · exact (this hn hm (by omega)).symm
  by_contra hne
  -- neighbours that are both as near as half a unit: one of them is odd
  have hlow : (n : ℚ) ≤ m + 1 := by
    have := hn.low
    have := hm.high
    linarith
  obtain rfl : n = m + 1 := by
    have : n ≤ m + 1 := by exact_mod_cast hlow
    omega
  have hxm := hm.high
  have hxn := hn.low
  push_cast at hxn
  rcases Nat.mod_two_eq_zero_or_one m with h | h
  · have hodd := (hn.even (by omega)).1
    push_cast at hodd
    linarith
  · have hodd := (hm.even h).2
    linarith

theorem nearest_roundHalfEven {num den : Nat} (hden : 0 < den) :
    Nearest ((num : ℚ) / den) (roundHalfEven num den) := by
  have hden' : (0 : ℚ) < den := by exact_mod_cast hden
  have hsplit : (num : ℚ) / den = (num / den : Nat) + (num % den : Nat) / (den : ℚ) := by
    rw [add_div' _ _ _ hden'.ne']
    congr 1
    exact_mod_cast (Nat.div_add_mod' num den).symm
  have hpos : (0 : ℚ) ≤ (num % den : Nat) / (den : ℚ) := by positivity
  have hlt : (num % den : Nat) / (den : ℚ) < 1 := by
    rw [div_lt_one hden']
    exact_mod_cast Nat.mod_lt num hden
  rw [hsplit, roundHalfEven]
  generalize num / den = q
  by_cases hlow : 2 * (num % den) < den
  · have hhalf : (num % den : Nat) / (den : ℚ) < 1 / 2 := by
      rw [div_lt_div_iff₀ hden' two_pos]
      exact_mod_cast (by omega : num % den * 2 < 1 * den)
    simp only [if_pos hlow]
    exact ⟨by linarith, by linarith, fun _ => ⟨by linarith, by linarith⟩⟩
  by_cases hhigh : den < 2 * (num % den)
  · have hhalf : 1 / 2 < (num % den : Nat) / (den : ℚ) := by
      rw [div_lt_div_iff₀ two_pos hden']
      exact_mod_cast (by omega : 1 * den < num % den * 2)
    simp only [if_neg hlow, if_pos hhigh]
    constructor <;> push_cast
    · linarith
    · linarith
    · exact fun _ => ⟨by linarith, by linarith⟩
  · -- halfway, and the even neighbour is taken
    have hhalf : (num % den : Nat) / (den : ℚ) = 1 / 2 := by
      rw [div_eq_div_iff hden'.ne' two_ne_zero]
      exact_mod_cast (by omega : num % den * 2 = 1 * den)
    simp only [if_neg hlow, if_neg hhigh, hhalf]
    split
    · exact ⟨by linarith, by linarith, fun _ => by omega⟩
    · constructor <;> push_cast
      · linarith
      · linarith
      · exact fun _ => by omega

/-! ## The first binary digit -/

/-- The power of two that the first binary digit of a fraction stands for. -/
def magnitude (num den : Nat) : Int :=
  let estimate : Int := (Nat.log2 num : Int) - Nat.log2 den
  let below :=
    let (n, d) := scaled den 2 estimate
    num * d < n
  if below then estimate - 1 else estimate

theorem two_zpow_pos (e : Int) : (0 : ℚ) < 2 ^ e := zpow_pos two_pos e

theorem magnitude_spec {num den : Nat} (hnum : 0 < num) (hden : 0 < den) :
    (2 : ℚ) ^ magnitude num den ≤ num / den ∧ (num : ℚ) / den < 2 ^ (magnitude num den + 1) := by
  have hden' : (0 : ℚ) < den := by exact_mod_cast hden
  have hnumlow : (2 : ℚ) ^ (num.log2 : Int) ≤ num := by
    exact_mod_cast Nat.log2_self_le hnum.ne'
  have hnumhigh : (num : ℚ) < 2 ^ ((num.log2 : Int) + 1) := by
    exact_mod_cast Nat.lt_log2_self
  have hdenlow : (2 : ℚ) ^ (den.log2 : Int) ≤ den := by
    exact_mod_cast Nat.log2_self_le hden.ne'
  have hdenhigh : (den : ℚ) < 2 ^ ((den.log2 : Int) + 1) := by
    exact_mod_cast Nat.lt_log2_self
  generalize hestimate : (num.log2 : Int) - den.log2 = estimate
  have hlow : (2 : ℚ) ^ (estimate - 1) < num / den := by
    rw [lt_div_iff₀ hden']
    calc (2 : ℚ) ^ (estimate - 1) * den
        < 2 ^ (estimate - 1) * 2 ^ ((den.log2 : Int) + 1) := by gcongr
      _ = 2 ^ (num.log2 : Int) := by
        rw [← zpow_add₀ two_ne_zero]
        congr 1
        omega
      _ ≤ num := hnumlow
  have hhigh : (num : ℚ) / den < 2 ^ (estimate + 1) := by
    rw [div_lt_iff₀ hden']
    calc (num : ℚ) < 2 ^ ((num.log2 : Int) + 1) := hnumhigh
      _ = 2 ^ (estimate + 1) * 2 ^ (den.log2 : Int) := by
        rw [← zpow_add₀ two_ne_zero]
        congr 1
        omega
      _ ≤ 2 ^ (estimate + 1) * den := by gcongr
  have hbelow : num * (scaled den 2 estimate).2 < (scaled den 2 estimate).1 ↔
      (num : ℚ) / den < 2 ^ estimate := by
    have hpos : (0 : ℚ) < (scaled den 2 estimate).2 := by exact_mod_cast scaled_den_pos two_pos
    have hvalue := scaled_value den 2 estimate
    rw [div_eq_iff hpos.ne'] at hvalue
    rw [div_lt_iff₀ hden', ← mul_lt_mul_iff_of_pos_right hpos, mul_comm (2 ^ estimate) (den : ℚ)]
    push_cast at hvalue
    rw [← hvalue]
    exact_mod_cast Iff.rfl
  rw [magnitude]
  simp only [hestimate, hbelow]
  split
  · next h => exact ⟨hlow.le, by rwa [sub_add_cancel]⟩
  · next h => exact ⟨not_lt.mp h, hhigh⟩

/-! ## Reading a fraction -/

/-- A fraction in units of a power of two. -/
def inUnits (num den : Nat) (exponent : Int) : Nat × Nat :=
  if 0 ≤ exponent then (num, den * Nat.pow 2 exponent.toNat)
  else (num * Nat.pow 2 (-exponent).toNat, den)

theorem inUnits_den_pos {num den : Nat} (hden : 0 < den) (exponent : Int) :
    0 < (inUnits num den exponent).2 := by
  unfold inUnits
  split
  · exact Nat.mul_pos hden (Nat.pow_pos two_pos)
  · exact hden

theorem inUnits_value (num den : Nat) (exponent : Int) :
    ((inUnits num den exponent).1 : ℚ) / (inUnits num den exponent).2 =
      num / den / 2 ^ exponent := by
  unfold inUnits
  split
  · next h =>
      obtain ⟨n, rfl⟩ := Int.eq_ofNat_of_zero_le h
      simp [div_div]
  · next h =>
      obtain ⟨n, hn⟩ := Int.eq_ofNat_of_zero_le (show 0 ≤ -exponent by omega)
      obtain rfl : exponent = -(n : Int) := by omega
      simp [div_mul_eq_mul_div]

/-- The double of a rounded mantissa, which may have become a power of two more. -/
def ofMantissa (negative : Bool) (mantissa : Nat) (exponent : Int) : Double :=
  let (mantissa, exponent) :=
    if mantissa = Nat.pow 2 53 then (Nat.pow 2 52, exponent + 1) else (mantissa, exponent)
  if 971 < exponent then .infinite negative else .finite negative mantissa exponent

/-- A fraction is rounded in units of 53 digits less than its own, but at least the least unit. -/
theorem exists_ofFraction_eq (negative : Bool) {num den : Nat} (hden : 0 < den) :
    ∃ mantissa exponent, exponent = max (magnitude num den - 52) (-1074) ∧
      Nearest ((num : ℚ) / den / 2 ^ exponent) mantissa ∧
      ofFraction negative num den = ofMantissa negative mantissa exponent := by
  refine ⟨_, _, rfl, ?_, rfl⟩
  rw [← inUnits_value]
  exact nearest_roundHalfEven (inUnits_den_pos hden _)

/-! ## Doubles -/

/-- The mantissa and exponent of a double: 53 binary digits, or fewer of the least unit. -/
structure IsDouble (mantissa : Nat) (exponent : Int) : Prop where
  mantissa_lt : mantissa < 2 ^ 53
  least : -1074 ≤ exponent
  greatest : exponent ≤ 971
  full : 2 ^ 52 ≤ mantissa ∨ exponent = -1074

/-- What a double is made of, if it is finite. -/
def Canonical : Double → Prop
  | .finite _ mantissa exponent => IsDouble mantissa exponent
  | _ => True

/-- How far below itself a double reaches, in quarters of its unit. Below a power of two the unit is
halved. -/
def lowGap (mantissa : Nat) (exponent : Int) : Nat :=
  if mantissa = 2 ^ 52 ∧ -1074 < exponent then 1 else 2

theorem lowGap_cases (mantissa : Nat) (exponent : Int) :
    (mantissa = 2 ^ 52 ∧ -1074 < exponent ∧ lowGap mantissa exponent = 1) ∨
      (¬ (mantissa = 2 ^ 52 ∧ -1074 < exponent) ∧ lowGap mantissa exponent = 2) := by
  unfold lowGap
  split
  · next h => exact .inl ⟨h.1, h.2, rfl⟩
  · next h => exact .inr ⟨h, rfl⟩

/-- A number is rounded to a double: it lies within half a unit, or within a quarter below a power
of two, and the ends count for an even mantissa. -/
structure Rounds (mantissa : Nat) (exponent : Int) (x : ℚ) : Prop where
  low : (mantissa : ℚ) - lowGap mantissa exponent / 4 ≤ x / 2 ^ exponent
  high : x / 2 ^ exponent ≤ mantissa + 1 / 2
  odd : mantissa % 2 = 1 → (mantissa : ℚ) - lowGap mantissa exponent / 4 < x / 2 ^ exponent ∧
    x / 2 ^ exponent < mantissa + 1 / 2

section Rounds

variable {mantissa : Nat} {exponent : Int} {x : ℚ}

theorem Rounds.nearest (h : Rounds mantissa exponent x) : Nearest (x / 2 ^ exponent) mantissa := by
  have hgap : (lowGap mantissa exponent : ℚ) / 4 ≤ 1 / 2 := by
    rcases lowGap_cases mantissa exponent with ⟨-, -, hgap⟩ | ⟨-, hgap⟩ <;> rw [hgap] <;> norm_num
  refine ⟨by linarith [h.low], h.high, fun hodd => ?_⟩
  obtain ⟨hlow, hhigh⟩ := h.odd hodd
  exact ⟨by linarith, hhigh⟩

theorem Rounds.lt (h : Rounds mantissa exponent x) (hdouble : IsDouble mantissa exponent) :
    x < 2 ^ (exponent + 53) := by
  have hunit := two_zpow_pos exponent
  have hmantissa : (mantissa : ℚ) + 1 ≤ 2 ^ 53 := by exact_mod_cast hdouble.mantissa_lt
  have hhigh := h.high
  rw [zpow_add₀ two_ne_zero, ← div_lt_iff₀' hunit]
  norm_num at hmantissa ⊢
  linarith

theorem ofMantissa_of_isDouble (negative : Bool) (h : IsDouble mantissa exponent) :
    ofMantissa negative mantissa exponent = .finite negative mantissa exponent := by
  have hne : mantissa ≠ Nat.pow 2 53 := by
    have := h.mantissa_lt
    simp only [Nat.pow_eq]
    omega
  rw [ofMantissa]
  simp only [if_neg hne]
  exact if_neg (not_lt.mpr h.greatest)

/-- Only a power of two is reached from below the first mantissa, and from no further than a
quarter. -/
theorem Rounds.eq_power (h : Rounds mantissa exponent x) (hdouble : IsDouble mantissa exponent)
    (hexponent : exponent ≠ -1074) (hbelow : x < 2 ^ (exponent + 52)) :
    mantissa = 2 ^ 52 ∧ (2 : ℚ) ^ 52 - 1 / 4 ≤ x / 2 ^ exponent ∧ x / 2 ^ exponent < 2 ^ 52 := by
  have hfull : 2 ^ 52 ≤ mantissa := hdouble.full.resolve_right hexponent
  have hquotient : x / 2 ^ exponent < 2 ^ 52 := by
    rw [zpow_add₀ two_ne_zero, ← div_lt_iff₀' (two_zpow_pos exponent)] at hbelow
    exact_mod_cast hbelow
  have hlow := h.low
  obtain rfl : mantissa = 2 ^ 52 := by
    have hgap : (lowGap mantissa exponent : ℚ) ≤ 2 := by
      rcases lowGap_cases mantissa exponent with ⟨-, -, hgap⟩ | ⟨-, hgap⟩ <;> simp [hgap]
    have hlt : (mantissa : ℚ) < 2 ^ 52 + 1 := by linarith
    have hlt' : mantissa < 2 ^ 52 + 1 := by exact_mod_cast hlt
    omega
  have hgap : lowGap (2 ^ 52) exponent = 1 := by
    have hleast := hdouble.least
    exact if_pos ⟨rfl, by omega⟩
  rw [hgap] at hlow
  exact ⟨rfl, by exact_mod_cast hlow, hquotient⟩

/-- In units half as large, what reaches a power of two from below is rounded up to it. -/
theorem nearest_half_unit (hlow : (2 : ℚ) ^ 52 - 1 / 4 ≤ x / 2 ^ exponent)
    (hhigh : x / 2 ^ exponent < 2 ^ 52) : Nearest (x / 2 ^ (exponent - 1)) (2 ^ 53) := by
  have hdoubled : x / 2 ^ (exponent - 1) = 2 * (x / 2 ^ exponent) := by
    rw [zpow_sub_one₀ two_ne_zero]
    field_simp
  rw [hdoubled]
  norm_num at hlow hhigh
  constructor
  · norm_num
    linarith
  · norm_num
    linarith
  · exact fun hodd => absurd hodd (by decide)

/-- The double of a fraction is the one that it is rounded to. -/
theorem ofFraction_of_rounds (negative : Bool) (hdouble : IsDouble mantissa exponent)
    {num den : Nat} (hnum : 0 < num) (hden : 0 < den)
    (h : Rounds mantissa exponent ((num : ℚ) / den)) :
    ofFraction negative num den = .finite negative mantissa exponent := by
  obtain ⟨mantissa', exponent', hexponent, hnearest, heq⟩ := exists_ofFraction_eq negative hden
  obtain ⟨hlow, hhigh⟩ := magnitude_spec hnum hden
  have hupper : magnitude num den < exponent + 53 :=
    (zpow_lt_zpow_iff_right₀ one_lt_two).mp (hlow.trans_lt (h.lt hdouble))
  have hleast := hdouble.least
  have hgreatest := hdouble.greatest
  rw [heq]
  by_cases hpart : exponent = -1074 ∨ (2 : ℚ) ^ (exponent + 52) ≤ num / den
  · -- the unit of the fraction is that of the double
    obtain rfl : exponent' = exponent := by
      rcases hpart with hleast | hpower
      · omega
      · have hlower : exponent + 52 < magnitude num den + 1 :=
          (zpow_lt_zpow_iff_right₀ one_lt_two).mp (hpower.trans_lt hhigh)
        omega
    rw [hnearest.unique h.nearest]
    exact ofMantissa_of_isDouble negative hdouble
  · -- the fraction is just below a power of two, where the unit is half as large
    obtain ⟨hother, hpower⟩ := not_or.mp hpart
    obtain ⟨rfl, hreach, hquotient⟩ := h.eq_power hdouble hother (not_le.mp hpower)
    have hlower : exponent + 51 < magnitude num den + 1 := by
      refine (zpow_lt_zpow_iff_right₀ one_lt_two).mp (lt_of_le_of_lt ?_ hhigh)
      rw [zpow_add₀ two_ne_zero, ← le_div_iff₀' (two_zpow_pos exponent)]
      norm_num at hreach ⊢
      linarith
    have hbounded : magnitude num den < exponent + 52 :=
      (zpow_lt_zpow_iff_right₀ one_lt_two).mp (hlow.trans_lt (not_le.mp hpower))
    obtain rfl : exponent' = exponent - 1 := by omega
    rw [hnearest.unique (nearest_half_unit hreach hquotient), ofMantissa]
    simp [Nat.pow_eq, hgreatest]

end Rounds

theorem canonical_ofMantissa (negative : Bool) {mantissa : Nat} {exponent : Int}
    (hmantissa : mantissa ≤ 2 ^ 53) (hleast : -1074 ≤ exponent)
    (hfull : 2 ^ 52 ≤ mantissa ∨ exponent = -1074) :
    (ofMantissa negative mantissa exponent).Canonical := by
  unfold ofMantissa
  by_cases hcarry : mantissa = Nat.pow 2 53
  · simp only [if_pos hcarry]
    split
    · trivial
    · exact ⟨by decide, by omega, by omega, .inl (Nat.le_refl _)⟩
  · simp only [if_neg hcarry]
    rw [Nat.pow_eq] at hcarry
    split
    · trivial
    · exact ⟨by omega, hleast, by omega, hfull⟩

/-- Every fraction is read as a double. -/
theorem canonical_ofFraction (negative : Bool) {num den : Nat} (hnum : 0 < num) (hden : 0 < den) :
    (ofFraction negative num den).Canonical := by
  obtain ⟨mantissa, exponent, hexponent, hnearest, heq⟩ := exists_ofFraction_eq negative hden
  obtain ⟨hlow, hhigh⟩ := magnitude_spec hnum hden
  have hunit := two_zpow_pos exponent
  rw [heq]
  apply canonical_ofMantissa
  · have hlt : (num : ℚ) / den / 2 ^ exponent < 2 ^ 53 := by
      have hpower : (num : ℚ) / den < 2 ^ (exponent + 53) :=
        hhigh.trans_le (zpow_le_zpow_right₀ one_le_two (by omega))
      rw [zpow_add₀ two_ne_zero, ← div_lt_iff₀' hunit] at hpower
      exact_mod_cast hpower
    have hmantissa : (mantissa : ℚ) < 2 ^ 53 + 1 := by linarith [hnearest.low]
    have hmantissa' : mantissa < 2 ^ 53 + 1 := by exact_mod_cast hmantissa
    omega
  · omega
  · by_cases hleast : exponent = -1074
    · exact .inr hleast
    · left
      have hge : (2 : ℚ) ^ 52 ≤ num / den / 2 ^ exponent := by
        have hpower : (2 : ℚ) ^ (exponent + 52) ≤ num / den := by
          convert hlow using 2
          omega
        rw [zpow_add₀ two_ne_zero, ← le_div_iff₀' hunit] at hpower
        exact_mod_cast hpower
      have hmantissa : (2 : ℚ) ^ 52 < mantissa + 1 := by linarith [hnearest.high]
      have hmantissa' : 2 ^ 52 < mantissa + 1 := by exact_mod_cast hmantissa
      omega

/-! ## Reading a decimal -/

theorem lt_pow_digitCount (n : Nat) : n < 10 ^ digitCount n := by
  induction n using digitCount.induct with
  | case1 n h => rwa [digitCount, dif_pos h]
  | case2 n h ih =>
      rw [digitCount, dif_neg h, Nat.pow_succ]
      omega

theorem digitCount_pos (n : Nat) : 0 < digitCount n := by
  rw [digitCount]
  split <;> omega

theorem pow_digitCount_le {n : Nat} (h : 0 < n) : 10 ^ (digitCount n - 1) ≤ n := by
  induction n using digitCount.induct with
  | case1 n hsmall => rw [digitCount, dif_pos hsmall]; exact h
  | case2 n hlarge ih =>
      have hrest := ih (by omega)
      have hpos := digitCount_pos (n / 10)
      rw [digitCount, dif_neg hlarge, Nat.add_sub_cancel]
      calc 10 ^ digitCount (n / 10) = 10 ^ (digitCount (n / 10) - 1) * 10 := by
            rw [← Nat.pow_succ, Nat.succ_eq_add_one, Nat.sub_add_cancel hpos]
        _ ≤ n := by omega

/-- The size of a decimal, by the count of its digits. -/
theorem decimal_bounds {digits : Nat} (h : 0 < digits) (power : Int) :
    (10 : ℚ) ^ ((digitCount digits : Int) + power - 1) ≤ digits * 10 ^ power ∧
      (digits : ℚ) * 10 ^ power < 10 ^ ((digitCount digits : Int) + power) := by
  have hten : (10 : ℚ) ≠ 0 := by norm_num
  have hlow : ((10 ^ (digitCount digits - 1) : Nat) : ℚ) ≤ digits := by
    exact_mod_cast pow_digitCount_le h
  have hhigh : (digits : ℚ) < ((10 ^ digitCount digits : Nat) : ℚ) := by
    exact_mod_cast lt_pow_digitCount digits
  have hcount : ((digitCount digits - 1 : Nat) : Int) = digitCount digits - 1 := by
    have := digitCount_pos digits
    omega
  push_cast at hlow hhigh
  rw [← zpow_natCast] at hlow hhigh
  constructor
  · calc (10 : ℚ) ^ ((digitCount digits : Int) + power - 1)
        = 10 ^ ((digitCount digits - 1 : Nat) : Int) * 10 ^ power := by
          rw [← zpow_add₀ hten, hcount]
          congr 1
          omega
      _ ≤ digits * 10 ^ power := by gcongr
  · rw [zpow_add₀ hten]
    gcongr

/-- The doubles lie far inside the range in which decimals are looked at. -/
theorem two_zpow_lt_ten_zpow : (2 : ℚ) ^ (135 * 8 : Int) < 10 ^ (50 * 8 : Int) := by
  rw [zpow_mul, zpow_mul]
  norm_num

theorem canonical_ofDecimal (negative : Bool) (digits : Nat) (power : Int) :
    (ofDecimal negative digits power).Canonical := by
  have hzero : (Double.finite negative 0 (-1074)).Canonical :=
    ⟨by decide, by decide, by decide, .inr rfl⟩
  unfold ofDecimal
  split
  · exact hzero
  · next h =>
      dsimp only
      split
      · trivial
      · split
        · exact hzero
        · exact canonical_ofFraction negative
            (scaled_num_pos (by decide) (Nat.pos_of_ne_zero h)) (scaled_den_pos (by decide))

/-- **Every decimal that is rounded to a double is read as it.** -/
theorem ofDecimal_of_rounds (negative : Bool) {mantissa : Nat} {exponent : Int}
    (hdouble : IsDouble mantissa exponent) (hpos : 0 < mantissa) {digits : Nat} {power : Int}
    (h : Rounds mantissa exponent (digits * 10 ^ power)) :
    ofDecimal negative digits power = .finite negative mantissa exponent := by
  have hunit := two_zpow_pos exponent
  have hleast : (2 : ℚ) ^ (-1075 : Int) ≤ digits * 10 ^ power := by
    have hhalf : (1 : ℚ) / 2 ≤ digits * 10 ^ power / 2 ^ exponent := by
      have hone : (1 : ℚ) ≤ mantissa := by exact_mod_cast hpos
      linarith [h.nearest.low]
    rw [le_div_iff₀ hunit] at hhalf
    calc (2 : ℚ) ^ (-1074 - 1 : Int) = 1 / 2 * 2 ^ (-1074 : Int) := by
          rw [zpow_sub_one₀ two_ne_zero]
          ring
      _ ≤ 1 / 2 * 2 ^ exponent := by
        have := zpow_le_zpow_right₀ (one_le_two (α := ℚ)) hdouble.least
        gcongr
      _ ≤ digits * 10 ^ power := hhalf
  have hgreatest : (digits : ℚ) * 10 ^ power < 2 ^ (1024 : Int) := by
    have hlast := hdouble.greatest
    exact (h.lt hdouble).trans_le (zpow_le_zpow_right₀ one_le_two (by omega))
  have hdigits : 0 < digits := by
    rcases Nat.eq_zero_or_pos digits with rfl | hdigits
    · rw [Nat.cast_zero, zero_mul] at hleast
      exact absurd hleast (not_le.mpr (two_zpow_pos _))
    · exact hdigits
  obtain ⟨hsize, hsize'⟩ := decimal_bounds hdigits power
  have hten : (1 : ℚ) < 10 := by norm_num
  have hbelow : (digitCount digits : Int) + power - 1 < 400 := by
    refine (zpow_lt_zpow_iff_right₀ hten).mp (hsize.trans_lt (hgreatest.trans ?_))
    exact (zpow_le_zpow_right₀ one_le_two (by decide)).trans_lt two_zpow_lt_ten_zpow
  have habove : -401 < (digitCount digits : Int) + power := by
    refine (zpow_lt_zpow_iff_right₀ hten).mp (lt_of_le_of_lt ?_ (hleast.trans_lt hsize'))
    calc (10 : ℚ) ^ (-401 : Int) ≤ 10 ^ (-(50 * 8) : Int) :=
          zpow_le_zpow_right₀ hten.le (by decide)
      _ ≤ 2 ^ (-(135 * 8) : Int) := by
        rw [zpow_neg, zpow_neg]
        exact inv_anti₀ (two_zpow_pos _) two_zpow_lt_ten_zpow.le
      _ ≤ 2 ^ (-1075 : Int) := zpow_le_zpow_right₀ one_le_two (by decide)
  unfold ofDecimal
  rw [if_neg hdigits.ne']
  dsimp only
  rw [if_neg (by omega), if_neg (by omega)]
  apply ofFraction_of_rounds negative hdouble (scaled_num_pos (by decide) hdigits)
    (scaled_den_pos (by decide))
  rw [scaled_value]
  exact_mod_cast h

end Double

end DtoForge.Number
