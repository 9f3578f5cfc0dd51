import DtoForge.Unicode.Blank
import DtoForge.Unicode.Case

/-! # ASCII — letters and digits change case one by one

On ASCII texts the case changes of Unicode are those of single characters: no character becomes
several, and none hangs on its neighbours. What is asked of single characters is decided over all
128 of them. -/

namespace DtoForge.Unicode

/-- What holds of all 128 ASCII characters holds of every ASCII character. -/
theorem forall_ascii {P : Char → Prop} (h : ∀ n < 128, P (Char.ofNat n)) {c : Char}
    (hc : c.toNat < 128) : P c := by
  have hcode := h c.toNat hc
  rwa [Char.ofNat_toNat] at hcode

theorem ascii_of_isAlphanum {c : Char} (hc : c.isAlphanum) : c.toNat < 128 := by
  delta Char.isAlphanum Char.isAlpha Char.isUpper Char.isLower Char.isDigit at hc
  simp only [Bool.or_eq_true, Bool.and_eq_true, decide_eq_true_eq, UInt32.le_iff_toNat_le,
    ge_iff_le] at hc
  have hval : c.toNat = c.val.toNat := rfl
  have hZ : 'Z'.val.toNat = 90 := rfl
  have hz : 'z'.val.toNat = 122 := rfl
  have h9 : '9'.val.toNat = 57 := rfl
  omega

/-! ## Single characters -/

/-- Small letters and digits. -/
def isSmall (c : Char) : Bool :=
  c.isLower || c.isDigit

theorem isAlphanum_of_isSmall {c : Char} (hc : isSmall c) : c.isAlphanum := by
  show (c.isUpper || c.isLower || c.isDigit) = true
  rw [Bool.or_assoc, ← isSmall, hc, Bool.or_true]

theorem isSmall_toLower {c : Char} (hc : c.isAlphanum) : isSmall c.toLower :=
  forall_ascii (P := fun c => c.isAlphanum → isSmall c.toLower) (by decide)
    (ascii_of_isAlphanum hc) hc

theorem toLower_of_isSmall {c : Char} (hc : isSmall c) : c.toLower = c :=
  forall_ascii (P := fun c => isSmall c → c.toLower = c) (by decide)
    (ascii_of_isAlphanum (isAlphanum_of_isSmall hc)) hc

theorem not_isUpper_of_isSmall {c : Char} (hc : isSmall c) : c.isUpper = false :=
  forall_ascii (P := fun c => isSmall c → c.isUpper = false) (by decide)
    (ascii_of_isAlphanum (isAlphanum_of_isSmall hc)) hc

theorem toLower_toUpper_of_isSmall {c : Char} (hc : isSmall c) : c.toUpper.toLower = c :=
  forall_ascii (P := fun c => isSmall c → c.toUpper.toLower = c) (by decide)
    (ascii_of_isAlphanum (isAlphanum_of_isSmall hc)) hc

/-- A small letter or digit at the start of a capitalized word is no small letter. -/
theorem isAlphanum_toUpper {c : Char} (hc : isSmall c) :
    c.toUpper.isAlphanum ∧ c.toUpper.isLower = false :=
  forall_ascii (P := fun c => isSmall c → c.toUpper.isAlphanum ∧ c.toUpper.isLower = false)
    (by decide) (ascii_of_isAlphanum (isAlphanum_of_isSmall hc)) hc

theorem not_isDigit_of_isAlpha {c : Char} (hc : c.isAlpha) : c.isDigit = false :=
  forall_ascii (P := fun c => c.isAlpha → c.isDigit = false) (by decide)
    (ascii_of_isAlphanum (by simp [Char.isAlphanum, hc])) hc

theorem not_isBlank_of_isAlphanum {c : Char} (hc : c.isAlphanum) : isBlank c = false :=
  forall_ascii (P := fun c => c.isAlphanum → isBlank c = false) (by decide +kernel)
    (ascii_of_isAlphanum hc) hc

/-! ## Texts -/

theorem lowerAfter_of_ascii {cs : List Char} (h : ∀ c ∈ cs, c.toNat < 128) (before : List Char) :
    lowerAfter before cs = cs.map Char.toLower := by
  induction cs generalizing before with
  | nil => rfl
  | cons c cs ih =>
      rw [List.forall_mem_cons] at h
      have hsigma : c ≠ 'Σ' := by
        rintro rfl
        exact absurd h.1 (by decide)
      rw [lowerAfter, if_neg hsigma, lowerChar, if_pos h.1, ih h.2]
      rfl

/-- The lower case of an ASCII text. -/
theorem lower_of_ascii {cs : List Char} (h : ∀ c ∈ cs, c.toNat < 128) :
    lower cs = cs.map Char.toLower :=
  lowerAfter_of_ascii h []

/-- Capitalizing a word of small letters and digits changes its first character alone. -/
theorem capitalize_cons_of_isSmall {c : Char} {cs : List Char} (h : ∀ d ∈ c :: cs, isSmall d) :
    capitalize (c :: cs) = c.toUpper :: cs := by
  rw [List.forall_mem_cons] at h
  have hascii : ∀ {d}, isSmall d → d.toNat < 128 := fun hd =>
    ascii_of_isAlphanum (isAlphanum_of_isSmall hd)
  have hrest : cs.map Char.toLower = cs := by
    rw [List.map_congr_left fun d hd => toLower_of_isSmall (h.2 d hd), List.map_id']
  rw [capitalize, titleChar, if_pos (hascii h.1), lowerAfter_of_ascii fun d hd => hascii (h.2 d hd),
    hrest]
  rfl

end DtoForge.Unicode
