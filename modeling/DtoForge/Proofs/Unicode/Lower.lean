import DtoForge.Proofs.Unicode.Span

/-! # Lower case — a text in lower case stays as it is

The rows of the lower-case table map letters onto letters that no row names. So whatever a change to
lower case writes is left alone by a second one, and a capital sigma, whose image hangs on its
neighbours, is never written. Nor do the rows write blanks: those of a text in lower case were there
before. -/

namespace DtoForge.Unicode

/-! ## Capitals -/

/-- The code points with another lower case: the ASCII capitals, the dotted capital I, and what the
rows of the table name. -/
def capitalSpans : List SteppedSpan :=
  ⟨65, 90, 1⟩ :: ⟨304, 304, 1⟩ :: lowerRows.toList.map (·.toSteppedSpan)

/-- The rows begin beyond ASCII and write characters, none of which has another lower case. -/
theorem lowerRows_lawful :
    (∀ r ∈ lowerRows.toList, 128 ≤ r.first ∧ 0 ≤ r.first + r.offset) ∧
      bitsOf (lowerRows.toList.map CaseRow.image) &&& bitsOf capitalSpans = 0 := by
  decide +kernel

theorem beyond_ascii {s : SteppedSpan} (hs : s ∈ capitalSpans.tail) : 128 ≤ s.first := by
  obtain rfl | hs := List.mem_cons.mp hs
  · decide
  · obtain ⟨r, hr, rfl⟩ := List.mem_map.mp hs
    exact (lowerRows_lawful.1 r hr).1

/-! ## Characters -/

/-- Whether a character is its own lower case wherever it stands. -/
def isSettled (c : Char) : Bool :=
  capitalSpans.all fun s => !s.contains c.toNat

theorem isSettled_iff {c : Char} : isSettled c ↔ ∀ s ∈ capitalSpans, s.contains c.toNat = false :=
  avoids_iff

theorem isSettled_toLower {c : Char} (hc : c.toNat < 128) : isSettled c.toLower := by
  have hsmall : c.toLower.toNat < 128 ∧ SteppedSpan.contains ⟨65, 90, 1⟩ c.toLower.toNat = false :=
    forall_ascii
      (P := fun c => c.toLower.toNat < 128 ∧
        SteppedSpan.contains ⟨65, 90, 1⟩ c.toLower.toNat = false) (by decide) hc
  have htabled : avoids capitalSpans.tail c.toLower :=
    avoids_of_lt fun s hs => Nat.lt_of_lt_of_le hsmall.1 (beyond_ascii hs)
  exact isSettled_iff.mpr (List.forall_mem_cons.mpr ⟨hsmall.2, avoids_iff.mp htabled⟩)

theorem isSettled_of_mapCase {code n : Nat} (h : mapCase lowerRows code = some n) :
    isSettled (Char.ofNat n) :=
  avoids_of_mapCase (isSettled_toLower (c := '\x00') (by decide))
    (fun r hr => (lowerRows_lawful.1 r hr).2) lowerRows_lawful.2 h

theorem isSettled_of_mapCase_eq_none {c : Char} (hascii : ¬ c.toNat < 128) (hdotted : c ≠ 'İ')
    (h : mapCase lowerRows c.toNat = none) : isSettled c := by
  have hcode : c.toNat ≠ 304 := fun hc => hdotted (Char.toNat_inj.mp hc)
  rw [isSettled_iff, capitalSpans, List.forall_mem_cons, List.forall_mem_cons, List.forall_mem_map]
  refine ⟨?capitals, ?dotted, mapCase_eq_none_iff.mp h⟩
  case capitals =>
    simp only [SteppedSpan.contains, Bool.and_eq_false_iff, decide_eq_false_iff_not]
    omega
  case dotted =>
    simp only [SteppedSpan.contains, Bool.and_eq_false_iff, decide_eq_false_iff_not]
    omega

/-- The characters outside the table that are written stay, and a capital sigma does not. -/
theorem isSettled_sigmas :
    ['i', '\u0307', 'ς', 'σ'].all isSettled ∧ isSettled 'Σ' = false := by
  decide +kernel

/-- What a character becomes in lower case stays. -/
theorem isSettled_of_mem_lowerChar {c d : Char} (hd : d ∈ lowerChar c) : isSettled d := by
  rw [lowerChar] at hd
  split at hd
  case isTrue hascii =>
    rw [List.mem_singleton.mp hd]
    exact isSettled_toLower hascii
  case isFalse hascii =>
    split at hd
    case isTrue =>
      refine List.all_eq_true.mp isSettled_sigmas.1 d ?_
      obtain rfl | rfl := by simpa using hd
      · simp
      · simp
    case isFalse hdotted =>
      split at hd
      case h_1 n hn =>
        rw [List.mem_singleton.mp hd]
        exact isSettled_of_mapCase hn
      case h_2 hn =>
        rw [List.mem_singleton.mp hd]
        exact isSettled_of_mapCase_eq_none hascii hdotted hn

theorem lowerChar_of_isSettled {c : Char} (hc : isSettled c) : lowerChar c = [c] := by
  rw [isSettled_iff, capitalSpans, List.forall_mem_cons, List.forall_mem_cons, List.forall_mem_map] at hc
  obtain ⟨hcapital, hdotted, hrows⟩ := hc
  rw [lowerChar]
  split
  case isTrue hascii =>
    have hlower : c.toLower = c :=
      forall_ascii (P := fun c => SteppedSpan.contains ⟨65, 90, 1⟩ c.toNat = false → c.toLower = c)
        (by decide) hascii hcapital
    rw [hlower]
  case isFalse =>
    rw [if_neg (by rintro rfl; revert hdotted; decide)]
    rw [mapCase_eq_none_iff.mpr hrows]

theorem ne_sigma_of_isSettled {c : Char} (hc : isSettled c) : c ≠ 'Σ' := by
  rintro rfl
  rw [isSettled_sigmas.2] at hc
  cases hc

/-! ## Texts -/

theorem isSettled_of_mem_lowerAfter {before cs : List Char} {d : Char}
    (hd : d ∈ lowerAfter before cs) : isSettled d := by
  induction cs generalizing before with
  | nil => cases hd
  | cons c cs ih =>
      rw [lowerAfter] at hd
      obtain himage | hrest := List.mem_append.mp hd
      · split at himage
        · refine List.all_eq_true.mp isSettled_sigmas.1 d ?_
          split at himage <;> simp [List.mem_singleton.mp himage]
        · exact isSettled_of_mem_lowerChar himage
      · exact ih hrest

theorem lowerAfter_of_isSettled {cs : List Char} (h : ∀ c ∈ cs, isSettled c) (before : List Char) :
    lowerAfter before cs = cs := by
  induction cs generalizing before with
  | nil => rfl
  | cons c cs ih =>
      rw [List.forall_mem_cons] at h
      rw [lowerAfter, if_neg (ne_sigma_of_isSettled h.1), lowerChar_of_isSettled h.1, ih h.2]
      rfl

/-- A text in lower case is its own lower case. -/
@[simp] theorem lower_lower (cs : List Char) : lower (lower cs) = lower cs :=
  lowerAfter_of_isSettled (fun _ hc => isSettled_of_mem_lowerAfter hc) []

/-! ## Capitals and blanks -/

theorem not_isUpper_of_isSettled {c : Char} (hc : isSettled c) : c.isUpper = false := by
  rw [isSettled_iff, capitalSpans, List.forall_mem_cons] at hc
  rw [Bool.eq_false_iff]
  intro hupper
  have halphanum : c.isAlphanum = true := by
    show (c.isUpper || c.isLower || c.isDigit) = true
    rw [hupper, Bool.true_or, Bool.true_or]
  have hascii : c.toNat < 128 := ascii_of_isAlphanum halphanum
  have hsmall := forall_ascii
    (P := fun c => SteppedSpan.contains ⟨65, 90, 1⟩ c.toNat = false → c.isUpper = false)
    (by decide) hascii hc.1
  rw [hupper] at hsmall
  cases hsmall

/-- The code points of the blanks. -/
def blankCodes : List SteppedSpan :=
  blankSpans.toList.map fun s => ⟨s.1, s.2, 1⟩

theorem avoids_blankCodes_iff {c : Char} : avoids blankCodes c ↔ isBlank c = false := by
  rw [isBlank, inSpans, ← Array.any_toList, List.any_eq_false, avoids_iff, blankCodes,
    List.forall_mem_map]
  simp [SteppedSpan.contains, Nat.mod_one]

/-- No row writes a blank, nor are there blanks among the characters outside the table that are
written. -/
theorem lowerRows_unblank :
    bitsOf (lowerRows.toList.map CaseRow.image) &&& bitsOf blankCodes = 0 ∧
      ['i', '\u0307', 'ς', 'σ'].all fun c => !isBlank c := by
  decide +kernel

/-- A character that becomes a blank is this blank. -/
theorem eq_of_mem_lowerChar_of_isBlank {c d : Char} (hd : d ∈ lowerChar c) (hblank : isBlank d) :
    d = c := by
  rw [lowerChar] at hd
  split at hd
  case isTrue hascii =>
    obtain rfl := List.mem_singleton.mp hd
    exact forall_ascii (P := fun c => isBlank c.toLower → c.toLower = c) (by decide +kernel)
      hascii hblank
  case isFalse =>
    split at hd
    case isTrue =>
      have hplain := List.all_eq_true.mp lowerRows_unblank.2 d (by grind)
      simp [hblank] at hplain
    case isFalse =>
      split at hd
      case h_1 n hn =>
        obtain rfl := List.mem_singleton.mp hd
        have havoids : avoids blankCodes (Char.ofNat n) :=
          avoids_of_mapCase (by decide +kernel) (fun r hr => (lowerRows_lawful.1 r hr).2)
            lowerRows_unblank.1 hn
        rw [avoids_blankCodes_iff.mp havoids] at hblank
        cases hblank
      case h_2 => exact List.mem_singleton.mp hd

/-- A change to lower case writes no blank that was not there. -/
theorem mem_of_mem_lowerAfter_of_isBlank {before cs : List Char} {d : Char}
    (hd : d ∈ lowerAfter before cs) (hblank : isBlank d) : d ∈ cs := by
  induction cs generalizing before with
  | nil => cases hd
  | cons c cs ih =>
      rw [lowerAfter] at hd
      apply List.mem_cons.mpr
      obtain himage | hrest := List.mem_append.mp hd
      · left
        split at himage
        · have hplain := List.all_eq_true.mp lowerRows_unblank.2 d (by grind)
          simp [hblank] at hplain
        · exact eq_of_mem_lowerChar_of_isBlank himage hblank
      · right
        exact ih hrest

end DtoForge.Unicode

@[simp] theorem String.lowered_lowered (s : String) : s.lowered.lowered = s.lowered := by
  rw [lowered, lowered, toList_ofList, DtoForge.Unicode.lower_lower]
