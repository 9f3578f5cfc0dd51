import DtoForge.Proofs.Unicode.Ascii

/-! # Caseless characters — what no change of case touches

The digits, punctuation marks, blanks and controls of ASCII have no case. They stay as they are in
lower case and in a capitalized word, and the tables turn no other character into one of them. -/

namespace DtoForge.Unicode

variable {c d : Char}

/-- Whether a character is an ASCII character and no letter. -/
def isCaseless (c : Char) : Bool :=
  c.toNat < 128 && !c.isAlpha

/-! ## Tables -/

/-- Whether a row writes letters of ASCII or characters beyond it. -/
def CaseRow.writesCased (r : CaseRow) : Bool :=
  let low := r.first + r.offset
  let high := r.last + r.offset
  (65 ≤ low && high ≤ 90) || (97 ≤ low && high ≤ 122) || (128 ≤ low && high < 0xd800) ||
    (0xe000 ≤ low && high < 0x110000)

/-- Whether no listed sequence has a caseless character. -/
def writeCased (table : Array (Nat × List Nat)) : Bool :=
  table.toList.all fun e => e.2.all fun n => !isCaseless (Char.ofNat n)

theorem tables_writeCased :
    lowerRows.toList.all CaseRow.writesCased ∧ upperRows.toList.all CaseRow.writesCased ∧
      writeCased upperSequences ∧ writeCased titleForms := by
  decide +kernel

theorem not_isCaseless_ofNat {n : Nat}
    (h : 65 ≤ n ∧ n ≤ 90 ∨ 97 ≤ n ∧ n ≤ 122 ∨ 128 ≤ n ∧ n.isValidChar) :
    isCaseless (Char.ofNat n) = false := by
  have hletters : ∀ n < 128, 65 ≤ n ∧ n ≤ 90 ∨ 97 ≤ n ∧ n ≤ 122 →
      isCaseless (Char.ofNat n) = false := by decide
  rcases h with hcapital | hsmall | ⟨hbeyond, hvalid⟩
  · exact hletters n (by omega) (.inl hcapital)
  · exact hletters n (by omega) (.inr hsmall)
  · have hcode : (Char.ofNat n).toNat = n := by
      rw [Char.ofNat, dif_pos hvalid]
      rfl
    rw [isCaseless, hcode, decide_eq_false (by omega), Bool.false_and]

theorem not_isCaseless_of_mapCase {rows : Array CaseRow}
    (hrows : rows.toList.all CaseRow.writesCased) {code n : Nat} (h : mapCase rows code = some n) :
    isCaseless (Char.ofNat n) = false := by
  obtain ⟨r, hr, rfl⟩ := Option.map_eq_some_iff.mp h
  have hlisted := Array.mem_toList_iff.mpr (Array.mem_of_find?_eq_some hr)
  have hwrites := List.all_eq_true.mp hrows r hlisted
  have hcode : r.toSteppedSpan.contains code := by simpa using Array.find?_some hr
  simp only [CaseRow.writesCased, Bool.or_eq_true, Bool.and_eq_true, decide_eq_true_eq] at hwrites
  simp only [SteppedSpan.contains, Bool.and_eq_true, decide_eq_true_eq, beq_iff_eq] at hcode
  apply not_isCaseless_ofNat
  simp only [Nat.isValidChar]
  omega

theorem not_isCaseless_of_sequenceOf? {table : Array (Nat × List Nat)} (htable : writeCased table)
    {code : Nat} {cs : List Char} (h : sequenceOf? table code = some cs) (hc : c ∈ cs) :
    isCaseless c = false := by
  obtain ⟨e, he, rfl⟩ := Option.map_eq_some_iff.mp h
  obtain ⟨n, hn, rfl⟩ := List.mem_map.mp hc
  have hlisted := Array.mem_toList_iff.mpr (Array.mem_of_find?_eq_some he)
  simpa using List.all_eq_true.mp (List.all_eq_true.mp htable e hlisted) n hn

/-! ## Single characters -/

theorem ne_of_isCaseless (hc : isCaseless c) (hd : ¬ d.toNat < 128) : c ≠ d := by
  rintro rfl
  simp [isCaseless, hd] at hc

/-- No other ASCII character becomes a caseless one by a change of case. -/
theorem eq_toLower_iff (hc : isCaseless c) (hd : d.toNat < 128) : c = d.toLower ↔ c = d := by
  have hcase := forall_ascii
    (P := fun d => (isCaseless d.toLower → d.toLower = d) ∧ (isCaseless d → d.toLower = d))
    (by decide) hd
  constructor
  · rintro rfl
    exact hcase.1 hc
  · rintro rfl
    exact (hcase.2 hc).symm

theorem eq_toUpper_iff (hc : isCaseless c) (hd : d.toNat < 128) : c = d.toUpper ↔ c = d := by
  have hcase := forall_ascii
    (P := fun d => (isCaseless d.toUpper → d.toUpper = d) ∧ (isCaseless d → d.toUpper = d))
    (by decide) hd
  constructor
  · rintro rfl
    exact hcase.1 hc
  · rintro rfl
    exact (hcase.2 hc).symm

theorem mem_lowerChar_iff (hc : isCaseless c) : c ∈ lowerChar d ↔ c = d := by
  rw [lowerChar]
  split
  case isTrue hd => rw [List.mem_singleton, eq_toLower_iff hc hd]
  case isFalse hd =>
    have hne := ne_of_isCaseless hc hd
    split
    case isTrue =>
      refine iff_of_false ?_ hne
      intro hmem
      have hcased : ['i', '\u0307'].all fun d => !isCaseless d := by decide
      simpa [hc] using List.all_eq_true.mp hcased c hmem
    case isFalse =>
      split
      case h_1 n hn =>
        refine iff_of_false ?_ hne
        intro hmem
        rw [List.mem_singleton.mp hmem, not_isCaseless_of_mapCase tables_writeCased.1 hn] at hc
        cases hc
      case h_2 => exact List.mem_singleton

theorem mem_upperChar_iff (hc : isCaseless c) : c ∈ upperChar d ↔ c = d := by
  rw [upperChar]
  split
  case isTrue hd => rw [List.mem_singleton, eq_toUpper_iff hc hd]
  case isFalse hd =>
    have hne := ne_of_isCaseless hc hd
    split
    case h_1 cs hcs =>
      refine iff_of_false ?_ hne
      intro hmem
      rw [not_isCaseless_of_sequenceOf? tables_writeCased.2.2.1 hcs hmem] at hc
      cases hc
    case h_2 =>
      split
      case h_1 n hn =>
        refine iff_of_false ?_ hne
        intro hmem
        rw [List.mem_singleton.mp hmem, not_isCaseless_of_mapCase tables_writeCased.2.1 hn] at hc
        cases hc
      case h_2 => exact List.mem_singleton

theorem mem_titleChar_iff (hc : isCaseless c) : c ∈ titleChar d ↔ c = d := by
  rw [titleChar]
  split
  case isTrue hd => rw [List.mem_singleton, eq_toUpper_iff hc hd]
  case isFalse hd =>
    split
    case h_1 cs hcs =>
      refine iff_of_false ?_ (ne_of_isCaseless hc hd)
      intro hmem
      rw [not_isCaseless_of_sequenceOf? tables_writeCased.2.2.2 hcs hmem] at hc
      cases hc
    case h_2 =>
      split
      · exact List.mem_singleton
      · exact mem_upperChar_iff hc

/-! ## Texts -/

variable {before cs : List Char}

/-- A character becomes one in lower case, or an `i` with a dot above. -/
theorem lowerChar_shape (d : Char) :
    (∃ e, lowerChar d = [e]) ∨ lowerChar d = ['i', '\u0307'] := by
  rw [lowerChar]
  split
  · exact .inl ⟨_, rfl⟩
  · split
    · exact .inr rfl
    · split <;> exact .inl ⟨_, rfl⟩

/-- What the first character of a text contributes to its lower case. -/
theorem exists_lowerAfter_cons (before : List Char) (d : Char) (ds : List Char) :
    ∃ image, lowerAfter before (d :: ds) = image ++ lowerAfter (d :: before) ds ∧
      ((∃ e, image = [e]) ∨ image = ['i', '\u0307']) ∧
      ∀ c, isCaseless c → (c ∈ image ↔ c = d) := by
  refine ⟨_, lowerAfter.eq_2 before d ds, ?_⟩
  split
  next hsigma =>
    have hcased : ['Σ', 'ς', 'σ'].all fun e => !isCaseless e := by decide
    refine ⟨.inl ⟨_, rfl⟩, fun c hc => ?_⟩
    have hne : ∀ e ∈ ['Σ', 'ς', 'σ'], c ≠ e := by
      rintro e he rfl
      simpa [hc] using List.all_eq_true.mp hcased c he
    refine iff_of_false ?_ (hsigma ▸ hne 'Σ' (by simp))
    rw [List.mem_singleton]
    split
    · exact hne 'ς' (by simp)
    · exact hne 'σ' (by simp)
  next => exact ⟨lowerChar_shape d, fun c hc => mem_lowerChar_iff hc⟩

theorem mem_lowerAfter_iff (hc : isCaseless c) : c ∈ lowerAfter before cs ↔ c ∈ cs := by
  induction cs generalizing before with
  | nil => rfl
  | cons d ds ih =>
      obtain ⟨image, hlower, -, himage⟩ := exists_lowerAfter_cons before d ds
      rw [hlower, List.mem_append, himage c hc, ih, List.mem_cons]

theorem mem_lower_iff (hc : isCaseless c) : c ∈ lower cs ↔ c ∈ cs :=
  mem_lowerAfter_iff hc

/-- Capitalizing a word neither adds nor removes caseless characters. -/
theorem mem_capitalize_iff (hc : isCaseless c) : c ∈ capitalize cs ↔ c ∈ cs := by
  cases cs with
  | nil => rfl
  | cons d ds =>
      rw [capitalize, List.mem_append, mem_titleChar_iff hc, mem_lowerAfter_iff hc, List.mem_cons]

/-- A text whose lower case has small letters only has as many characters. -/
theorem length_of_isLower (h : ∀ e ∈ lowerAfter before cs, e.isLower) :
    (lowerAfter before cs).length = cs.length := by
  induction cs generalizing before with
  | nil => rfl
  | cons d ds ih =>
      obtain ⟨image, hlower, hshape, -⟩ := exists_lowerAfter_cons before d ds
      rw [hlower] at h ⊢
      rcases hshape with ⟨e, rfl⟩ | rfl
      · have hrest := ih fun e' he' => h e' (List.mem_append_right _ he')
        rw [List.singleton_append, List.length_cons, List.length_cons, hrest]
      · have hdot := h '\u0307' (by simp)
        cases hdot

/-- Where the lower case of a text ends in small letters, as many of its last characters became
these letters, and none of them is caseless. -/
theorem not_mem_drop_of_suffix {tail : List Char} (htail : ∀ e ∈ tail, e.isLower)
    (h : tail <:+ lowerAfter before cs) (hc : isCaseless c) :
    tail.length ≤ cs.length ∧ c ∉ cs.drop (cs.length - tail.length) := by
  have hcased : ∀ e, e.isLower → ¬ isCaseless e := by
    intro e he hcaseless
    have halpha : e.isAlpha = true := by
      show (e.isUpper || e.isLower) = true
      rw [he, Bool.or_true]
    simp [isCaseless, halpha] at hcaseless
  induction cs generalizing before with
  | nil =>
      obtain rfl := List.suffix_nil.mp h
      exact ⟨Nat.le_refl _, List.not_mem_nil⟩
  | cons d ds ih =>
      obtain ⟨image, hlower, hshape, -⟩ := exists_lowerAfter_cons before d ds
      by_cases hwhole : tail = lowerAfter before (d :: ds)
      · -- the whole text became the tail
        have hlength : tail.length = (d :: ds).length := by
          rw [hwhole] at htail ⊢
          exact length_of_isLower htail
        refine ⟨Nat.le_of_eq hlength, ?_⟩
        rw [hlength, Nat.sub_self, List.drop_zero, ← mem_lowerAfter_iff hc, ← hwhole]
        exact fun hmem => hcased c (htail c hmem) hc
      · have hrest : tail <:+ lowerAfter (d :: before) ds := by
          rw [hlower] at h hwhole
          rcases hshape with ⟨e, rfl⟩ | rfl
          · exact (List.suffix_cons_iff.mp h).resolve_left hwhole
          · -- the dot above is no letter
            have hshort := (List.suffix_cons_iff.mp h).resolve_left hwhole
            refine (List.suffix_cons_iff.mp hshort).resolve_left ?_
            rintro rfl
            cases htail '\u0307' List.mem_cons_self
        obtain ⟨hle, hmem⟩ := ih hrest
        refine ⟨Nat.le_succ_of_le hle, ?_⟩
        rwa [List.length_cons, Nat.succ_sub hle, List.drop_succ_cons]

end DtoForge.Unicode
