import DtoForge.Proofs.Unicode.Ascii

/-! # Spans — characters that tables leave alone

The code points of spans are the bits of a number, so that two tables are compared in one step: a row
never writes a character that another table names when their numbers have no common bit. A character
that no span names avoids them, and whatever such rows write avoids them too. -/

namespace DtoForge.Unicode

/-! ## Spans as bits -/

/-- The code points of a span as the bits of a number. -/
def SteppedSpan.bits (s : SteppedSpan) : Nat :=
  (List.range' s.first ((s.last - s.first) / s.step + 1) s.step).foldr (fun n m => 1 <<< n ||| m) 0

/-- The code points of several spans as the bits of a number. -/
def bitsOf (ss : List SteppedSpan) : Nat :=
  ss.foldr (fun s m => s.bits ||| m) 0

theorem SteppedSpan.testBit_bits {s : SteppedSpan} {code : Nat} (h : s.contains code) :
    s.bits.testBit code := by
  have hlisted : ∀ codes : List Nat, code ∈ codes →
      (codes.foldr (fun n m => 1 <<< n ||| m) 0).testBit code := by
    intro codes hmem
    induction codes with
    | nil => cases hmem
    | cons n codes ih =>
        rw [List.foldr_cons, Nat.testBit_or, Bool.or_eq_true]
        obtain rfl | hrest := List.mem_cons.mp hmem
        · rw [Nat.one_shiftLeft]
          exact .inl Nat.testBit_two_pow_self
        · exact .inr (ih hrest)
  simp only [contains, Bool.and_eq_true, decide_eq_true_eq, beq_iff_eq] at h
  obtain ⟨⟨hfirst, hlast⟩, hstep⟩ := h
  apply hlisted
  refine List.mem_range'.mpr ⟨(code - s.first) / s.step, ?_, ?_⟩
  · exact Nat.lt_succ_of_le (Nat.div_le_div_right (by omega))
  · have := Nat.div_add_mod (code - s.first) s.step
    omega

theorem testBit_bitsOf {ss : List SteppedSpan} {s : SteppedSpan} (hs : s ∈ ss) {code : Nat}
    (h : s.contains code) : (bitsOf ss).testBit code := by
  induction ss with
  | nil => cases hs
  | cons t ss ih =>
      rw [bitsOf, List.foldr_cons, Nat.testBit_or, Bool.or_eq_true]
      obtain rfl | hrest := List.mem_cons.mp hs
      · exact .inl (SteppedSpan.testBit_bits h)
      · exact .inr (ih hrest)

/-- Spans without a common bit name no code point together. -/
theorem not_contains_of_bitsOf_and {ss ts : List SteppedSpan} (h : bitsOf ss &&& bitsOf ts = 0)
    {s t : SteppedSpan} (hs : s ∈ ss) (ht : t ∈ ts) {code : Nat} (hcode : s.contains code) :
    t.contains code = false := by
  rw [Bool.eq_false_iff]
  intro htwice
  have hcommon : (bitsOf ss &&& bitsOf ts).testBit code := by
    rw [Nat.testBit_and, testBit_bitsOf hs hcode, testBit_bitsOf ht htwice]
    rfl
  rw [h, Nat.zero_testBit] at hcommon
  cases hcommon

/-- The code points that a row writes. -/
def CaseRow.image (r : CaseRow) : SteppedSpan :=
  ⟨(r.first + r.offset).toNat, (r.last + r.offset).toNat, r.step⟩

theorem CaseRow.image_contains {r : CaseRow} {code : Nat} (hrow : 0 ≤ r.first + r.offset)
    (hcode : r.toSteppedSpan.contains code) : r.image.contains ((code : Int) + r.offset).toNat := by
  simp only [SteppedSpan.contains, Bool.and_eq_true, decide_eq_true_eq, beq_iff_eq] at hcode ⊢
  have hdistance : ((code : Int) + r.offset).toNat - r.image.first = code - r.first := by
    simp only [image]
    omega
  rw [hdistance]
  refine ⟨?_, hcode.2⟩
  simp only [image]
  omega

/-! ## Characters outside of spans -/

/-- Whether no span names a character. -/
def avoids (spans : List SteppedSpan) (c : Char) : Bool :=
  spans.all fun s => !s.contains c.toNat

section Avoids

variable {spans : List SteppedSpan}

theorem avoids_iff {c : Char} : avoids spans c ↔ ∀ s ∈ spans, s.contains c.toNat = false := by
  simp [avoids]

/-- A character is outside of spans that begin behind it. -/
theorem avoids_of_lt {c : Char} (h : ∀ s ∈ spans, c.toNat < s.first) : avoids spans c := by
  refine avoids_iff.mpr fun s hs => ?_
  have hfirst := h s hs
  simp only [SteppedSpan.contains, Bool.and_eq_false_iff, decide_eq_false_iff_not]
  omega

/-- A number outside of spans gives a character outside of them. What is no character gives the null
character. -/
theorem avoids_ofNat (hnull : avoids spans '\x00') {n : Nat}
    (h : ∀ s ∈ spans, s.contains n = false) : avoids spans (Char.ofNat n) := by
  by_cases hvalid : n.isValidChar
  · have hcode : (Char.ofNat n).toNat = n := by
      rw [Char.ofNat, dif_pos hvalid]
      rfl
    rw [avoids_iff, hcode]
    exact h
  · rw [Char.ofNat, dif_neg hvalid]
    exact hnull

/-- What rows write avoids the spans with which their images have no common bit. -/
theorem avoids_of_mapCase (hnull : avoids spans '\x00') {rows : Array CaseRow}
    (hrows : ∀ r ∈ rows.toList, 0 ≤ r.first + r.offset)
    (hbits : bitsOf (rows.toList.map CaseRow.image) &&& bitsOf spans = 0) {code n : Nat}
    (h : mapCase rows code = some n) : avoids spans (Char.ofNat n) := by
  obtain ⟨r, hr, rfl⟩ := Option.map_eq_some_iff.mp h
  have hrow : r ∈ rows.toList := Array.mem_toList_iff.mpr (Array.mem_of_find?_eq_some hr)
  have hcode : r.toSteppedSpan.contains code := by simpa using Array.find?_some hr
  refine avoids_ofNat hnull fun s hs => ?_
  exact not_contains_of_bitsOf_and hbits (List.mem_map_of_mem hrow) hs
    (CaseRow.image_contains (hrows r hrow) hcode)

/-- Rows have no image for a code point exactly if none of them names it. -/
theorem mapCase_eq_none_iff {rows : Array CaseRow} {code : Nat} :
    mapCase rows code = none ↔ ∀ r ∈ rows.toList, r.toSteppedSpan.contains code = false := by
  simp [mapCase]

end Avoids

end DtoForge.Unicode
