import Mathlib.Data.List.Basic
import DtoForge.Proofs.Unicode.Span

/-! # Upper case — a text in upper case stays as it is

Neither the rows of the upper-case table nor the sequences beside it write a character that one of
them names. So whatever a change to upper case writes is left alone by a second one. Unlike lower
case, upper case never looks at the neighbours of a character. -/

namespace DtoForge.Unicode

/-! ## Small letters -/

/-- The code points with another upper case: the small letters of ASCII, and what the rows of the
table and the sequences name. -/
def smallSpans : List SteppedSpan :=
  ⟨97, 122, 1⟩ :: (upperRows.toList.map (·.toSteppedSpan) ++
    upperSequences.toList.map fun e => ⟨e.1, e.1, 1⟩)

/-- The code points of the sequences. -/
def sequenceSpans : List SteppedSpan :=
  upperSequences.toList.flatMap fun e => e.2.map fun n => ⟨n, n, 1⟩

/-- The tables begin beyond ASCII and write characters, none of which has another upper case. -/
theorem upperTables_lawful :
    (∀ s ∈ smallSpans.tail, 128 ≤ s.first) ∧
      (∀ r ∈ upperRows.toList, 0 ≤ r.first + r.offset) ∧
      bitsOf (upperRows.toList.map CaseRow.image) &&& bitsOf smallSpans = 0 ∧
      bitsOf sequenceSpans &&& bitsOf smallSpans = 0 := by
  decide +kernel

theorem avoids_smallSpans_iff {c : Char} : avoids smallSpans c ↔
    SteppedSpan.contains ⟨97, 122, 1⟩ c.toNat = false ∧
      (∀ r ∈ upperRows.toList, r.toSteppedSpan.contains c.toNat = false) ∧
      ∀ e ∈ upperSequences.toList, e.1 ≠ c.toNat := by
  have hsingle : ∀ n, SteppedSpan.contains ⟨n, n, 1⟩ c.toNat = false ↔ n ≠ c.toNat := by
    intro n
    simp only [SteppedSpan.contains, Bool.and_eq_false_iff, decide_eq_false_iff_not,
      beq_eq_false_iff_ne]
    omega
  rw [avoids_iff, smallSpans, List.forall_mem_cons, List.forall_mem_append, List.forall_mem_map,
    List.forall_mem_map]
  simp only [hsingle]

/-! ## Characters -/

theorem avoids_toUpper {c : Char} (hc : c.toNat < 128) : avoids smallSpans c.toUpper := by
  have hcapital : c.toUpper.toNat < 128 ∧
      SteppedSpan.contains ⟨97, 122, 1⟩ c.toUpper.toNat = false :=
    forall_ascii
      (P := fun c => c.toUpper.toNat < 128 ∧
        SteppedSpan.contains ⟨97, 122, 1⟩ c.toUpper.toNat = false) (by decide) hc
  have htabled : avoids smallSpans.tail c.toUpper :=
    avoids_of_lt fun s hs => Nat.lt_of_lt_of_le hcapital.1 (upperTables_lawful.1 s hs)
  exact avoids_iff.mpr (List.forall_mem_cons.mpr ⟨hcapital.2, avoids_iff.mp htabled⟩)

theorem avoids_of_sequenceOf? {code : Nat} {cs : List Char} {d : Char}
    (h : sequenceOf? upperSequences code = some cs) (hd : d ∈ cs) : avoids smallSpans d := by
  obtain ⟨e, he, rfl⟩ := Option.map_eq_some_iff.mp h
  obtain ⟨n, hn, rfl⟩ := List.mem_map.mp hd
  have hspan : ⟨n, n, 1⟩ ∈ sequenceSpans :=
    List.mem_flatMap.mpr ⟨e, Array.mem_toList_iff.mpr (Array.mem_of_find?_eq_some he),
      List.mem_map.mpr ⟨n, hn, rfl⟩⟩
  refine avoids_ofNat (avoids_toUpper (c := '\x00') (by decide)) fun s hs => ?_
  exact not_contains_of_bitsOf_and upperTables_lawful.2.2.2 hspan hs (by simp [SteppedSpan.contains])

theorem sequenceOf?_eq_none_iff {table : Array (Nat × List Nat)} {code : Nat} :
    sequenceOf? table code = none ↔ ∀ e ∈ table.toList, e.1 ≠ code := by
  simp [sequenceOf?]

/-- What a character becomes in upper case has no other upper case. -/
theorem avoids_of_mem_upperChar {c d : Char} (hd : d ∈ upperChar c) : avoids smallSpans d := by
  rw [upperChar] at hd
  split at hd
  case isTrue hascii =>
    rw [List.mem_singleton.mp hd]
    exact avoids_toUpper hascii
  case isFalse hascii =>
    split at hd
    case h_1 cs hcs => exact avoids_of_sequenceOf? hcs hd
    case h_2 hsequence =>
      split at hd
      case h_1 n hn =>
        rw [List.mem_singleton.mp hd]
        exact avoids_of_mapCase (avoids_toUpper (c := '\x00') (by decide)) upperTables_lawful.2.1
          upperTables_lawful.2.2.1 hn
      case h_2 hrow =>
        rw [List.mem_singleton.mp hd, avoids_smallSpans_iff]
        refine ⟨?_, mapCase_eq_none_iff.mp hrow, sequenceOf?_eq_none_iff.mp hsequence⟩
        simp only [SteppedSpan.contains, Bool.and_eq_false_iff, decide_eq_false_iff_not]
        omega

theorem upperChar_of_avoids {c : Char} (hc : avoids smallSpans c) : upperChar c = [c] := by
  obtain ⟨hsmall, hrows, hsequences⟩ := avoids_smallSpans_iff.mp hc
  rw [upperChar]
  split
  case isTrue hascii =>
    have hupper : c.toUpper = c :=
      forall_ascii (P := fun c => SteppedSpan.contains ⟨97, 122, 1⟩ c.toNat = false → c.toUpper = c)
        (by decide) hascii hsmall
    rw [hupper]
  case isFalse => rw [sequenceOf?_eq_none_iff.mpr hsequences, mapCase_eq_none_iff.mpr hrows]

/-! ## Texts -/

/-- A text in upper case is its own upper case. -/
@[simp] theorem upper_upper (cs : List Char) : upper (upper cs) = upper cs := by
  have hsettled : ∀ c ∈ upper cs, upperChar c = [c] := by
    intro c hc
    obtain ⟨d, -, hd⟩ := List.mem_flatMap.mp hc
    exact upperChar_of_avoids (avoids_of_mem_upperChar hd)
  calc upper (upper cs) = (upper cs).flatMap fun c => [c] := List.flatMap_congr hsettled
    _ = upper cs := List.flatMap_singleton' (upper cs)

end DtoForge.Unicode

@[simp] theorem String.uppered_uppered (s : String) : s.uppered.uppered = s.uppered := by
  rw [uppered, uppered, toList_ofList, DtoForge.Unicode.upper_upper]
