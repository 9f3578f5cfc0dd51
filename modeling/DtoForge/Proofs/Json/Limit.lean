import DtoForge.Proofs.Json.Remainder
import DtoForge.Proofs.Json.RoundTrip

/-! # Limit — texts that are given up for an integer

An integer with more digits than are read ends the reading of a text wherever it stands, and nothing
behind it is looked at. Only a text with that many digits in a row is given up for one
(`holdsDigits_of_read`). -/

namespace DtoForge.Json

/-- A text that is given up for an integer with too many digits. -/
def IsOverlong (text : RawText) : Prop :=
  ∃ digits, read text = .error (.longInteger digits)

/-- Where every other refusal is answered for, only these texts are left. -/
theorem read_failsWith_iff {ε : Type} {P : ε → Prop} {wording : ReadRefusal → ε} {text : RawText}
    (hmisread : ∀ error, P (wording (.misread error)))
    (hlong : ∀ digits, ¬ P (wording (.longInteger digits))) :
    Steps.FailsWith P ((read text).mapError wording) ↔ ¬ IsOverlong text := by
  unfold IsOverlong
  cases read text with
  | ok v => exact iff_of_true (Steps.failsWith_ok v) nofun
  | error cause =>
      cases cause with
      | misread error => exact iff_of_true (Steps.failsWith_error (hmisread error)) nofun
      | longInteger digits =>
          exact iff_of_false (fun h => hlong digits (h _ rfl)) fun h => h ⟨digits, rfl⟩

/-! ## Where the digits stand -/

/-- **Only a text with too many digits in a row is given up for an integer.** -/
theorem holdsDigits_of_read {text : RawText} {n : Nat} (h : read text = .error (.longInteger n)) :
    HoldsDigits text.points n := by
  rw [read] at h
  cases hall : readAll text.points with
  | ok v => rw [hall] at h; cases h
  | error fault =>
      rw [hall] at h
      cases fault with
      | misread cause rest => cases h
      | longInteger digits =>
          cases h
          have hwithin := readAll_within text.points
          rw [hall] at hwithin
          exact hwithin

/-- A text that writes an integer with too many digits is given up for it. -/
theorem read_longInteger (negative : Bool) {whole : List Char} (hwhole : IsWhole whole)
    (hlong : digitLimit < whole.length) :
    read (String.ofList (sign negative ++ whole)) = .error (.longInteger whole.length) := by
  have hchars : IsScalarText (sign negative ++ whole) :=
    isScalarText_append.mpr ⟨isScalarText_sign negative, hwhole.isScalarText⟩
  have hscalar : scalarChars ((sign negative ++ whole).map .char) =
      sign negative ++ whole ++ [] := by
    have happend := scalarChars_append hchars []
    rwa [List.append_nil] at happend
  have hnumber : readScalar ((sign negative ++ whole).map .char) =
      .error (.longInteger whole.length) := by
    rw [readScalar_number negative hwhole hscalar, hscalar,
      readNumber_digits negative hwhole (show Stops [] from nofun), if_pos hlong]
    rfl
  obtain ⟨c, cs, htext, hmark⟩ : ∃ c cs, sign negative ++ whole = c :: cs ∧ IsMark c := by
    obtain ⟨c, cs, rfl, hc⟩ := hwhole.start
    cases negative with
    | false => exact ⟨c, cs, rfl, isMark_of_isDigit hc⟩
    | true => exact ⟨'-', c :: cs, rfl, by unfold IsMark; decide⟩
  obtain ⟨hspacing, -, hbom, hquote, hobject, hlist⟩ := hmark
  rw [htext] at hnumber
  have hskip : skipSpacing ((c :: cs).map .char) = (c :: cs).map .char := by
    rw [skipSpacing, List.map_cons, List.dropWhile_cons, hspacing]
    rfl
  have hvalue : ∀ fuel, readValue (fuel + 1) ((c :: cs).map .char) =
      .error (.longInteger whole.length) :=
    fun fuel => (readValue_scalar fuel _ hquote hobject hlist).trans hnumber
  have hall : readAll ((c :: cs).map .char) = .error (.longInteger whole.length) := by
    unfold readAll
    split
    · next heq => exact absurd (Point.char.inj (List.cons.inj heq).1) hbom
    · rw [hskip, hvalue]
      rfl
  rw [read, RawText.points_whole, String.toList_ofList, htext, hall]
  rfl

end DtoForge.Json
