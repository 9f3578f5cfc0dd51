import DtoForge.Json.Shape
import DtoForge.Proofs.Steps
import DtoForge.Proofs.Text.Raw

/-! # Shape — what reading values is refused with

Callers answer for every class of refusals but one: a number that has no integer part because it is
infinite. Only the reader of integers refuses with it, and only such a number. -/

namespace DtoForge

/-- A refusal that callers answer for. -/
def ShapeError.Plain (cause : ShapeError) : Prop :=
  cause.errorClass ≠ .range

/-- All but one of the refusals are plain. -/
theorem ShapeError.plain_iff {cause : ShapeError} : cause.Plain ↔ cause ≠ .infiniteNumber := by
  cases cause <;> simp [ShapeError.Plain, ShapeError.errorClass]

namespace Json

open ShapeError (Plain)

variable (v : Json)

theorem entriesFor_plain (member : String) : Steps.FailsWith Plain (v.entriesFor member) := by
  cases v with
  | object es => exact Steps.failsWith_ok es
  | _ => exact Steps.failsWith_error nofun

theorem textFor_plain (member : String) : Steps.FailsWith Plain (v.textFor member) := by
  cases v with
  | str s => exact Steps.failsWith_ok s.legible
  | _ => exact Steps.failsWith_error nofun

theorem matchedText_plain : Steps.FailsWith Plain v.matchedText := by
  cases v with
  | str s => exact Steps.failsWith_ok s.legible
  | _ => exact Steps.failsWith_error nofun

/-- What has no elements is refused for its kind. -/
theorem elements_plain : Steps.FailsWith Plain v.elements := by
  cases v with
  | list _ | object _ | str _ => exact Steps.failsWith_ok _
  | _ => exact Steps.failsWith_error nofun

/-- Nor is any text looked for in what cannot hold one. -/
theorem mentions_plain (word : String) : Steps.FailsWith Plain (v.mentions word) := by
  cases v with
  | list _ | object _ | str _ => exact Steps.failsWith_ok _
  | _ => exact Steps.failsWith_error nofun

/-- A text is refused for what it writes, however many digits that has. -/
theorem integerOfText_plain (s : RawText) : Steps.FailsWith Plain (integerOfText s) := by
  unfold integerOfText
  simp only
  split
  · exact Steps.failsWith_error nofun
  · split
    · exact Steps.failsWith_error nofun
    · split
      · exact Steps.failsWith_error nofun
      · exact Steps.failsWith_ok _

/-- Of all values only an infinite number is refused for its range. -/
theorem integer_plain_iff :
    Steps.FailsWith Plain v.integer ↔ ∀ sign, v ≠ .float (.infinite sign) := by
  cases v with
  | float x =>
      cases x with
      | infinite sign =>
          exact iff_of_false (fun h => h .infiniteNumber rfl rfl) fun h => h sign rfl
      | finite negative m e =>
          refine iff_of_true ?_ nofun
          rw [integer]
          split
          · exact Steps.failsWith_ok _
          · exact Steps.failsWith_error nofun
          · nofun
      | nan => exact iff_of_true (Steps.failsWith_error nofun) nofun
  | str s => exact iff_of_true (integerOfText_plain s) nofun
  | int _ | bool _ => exact iff_of_true (Steps.failsWith_ok _) nofun
  | null | list _ | object _ => exact iff_of_true (Steps.failsWith_error nofun) nofun

/-! ## Parts and items -/

/-- The parts of a value where an object may stand. -/
def partsOf (v : Json) : Except ShapeError (Entries Json) :=
  match v.given? with
  | some v => v.entriesFor "get"
  | none => .ok []

/-- The items of a value where a list may stand. -/
def itemsOf (v : Json) : Except ShapeError (List Json) :=
  match v.given? with
  | some v => v.elements
  | none => .ok []

/-- Parts and items are refused as what they are read with. -/
theorem partsOf_plain : Steps.FailsWith Plain v.partsOf := by
  unfold partsOf
  split
  · exact entriesFor_plain _ _
  · exact Steps.failsWith_ok _

theorem itemsOf_plain : Steps.FailsWith Plain v.itemsOf := by
  unfold itemsOf
  split
  · exact elements_plain _
  · exact Steps.failsWith_ok _

/-- A value stands for these parts: for its entries, or for none if it does not count as given. -/
inductive HasParts : Json → Entries Json → Prop
  | object (es : Entries Json) : HasParts (.object es) es
  | absent {v : Json} (h : v.isGiven = false) : HasParts v []

/-- A value stands for these items: for its elements, or for none if it does not count as given. -/
inductive HasItems : Json → List Json → Prop
  | elements {v : Json} {items : List Json} (h : v.elements = .ok items) : HasItems v items
  | absent {v : Json} (h : v.isGiven = false) : HasItems v []

variable {v}

theorem entriesFor_eq_ok_iff {member : String} {es : Entries Json} :
    v.entriesFor member = .ok es ↔ v = .object es := by
  cases v <;> simp [entriesFor]

/-- The parts of a value are the entries that it stands for. -/
theorem partsOf_eq_ok_iff {es : Entries Json} : v.partsOf = .ok es ↔ v.HasParts es := by
  unfold partsOf given?
  cases hgiven : v.isGiven with
  | true =>
      simp only [if_true, entriesFor_eq_ok_iff]
      constructor
      · rintro rfl
        exact .object es
      · intro h
        cases h with
        | object => rfl
        | absent h => cases hgiven.symm.trans h
  | false =>
      simp only [Bool.false_eq_true, if_false, Except.ok.injEq]
      constructor
      · rintro rfl
        exact .absent hgiven
      · intro h
        cases h with
        | object => cases es <;> simp_all [isGiven]
        | absent => rfl

/-- What does not count as given and has elements has none. -/
theorem elements_eq_nil {items : List Json} (hgiven : v.isGiven = false)
    (h : v.elements = .ok items) : items = [] := by
  cases v with
  | list xs | object es => simp_all [isGiven, elements]
  | str s =>
      rw [isGiven, Bool.not_eq_false', RawText.isEmpty_iff] at hgiven
      cases hgiven
      cases h
      rfl
  | _ => cases h

/-- The items of a value are the elements that it stands for. -/
theorem itemsOf_eq_ok_iff {items : List Json} : v.itemsOf = .ok items ↔ v.HasItems items := by
  unfold itemsOf given?
  cases hgiven : v.isGiven with
  | true =>
      refine ⟨.elements, fun h => ?_⟩
      cases h with
      | elements h => exact h
      | absent h => cases hgiven.symm.trans h
  | false =>
      simp only [Bool.false_eq_true, if_false, Except.ok.injEq]
      constructor
      · rintro rfl
        exact .absent hgiven
      · intro h
        cases h with
        | elements h => exact (elements_eq_nil hgiven h).symm
        | absent => rfl

end Json

end DtoForge
