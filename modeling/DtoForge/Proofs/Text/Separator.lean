import Mathlib.Data.List.Basic

/-! # Separators — cutting a text at its last separator

When no separator stands behind the last one, the whole determines what stands before it and what
stands behind it. A number that stands there is determined by its digits. -/

namespace DtoForge.Text

variable {α : Type} [DecidableEq α] {c : α} {x y : List α}

theorem takeWhile_ne_append (hx : c ∉ x) (rest : List α) :
    (x ++ c :: rest).takeWhile (· != c) = x := by
  have hall : ∀ a ∈ x, (a != c) = true := by
    intro a ha
    simpa using ne_of_mem_of_not_mem ha hx
  rw [List.takeWhile_append_of_pos hall]
  simp

theorem dropWhile_ne_append (hx : c ∉ x) (rest : List α) :
    (x ++ c :: rest).dropWhile (· != c) = c :: rest := by
  have hall : ∀ a ∈ x, (a != c) = true := by
    intro a ha
    simpa using ne_of_mem_of_not_mem ha hx
  rw [List.dropWhile_append_of_pos hall]
  simp

/-- The text behind the last separator, and the text before it. -/
theorem last_separator_inj {a b : List α} (hx : c ∉ x) (hy : c ∉ y)
    (h : a ++ c :: x = b ++ c :: y) : a = b ∧ x = y := by
  have hback : ∀ {d z : List α}, c ∉ z →
      (d ++ c :: z).reverse.takeWhile (· != c) = z.reverse := by
    intro d z hz
    rw [List.reverse_append, List.reverse_cons, List.append_assoc, List.singleton_append]
    exact takeWhile_ne_append (by simpa using hz) _
  obtain rfl : x = y := by
    apply List.reverse_inj.mp
    rw [← hback hx, h, hback hy]
  exact ⟨List.append_cancel_right h, rfl⟩

/-! ## Numbers -/

/-- A number can be read back from its digits. -/
theorem ofDigitChars_toString (n : Nat) : Nat.ofDigitChars 10 (toString n).toList 0 = n := by
  rw [Nat.toString_eq_repr, Nat.toList_repr, Nat.ofDigitChars_ten_toDigits]

theorem toString_injective : Function.Injective (toString : Nat → String) := by
  intro m n h
  rw [← ofDigitChars_toString m, h, ofDigitChars_toString]

theorem isDigit_of_mem_toString {n : Nat} {d : Char} (h : d ∈ (toString n).toList) : d.isDigit := by
  rw [Nat.toString_eq_repr, Nat.toList_repr] at h
  exact Nat.isDigit_of_mem_toDigits (by decide) (by decide) h

theorem underscore_not_mem_toString (n : Nat) : '_' ∉ (toString n).toList := by
  rw [Nat.toString_eq_repr, Nat.toList_repr]
  exact Nat.underscore_not_in_toDigits

end DtoForge.Text
