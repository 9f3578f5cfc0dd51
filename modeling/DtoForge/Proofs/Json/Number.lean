import Mathlib.Data.List.Induction
import Mathlib.Data.List.TakeWhile
import Mathlib.Data.Nat.Digits.Defs
import DtoForge.Json.Reader
import DtoForge.Json.Writer
import DtoForge.Proofs.Number.Shortest
import DtoForge.Proofs.Text.Separator

/-! # Numbers — what is written for a number is read back

A number is read up to the first character that cannot continue it. The four ways to lay out the
digits of a double differ in where the point stands and whether an exponent follows, but all of them
are read as a decimal of the same value, so as the same double. -/

namespace DtoForge.Json

open Number (Double)

/-! ## Digits -/

theorem naturalOf_append (cs ds : List Char) :
    naturalOf (cs ++ ds) = naturalOf cs * 10 ^ ds.length + naturalOf ds := by
  induction ds using List.reverseRecOn with
  | nil => simp [naturalOf]
  | append_singleton ds d ih =>
      have hlast : ∀ es : List Char,
          naturalOf (es ++ [d]) = 10 * naturalOf es + (d.toNat - '0'.toNat) := by
        intro es
        simp [naturalOf]
      rw [← List.append_assoc, hlast, hlast, ih, List.length_append, List.length_singleton,
        Nat.pow_succ]
      ring

theorem naturalOf_zeros (k : Nat) : naturalOf (List.replicate k '0') = 0 := by
  induction k with
  | zero => rfl
  | succ k ih =>
      rw [List.replicate_succ', naturalOf_append, ih]
      rfl

theorem naturalOf_toString (n : Nat) : naturalOf (toString n).toList = n :=
  Text.ofDigitChars_toString n

/-- The digits of a positive number start with one that is not zero. -/
theorem exists_toString {n : Nat} (h : 0 < n) :
    ∃ c cs, (toString n).toList = c :: cs ∧ c ≠ '0' ∧ ∀ d ∈ c :: cs, d.isDigit := by
  obtain ⟨c, cs, hcs, hc⟩ : ∃ c cs, Nat.toDigits 10 n = c :: cs ∧ c ≠ '0' := by
    induction n using Nat.strongRecOn with
    | _ n ih =>
        rcases Nat.lt_or_ge n 10 with hsmall | hlarge
        · refine ⟨_, [], Nat.toDigits_of_lt_base hsmall, ?_⟩
          have hfirst : ∀ d < 10, 0 < d → Nat.digitChar d ≠ '0' := by decide
          exact hfirst n hsmall h
        · obtain ⟨c, cs, hcs, hc⟩ := ih (n / 10) (by omega) (by omega)
          refine ⟨c, cs ++ [Nat.digitChar (n % 10)], ?_, hc⟩
          rw [Nat.toDigits_of_base_le (by decide) hlarge, hcs, List.cons_append]
  have htext : (toString n).toList = c :: cs := by
    rw [Nat.toString_eq_repr, Nat.toList_repr, hcs]
  exact ⟨c, cs, htext, hc, fun d hd => Text.isDigit_of_mem_toString (htext ▸ hd)⟩

/-! ## Parts of a number -/

/-- A text that does not start with a digit. -/
def NoDigit (cs : List Char) : Prop :=
  ∀ c ∈ cs.head?, c.isDigit = false

/-- A text that cannot continue a number. -/
def Stops (cs : List Char) : Prop :=
  ∀ c ∈ cs.head?, c.isDigit = false ∧ c ≠ '.' ∧ c ≠ 'e' ∧ c ≠ 'E'

theorem Stops.noDigit {cs : List Char} (h : Stops cs) : NoDigit cs :=
  fun c hc => (h c hc).1

section Digits

variable {ds rest : List Char}

theorem takeWhile_digits (hds : ∀ d ∈ ds, d.isDigit) (hrest : NoDigit rest) :
    (ds ++ rest).takeWhile Char.isDigit = ds := by
  rw [List.takeWhile_append_of_pos hds]
  cases rest with
  | nil => simp
  | cons c rest => simp [hrest c rfl]

theorem dropWhile_digits (hds : ∀ d ∈ ds, d.isDigit) (hrest : NoDigit rest) :
    (ds ++ rest).dropWhile Char.isDigit = rest := by
  rw [List.dropWhile_append_of_pos hds]
  cases rest with
  | nil => simp
  | cons c rest => simp [hrest c rfl]

/-- A zero alone, or digits that start with another one. -/
inductive IsWhole : List Char → Prop
  | zero : IsWhole ['0']
  | digits {c cs} : c ≠ '0' → (∀ d ∈ c :: cs, d.isDigit) → IsWhole (c :: cs)

theorem IsWhole.start {whole : List Char} (h : IsWhole whole) :
    ∃ c cs, whole = c :: cs ∧ c.isDigit := by
  cases h with
  | zero => exact ⟨'0', [], rfl, by decide⟩
  | digits _ hds => exact ⟨_, _, rfl, hds _ List.mem_cons_self⟩

theorem IsWhole.readWhole {whole : List Char} (h : IsWhole whole) (hrest : NoDigit rest) :
    readWhole (whole ++ rest) = some (whole, rest) := by
  cases h with
  | zero => rfl
  | @digits c cs hc hds =>
      have htake := takeWhile_digits hds hrest
      have hdrop := dropWhile_digits hds hrest
      rw [List.cons_append] at htake hdrop ⊢
      unfold Json.readWhole
      split
      · next heq => exact absurd (List.cons.inj heq).1 hc
      · next heq =>
          obtain ⟨rfl, rfl⟩ := List.cons.inj heq
          rw [if_pos (hds _ List.mem_cons_self), htake, hdrop]
      · next heq => cases heq

theorem readFraction_digits (hne : ds ≠ []) (hds : ∀ d ∈ ds, d.isDigit) (hrest : NoDigit rest) :
    readFraction ('.' :: (ds ++ rest)) = some (ds, rest) := by
  rw [readFraction]
  simp only [takeWhile_digits hds hrest, dropWhile_digits hds hrest]
  exact if_neg (by simpa using hne)

theorem readFraction_eq_none (h : ∀ c ∈ rest.head?, c ≠ '.') : readFraction rest = none := by
  unfold readFraction
  split
  · exact absurd rfl (h '.' rfl)
  · rfl

theorem readExponent_eq_none (h : ∀ c ∈ rest.head?, c ≠ 'e' ∧ c ≠ 'E') :
    readExponent rest = none := by
  cases rest with
  | nil => rfl
  | cons c rest =>
      have hc := h c rfl
      unfold readExponent
      exact if_neg (by simp [hc.1, hc.2])

theorem readExponent_digits (negative : Bool) (hne : ds ≠ []) (hds : ∀ d ∈ ds, d.isDigit)
    (hrest : NoDigit rest) :
    readExponent ('e' :: (if negative then '-' else '+') :: (ds ++ rest)) =
      some (if negative then -(naturalOf ds : Int) else naturalOf ds, rest) := by
  have hempty : ds.isEmpty = false := by simpa using hne
  cases negative <;>
    simp [readExponent, takeWhile_digits hds hrest, dropWhile_digits hds hrest, hempty]

end Digits

/-! ## Numbers -/

/-- The sign in front of a number. -/
def sign (negative : Bool) : List Char :=
  if negative then ['-'] else []

/-- A number is read part by part. -/
theorem readNumber_parts (negative : Bool) {whole after : List Char} (hwhole : IsWhole whole)
    (hafter : NoDigit after) {fraction : Option (List Char × List Char)}
    (hfraction : readFraction after = fraction) {exponent : Option (Int × List Char)}
    (hexponent : readExponent ((fraction.map (·.2)).getD after) = exponent) :
    readNumber (sign negative ++ whole ++ after) =
      let rest := (exponent.map (·.2)).getD ((fraction.map (·.2)).getD after)
      if fraction.isNone ∧ exponent.isNone then
        if digitLimit < whole.length then .error (.tooLong whole.length)
        else .ok (.int (if negative then -(naturalOf whole : Int) else naturalOf whole), rest)
      else
        let digits := (fraction.map (·.1)).getD []
        .ok (.float (Double.ofDecimal negative (naturalOf (whole ++ digits))
          ((exponent.map (·.1)).getD 0 - digits.length)), rest) := by
  have hread := hwhole.readWhole hafter
  obtain ⟨c, cs, rfl, hc⟩ := hwhole.start
  have hne : c ≠ '-' := by
    rintro rfl
    exact absurd hc (by decide)
  rw [List.cons_append] at hread
  cases negative with
  | true =>
      rw [show sign true ++ (c :: cs) ++ after = '-' :: c :: (cs ++ after) from rfl]
      unfold readNumber
      simp only [hread, hfraction, hexponent, reduceIte]
  | false =>
      rw [show sign false ++ (c :: cs) ++ after = c :: (cs ++ after) from rfl]
      unfold readNumber
      split
      next hsign =>
        split at hsign
        · next heq => exact absurd (List.cons.inj heq).1 hne
        · cases hsign
          simp only [hread, hfraction, hexponent, Bool.false_eq_true, reduceIte]

section Number

variable {whole ds rest : List Char} (negative : Bool) (hwhole : IsWhole whole)

include hwhole

/-- Digits alone are an integer, unless there are too many of them. -/
theorem readNumber_digits (hrest : Stops rest) :
    readNumber (sign negative ++ whole ++ rest) =
      if digitLimit < whole.length then .error (.tooLong whole.length)
      else .ok (.int (if negative then -(naturalOf whole : Int) else naturalOf whole), rest) :=
  readNumber_parts negative hwhole hrest.noDigit
    (readFraction_eq_none fun c hc => (hrest c hc).2.1)
    (readExponent_eq_none fun c hc => (hrest c hc).2.2)

/-- Digits, a point and digits. -/
theorem readNumber_positional (hne : ds ≠ []) (hds : ∀ d ∈ ds, d.isDigit) (hrest : Stops rest) :
    readNumber (sign negative ++ whole ++ '.' :: (ds ++ rest)) =
      .ok (.float (Double.ofDecimal negative (naturalOf (whole ++ ds)) (-(ds.length : Int))),
        rest) := by
  have hafter : NoDigit ('.' :: (ds ++ rest)) := by
    rintro c ⟨⟩
    rfl
  rw [readNumber_parts negative hwhole hafter (readFraction_digits hne hds hrest.noDigit)
    (readExponent_eq_none fun c hc => (hrest c hc).2.2)]
  simp

/-- Digits, a point and digits unless there are none, and an exponent. -/
theorem readNumber_scientific {tail : List Char} (htail : ∀ d ∈ tail, d.isDigit) (below : Bool)
    (hne : ds ≠ []) (hds : ∀ d ∈ ds, d.isDigit) (hrest : Stops rest) :
    readNumber (sign negative ++ whole ++ ((if tail.isEmpty then [] else '.' :: tail) ++
        'e' :: (if below then '-' else '+') :: (ds ++ rest))) =
      .ok (.float (Double.ofDecimal negative (naturalOf (whole ++ tail))
        ((if below then -(naturalOf ds : Int) else naturalOf ds) - tail.length)), rest) := by
  have hmark : ∀ cs : List Char, NoDigit ('e' :: cs) := by
    rintro cs c ⟨⟩
    rfl
  have hexponent := readExponent_digits below hne hds hrest.noDigit
  cases tail with
  | nil =>
      rw [List.isEmpty_nil, if_pos rfl, List.nil_append]
      have hfraction : readFraction ('e' :: (if below then '-' else '+') :: (ds ++ rest)) = none :=
        readFraction_eq_none (by rintro c ⟨⟩; decide)
      rw [readNumber_parts negative hwhole (hmark _) hfraction hexponent]
      simp
  | cons t tail =>
      rw [List.isEmpty_cons, if_neg Bool.false_ne_true, List.cons_append]
      have hafter : ∀ cs : List Char, NoDigit ('.' :: cs) := by
        rintro cs c ⟨⟩
        rfl
      rw [readNumber_parts negative hwhole (hafter _)
        (readFraction_digits (List.cons_ne_nil t tail) htail (hmark _)) hexponent]
      simp

end Number

/-! ## Doubles -/

/-- Characters that can all stand in a word or a number. -/
def IsScalarText (cs : List Char) : Prop :=
  ∀ c ∈ cs, isScalarChar c

/-- A text in the characters of numbers that is read, behind either sign, as the double nearest to
`digits * 10 ^ power`, up to the first character that cannot continue it. -/
def ReadsAs (text : List Char) (digits : Nat) (power : Int) : Prop :=
  IsScalarText text ∧ ∃ (whole after : List Char) (d : Nat) (p : Int), text = whole ++ after ∧
    IsWhole whole ∧ (d : ℚ) * 10 ^ p = digits * 10 ^ power ∧
    ∀ negative rest, Stops rest → readNumber (sign negative ++ whole ++ (after ++ rest)) =
      .ok (.float (Double.ofDecimal negative d p), rest)

theorem isScalarText_of_all {cs : List Char} (h : cs.all isScalarChar = true) : IsScalarText cs :=
  List.all_eq_true.mp h

@[simp] theorem isScalarText_nil : IsScalarText [] := nofun

@[simp] theorem isScalarText_cons {c : Char} {cs : List Char} :
    IsScalarText (c :: cs) ↔ isScalarChar c ∧ IsScalarText cs :=
  List.forall_mem_cons

@[simp] theorem isScalarText_append {cs ds : List Char} :
    IsScalarText (cs ++ ds) ↔ IsScalarText cs ∧ IsScalarText ds :=
  List.forall_mem_append

theorem IsScalarText.return_not_mem {cs : List Char} (h : IsScalarText cs) : '\r' ∉ cs :=
  fun hmem => absurd (h _ hmem) (by decide)

theorem isScalarText_digits {ds : List Char} (hds : ∀ d ∈ ds, d.isDigit) : IsScalarText ds := by
  intro d hd
  simp [isScalarChar, Char.isAlphanum, hds d hd]

theorem IsWhole.isScalarText {whole : List Char} (h : IsWhole whole) : IsScalarText whole := by
  cases h with
  | zero => exact isScalarText_of_all rfl
  | digits _ hds => exact isScalarText_digits hds

@[simp] theorem isScalarText_sign (negative : Bool) : IsScalarText (sign negative) := by
  cases negative with
  | false => exact isScalarText_nil
  | true => exact List.forall_mem_singleton.mpr rfl

section Layouts

variable {whole ds : List Char} {digits : Nat} {power : Int}

theorem ReadsAs.positional (hwhole : IsWhole whole) (hne : ds ≠ []) (hds : ∀ d ∈ ds, d.isDigit)
    (hvalue : (naturalOf (whole ++ ds) : ℚ) * 10 ^ (-(ds.length : Int)) = digits * 10 ^ power) :
    ReadsAs (whole ++ '.' :: ds) digits power := by
  refine ⟨?_, whole, '.' :: ds, _, _, rfl, hwhole, hvalue, fun negative _ hrest =>
    readNumber_positional negative hwhole hne hds hrest⟩
  have hpoint : isScalarChar '.' := rfl
  simp [hwhole.isScalarText, isScalarText_digits hds, hpoint]

theorem ReadsAs.scientific {tail : List Char} (hwhole : IsWhole whole)
    (htail : ∀ d ∈ tail, d.isDigit) (below : Bool) (hne : ds ≠ []) (hds : ∀ d ∈ ds, d.isDigit)
    (hvalue : (naturalOf (whole ++ tail) : ℚ) *
      10 ^ ((if below then -(naturalOf ds : Int) else naturalOf ds) - tail.length) =
        digits * 10 ^ power) :
    ReadsAs (whole ++ ((if tail.isEmpty then [] else '.' :: tail) ++
      'e' :: (if below then '-' else '+') :: ds)) digits power := by
  refine ⟨?_, whole, _, _, _, rfl, hwhole, hvalue, fun negative rest hrest => ?_⟩
  · have hmarks : IsScalarText ['.', 'e', '-', '+'] := isScalarText_of_all rfl
    have hsize := isScalarText_digits hds
    have hdigits := isScalarText_digits htail
    have hwhole := hwhole.isScalarText
    simp only [isScalarText_cons] at hmarks
    cases below <;> cases tail <;> simp_all
  have hread := readNumber_scientific negative hwhole htail below hne hds hrest
  rwa [← List.cons_append, ← List.cons_append, ← List.append_assoc (ite _ _ _)] at hread

end Layouts

theorem isDigit_of_mem_zeros {k : Nat} {d : Char} (h : d ∈ List.replicate k '0') : d.isDigit := by
  rw [List.eq_of_mem_replicate h]
  rfl

/-- The size of an exponent has two digits or more. -/
theorem padded_spec (n : Nat) :
    let text := if (toString n).length < 2 then "0" ++ toString n else toString n
    text.toList ≠ [] ∧ (∀ d ∈ text.toList, d.isDigit) ∧ naturalOf text.toList = n := by
  have hdigits : ∀ d ∈ (toString n).toList, d.isDigit := fun d hd =>
    Text.isDigit_of_mem_toString hd
  simp only
  split
  · rw [String.toList_append]
    refine ⟨List.cons_ne_nil _ _, List.forall_mem_cons.mpr ⟨rfl, hdigits⟩, ?_⟩
    have hzero : naturalOf "0".toList = 0 := rfl
    rw [naturalOf_append, naturalOf_toString, hzero, Nat.zero_mul, Nat.zero_add]
  · next hlong =>
      refine ⟨?_, hdigits, naturalOf_toString n⟩
      intro hnil
      rw [← String.length_toList, hnil] at hlong
      exact hlong (by decide)

theorem toList_scientific (c : Char) (cs : List Char) (below : Prop) [Decidable below]
    (size : String) :
    (String.ofList ((c :: cs).take 1) ++
      (if ((c :: cs).drop 1).isEmpty then "" else "." ++ String.ofList ((c :: cs).drop 1)) ++ "e" ++
      (if below then "-" else "+") ++ size).toList =
        [c] ++ ((if cs.isEmpty then [] else '.' :: cs) ++
          'e' :: (if decide below then '-' else '+') :: size.toList) := by
  cases cs <;> by_cases h : below <;> simp [h]

section Digits

variable {digits : Nat} {c : Char} {cs : List Char} (hds : ∀ d ∈ c :: cs, d.isDigit)
  (hvalue : naturalOf (c :: cs) = digits)

include hds hvalue

/-- A zero, the point, and zeros in front of the digits. -/
theorem readsAs_front {zeros : Nat} {power : Int} (hpower : power = -(zeros + cs.length + 1 : Nat)) :
    ReadsAs (['0'] ++ '.' :: (List.replicate zeros '0' ++ c :: cs)) digits power := by
  refine .positional .zero (by simp) (fun d hd => ?_) ?_
  · rcases List.mem_append.mp hd with hd | hd
    · exact isDigit_of_mem_zeros hd
    · exact hds d hd
  · have hnatural : naturalOf (['0'] ++ (List.replicate zeros '0' ++ c :: cs)) = digits := by
      rw [naturalOf_append, naturalOf_append, naturalOf_zeros, hvalue]
      simp [naturalOf]
    have hlength : -((List.replicate zeros '0' ++ c :: cs).length : Int) = power := by
      rw [List.length_append, List.length_replicate, List.length_cons]
      omega
    rw [hnatural, hlength]

/-- Zeros behind the digits, and a zero behind the point. -/
theorem readsAs_behind (hc : c ≠ '0') (zeros : Nat) :
    ReadsAs (c :: (cs ++ List.replicate zeros '0') ++ '.' :: ['0']) digits zeros := by
  refine .positional (.digits hc fun d hd => ?_) (by simp) (by simp) ?_
  · rw [← List.cons_append] at hd
    rcases List.mem_append.mp hd with hd | hd
    · exact hds d hd
    · exact isDigit_of_mem_zeros hd
  · have hnatural : naturalOf (c :: (cs ++ List.replicate zeros '0') ++ ['0']) =
        digits * 10 ^ (zeros + 1) := by
      rw [← List.cons_append, List.append_assoc, naturalOf_append, hvalue, naturalOf_append,
        naturalOf_zeros]
      simp [naturalOf]
    rw [hnatural]
    push_cast
    rw [zpow_natCast, pow_succ, mul_assoc, mul_assoc]
    simp

/-- The point within the digits. -/
theorem readsAs_within (hc : c ≠ '0') {k : Nat} (hk : k < cs.length) {power : Int}
    (hpower : power = -(cs.length - k : Nat)) :
    ReadsAs (c :: cs.take k ++ '.' :: cs.drop k) digits power := by
  refine .positional (.digits hc fun d hd => ?_) ?_ (fun d hd => ?_) ?_
  · exact hds d (List.mem_cons.mpr ((List.mem_cons.mp hd).imp_right List.mem_of_mem_take))
  · rw [Ne, List.drop_eq_nil_iff]
    omega
  · exact hds d (List.mem_cons_of_mem _ (List.mem_of_mem_drop hd))
  · rw [List.cons_append, List.take_append_drop, hvalue, List.length_drop, hpower]

/-- One digit, the others behind the point, and an exponent. -/
theorem readsAs_exponent (hc : c ≠ '0') {ten power : Int} (hpower : power = ten - cs.length) :
    ReadsAs ([c] ++ ((if cs.isEmpty then [] else '.' :: cs) ++
      'e' :: (if decide (ten < 0) then '-' else '+') ::
        (if (toString ten.natAbs).length < 2 then "0" ++ toString ten.natAbs
          else toString ten.natAbs).toList)) digits power := by
  obtain ⟨hne, hsize, hnatural⟩ := padded_spec ten.natAbs
  refine .scientific (.digits hc ?_) ?_ _ hne hsize ?_
  · simpa using hds c List.mem_cons_self
  · exact fun d hd => hds d (List.mem_cons_of_mem c hd)
  · have hten : (if decide (ten < 0) then -(ten.natAbs : Int) else ten.natAbs) = ten := by
      simp only [decide_eq_true_eq]
      split <;> omega
    rw [hnatural, hten, List.singleton_append, hvalue, hpower]

end Digits

/-- The digits of a double are laid out as a decimal of the same value. -/
theorem readsAs_layout {digits : Nat} (hpos : 0 < digits) (power : Int) :
    ReadsAs (Double.layout digits power).toList digits power := by
  obtain ⟨c, cs, htext, hc, hds⟩ := exists_toString hpos
  have hvalue := naturalOf_toString digits
  have hlength : (toString digits).length = cs.length + 1 := by
    rw [← String.length_toList, htext, List.length_cons]
  rw [htext] at hvalue
  unfold Double.layout
  simp only [hlength, htext]
  split
  · split
    · next hfront =>
        have hpower : power =
            -((-((cs.length + 1 : Nat) + power)).toNat + cs.length + 1 : Nat) := by omega
        simp only [String.toList_append, String.toList_ofList, htext]
        exact readsAs_front hds hvalue hpower
    · next hfront =>
        split
        · next hbehind =>
            obtain ⟨zeros, rfl⟩ := Int.eq_ofNat_of_zero_le (show 0 ≤ power by omega)
            have hzeros : ((cs.length + 1 : Nat) + (zeros : Int) - (cs.length + 1 : Nat)).toNat =
                zeros := by omega
            simp only [String.toList_append, String.toList_ofList, htext, hzeros]
            exact readsAs_behind hds hvalue hc zeros
        · next hwithin =>
            obtain ⟨k, hk⟩ := Int.eq_ofNat_of_zero_le
              (show 0 ≤ (cs.length + 1 : Nat) + power - 1 by omega)
            have hpoint : ((cs.length + 1 : Nat) + power).toNat = k + 1 := by omega
            simp only [String.toList_append, String.toList_ofList, hpoint]
            rw [List.append_assoc]
            exact readsAs_within hds hvalue hc (by omega) (by omega)
  · rw [toList_scientific]
    exact readsAs_exponent hds hvalue hc (by omega)

/-- **The text of a double is read as it**, up to the first character that cannot continue it. -/
theorem readNumber_finiteText (negative : Bool) {mantissa : Nat} {exponent : Int}
    (hdouble : Double.IsDouble mantissa exponent) :
    ∃ whole after, (Double.finiteText negative mantissa exponent).toList =
        sign negative ++ whole ++ after ∧ IsWhole whole ∧
      IsScalarText (Double.finiteText negative mantissa exponent).toList ∧
      ∀ rest, Stops rest → readNumber (sign negative ++ whole ++ (after ++ rest)) =
        .ok (.float (.finite negative mantissa exponent), rest) := by
  have hsign : ∀ body : String, (if negative then "-" ++ body else body).toList =
      sign negative ++ body.toList := by
    intro body
    cases negative with
    | false => rfl
    | true => rw [if_pos rfl, String.toList_append]; rfl
  unfold Double.finiteText
  simp only [hsign]
  split
  · next hzero =>
      -- the double zero has the least exponent
      have hexponent : exponent = -1074 := by
        rcases hdouble.full with hfull | hleast
        · rw [hzero] at hfull
          exact absurd hfull (by decide)
        · exact hleast
      refine ⟨['0'], ['.', '0'], by cases negative <;> rfl, .zero,
        by cases negative <;> exact isScalarText_of_all rfl, fun rest hrest => ?_⟩
      rw [hzero, hexponent, List.cons_append,
        readNumber_positional negative .zero (by simp) (by simp) hrest]
      rfl
  · next hzero =>
      have hpos := Nat.pos_of_ne_zero hzero
      obtain ⟨hdigits, hrounds⟩ := Double.shortest_rounds hdouble hpos
      obtain ⟨hline, whole, after, d, p, htext, hwhole, hvalue, hread⟩ :=
        readsAs_layout hdigits (Double.shortest mantissa exponent).2
      refine ⟨whole, after, ?_, hwhole, ?_, fun rest hrest => ?_⟩
      · rw [htext, List.append_assoc]
      · exact isScalarText_append.mpr ⟨isScalarText_sign negative, hline⟩
      · rw [hread negative rest hrest,
          Double.ofDecimal_of_rounds negative hdouble hpos (hvalue ▸ hrounds)]

theorem isWhole_toString (n : Nat) : IsWhole (toString n).toList := by
  rcases Nat.eq_zero_or_pos n with rfl | hpos
  · exact .zero
  · obtain ⟨c, cs, htext, hc, hds⟩ := exists_toString hpos
    exact htext ▸ .digits hc hds

/-- The text of an integer is a sign and digits. -/
theorem toList_toString_int (n : Int) :
    (toString n).toList = sign (decide (n < 0)) ++ (toString n.natAbs).toList := by
  cases n with
  | ofNat n => rfl
  | negSucc n =>
      have htext : toString (Int.negSucc n) = "-" ++ toString (n + 1) := rfl
      rw [htext, String.toList_append, decide_eq_true (Int.negSucc_lt_zero n)]
      rfl

/-- How many digits an integer is written with. -/
def digitsOf (n : Int) : Nat :=
  (toString n.natAbs).length

/-- **The text of an integer is read as it**, up to the first character that cannot continue it, if
it has no more digits than are read. -/
theorem readNumber_toString {n : Int} (hdigits : digitsOf n ≤ digitLimit) {rest : List Char}
    (hrest : Stops rest) : readNumber ((toString n).toList ++ rest) = .ok (.int n, rest) := by
  have hvalue : (if decide (n < 0) then -(n.natAbs : Int) else n.natAbs) = n := by
    simp only [decide_eq_true_eq]
    split <;> omega
  have hshort : ¬ digitLimit < (toString n.natAbs).toList.length := by
    rw [String.length_toList]
    exact Nat.not_lt.mpr hdigits
  rw [toList_toString_int, readNumber_digits _ (isWhole_toString _) hrest, if_neg hshort,
    naturalOf_toString, hvalue]

/-! ## Sizes -/

theorem naturalOf_lt {ds : List Char} (hds : ∀ d ∈ ds, d.isDigit) :
    naturalOf ds < 10 ^ ds.length := by
  induction ds using List.reverseRecOn with
  | nil => decide
  | append_singleton ds d ih =>
      have hinit := ih fun e he => hds e (List.mem_append_left _ he)
      have hdigit : d.isDigit := hds d (List.mem_append_right _ (List.mem_singleton_self d))
      have hlast : naturalOf [d] < 10 := by
        simp only [Char.isDigit, Bool.and_eq_true, decide_eq_true_eq] at hdigit
        have hupper : d.toNat ≤ '9'.toNat := hdigit.2
        simp only [naturalOf, List.foldl_cons, List.foldl_nil]
        have hnine : '9'.toNat = '0'.toNat + 9 := rfl
        omega
      rw [naturalOf_append, List.length_append, List.length_singleton, Nat.pow_succ 10 ds.length]
      omega

/-- A number has no more digits than one of the texts that stand for it. -/
theorem digitsOf_naturalOf_le {ds : List Char} (hne : ds ≠ []) (hds : ∀ d ∈ ds, d.isDigit)
    (negative : Bool) :
    digitsOf (if negative then -(naturalOf ds : Int) else naturalOf ds) ≤ ds.length := by
  have hsize : (if negative then -(naturalOf ds : Int) else naturalOf ds).natAbs =
      naturalOf ds := by
    cases negative <;> simp
  rw [digitsOf, hsize]
  exact Nat.repr_length _ _ (List.length_pos_iff.mpr hne) (naturalOf_lt hds)

/-- The digits in front of a number are digits. -/
theorem digits_of_readWhole {cs whole rest : List Char} (h : readWhole cs = some (whole, rest)) :
    whole ≠ [] ∧ ∀ d ∈ whole, d.isDigit := by
  unfold readWhole at h
  split at h
  · cases h
    exact ⟨List.cons_ne_nil _ _, List.forall_mem_singleton.mpr rfl⟩
  · next c tail =>
      split at h
      · next hdigit =>
          cases h
          refine ⟨?_, fun d hd => List.mem_takeWhile_imp hd⟩
          rw [List.takeWhile_cons, if_pos hdigit]
          exact List.cons_ne_nil _ _
      · cases h
  · cases h

/-! ## Scalars -/

theorem scalarChars_append {cs : List Char} (h : IsScalarText cs) (ps : List Point) :
    scalarChars (cs.map .char ++ ps) = cs ++ scalarChars ps := by
  induction cs with
  | nil => rfl
  | cons c cs ih =>
      obtain ⟨hc, hcs⟩ := isScalarText_cons.mp h
      rw [List.map_cons, List.cons_append, scalarChars, if_pos hc, ih hcs, List.cons_append]

/-- What follows characters that a scalar took up is what stands behind them. -/
theorem drop_scalarChars (cs : List Char) (ps : List Point) :
    (cs.map Point.char ++ ps).drop ((cs ++ scalarChars ps).length - (scalarChars ps).length) =
      ps := by
  rw [List.length_append, Nat.add_sub_cancel_right]
  exact List.drop_left' (List.length_map _)

/-- No word starts with a digit, also behind a sign. -/
theorem readScalar_number (negative : Bool) {whole rest : List Char} (h : IsWhole whole)
    {ps : List Point} (hps : scalarChars ps = sign negative ++ whole ++ rest) :
    readScalar ps = ((readNumber (scalarChars ps)).mapError (NumberFault.faultAt ps)).map
      fun (value, rest) => (value, ps.drop ((scalarChars ps).length - rest.length)) := by
  obtain ⟨c, cs, rfl, hc⟩ := h.start
  have hdigit : ∀ d : Char, d.isDigit = false → (d == c) = false := by
    intro d hd
    rw [beq_eq_false_iff_ne]
    rintro rfl
    exact absurd hd (by simp [hc])
  have hnone : words.find? (fun w => w.1.isPrefixOf (scalarChars ps)) = none := by
    rw [List.find?_eq_none, hps]
    intro w hw
    simp only [words, List.mem_cons, List.not_mem_nil, or_false] at hw
    rcases hw with rfl | rfl | rfl | rfl | rfl | rfl <;> cases negative <;>
      simp [sign, List.isPrefixOf, hdigit]
  simp only [readScalar, hnone]

/-- A number is read up to whatever cannot continue it. -/
theorem readScalar_of_readNumber (negative : Bool) {whole after : List Char} (h : IsWhole whole)
    (htext : IsScalarText (sign negative ++ whole ++ after)) {ps : List Point} {v : Json}
    (hread : readNumber (sign negative ++ whole ++ after ++ scalarChars ps) =
      .ok (v, scalarChars ps)) :
    readScalar ((sign negative ++ whole ++ after).map .char ++ ps) = .ok (v, ps) := by
  have hps := scalarChars_append htext ps
  rw [readScalar_number negative h (by rw [hps, List.append_assoc _ after]), hps, hread]
  exact congrArg (Except.ok <| Prod.mk v ·) (drop_scalarChars _ ps)

end DtoForge.Json
