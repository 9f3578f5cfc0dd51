import DtoForge.Proofs.Json.Number
import DtoForge.Proofs.Json.Text

/-! # Remainder — what the reader leaves of a text

What a part of the reader leaves is an end of what it was given, and the digits of an integer it
gave up for stand in what it was given (`Within`). -/

namespace DtoForge.Json

/-- So many digits stand in a row, and more than are read. -/
def HoldsDigits (ps : List Point) (n : Nat) : Prop :=
  digitLimit < n ∧ ∃ ds : List Char, ds.map .char <:+: ps ∧ ds.length = n ∧ ∀ d ∈ ds, d.isDigit

section Within

variable {α β : Type} {ps rest : List Point} {x : Except ReadFault (α × List Point)}

/-- What is left of a text is an end of it, and the digits that are too many stand in it. -/
def Within (ps : List Point) : Except ReadFault (α × List Point) → Prop
  | .ok (_, rest) => rest <:+ ps
  | .error (.longInteger n) => HoldsDigits ps n
  | .error (.misread _ _) => True

theorem Within.suffix {a : α} (h : Within ps x) (hx : x = .ok (a, rest)) : rest <:+ ps := by
  subst hx
  exact h

theorem Within.mono (h : Within rest x) (hrest : rest <:+ ps) : Within ps x := by
  match x, h with
  | .ok (_, left), h => exact List.IsSuffix.trans h hrest
  | .error (.longInteger n), ⟨hn, ds, hds, hlength⟩ =>
      exact ⟨hn, ds, hds.trans hrest.isInfix, hlength⟩
  | .error (.misread _ _), _ => trivial

theorem Within.bind {f : α × List Point → Except ReadFault (β × List Point)} (hx : Within ps x)
    (hf : ∀ a rest, Within rest (f (a, rest))) : Within ps (x >>= f) := by
  match x, hx with
  | .ok (a, rest), hx => exact (hf a rest).mono hx
  | .error (.longInteger n), hx => exact hx
  | .error (.misread _ _), _ => trivial

theorem skipSpacing_suffix (ps : List Point) : skipSpacing ps <:+ ps :=
  List.dropWhile_suffix _

theorem suffix_of_skipSpacing {mark : Point} (h : skipSpacing ps = mark :: rest) : rest <:+ ps :=
  (List.suffix_cons mark rest).trans (h ▸ skipSpacing_suffix ps)

end Within

/-! ## Parts of a text -/

theorem readParts_within (start : List Point) (parts : List TextPart) (ps : List Point) :
    Within ps (readParts start parts ps) := by
  fun_induction readParts start parts ps with
  | case1 | case3 | case5 | case7 | case8 | case9 => trivial
  | case2 parts rest => exact List.suffix_cons (.char '"') rest
  | case4 parts a b c d rest n hquad hempty ih =>
      exact ih.mono (List.suffix_append [Point.char '\\', Point.char 'u', a, b, c, d] rest)
  | case6 parts p rest _ e _ ih => exact ih.mono (List.suffix_append [Point.char '\\', p] rest)
  | case10 parts p rest _ _ _ _ _ ih => exact ih.mono (List.suffix_cons p rest)

theorem readText_within (ps : List Point) : Within ps (readText ps) := by
  have h := readParts_within (.char '"' :: ps) [] ps
  rw [readText]
  cases hparts : readParts (.char '"' :: ps) [] ps with
  | error fault =>
      rw [hparts] at h
      cases fault <;> exact h
  | ok result =>
      rw [hparts] at h
      exact h

/-! ## Numbers and words -/

theorem readWhole_prefix {cs whole rest : List Char} (h : readWhole cs = some (whole, rest)) :
    cs = whole ++ rest := by
  unfold readWhole at h
  split at h
  · cases h
    rfl
  · split at h
    · cases h
      exact List.takeWhile_append_dropWhile.symm
    · cases h
  · cases h

/-- The digits that are too many stand behind the sign. -/
theorem digits_of_tooLong {cs : List Char} {n : Nat} (h : readNumber cs = .error (.tooLong n)) :
    digitLimit < n ∧ ∃ ds, ds <:+: cs ∧ ds.length = n ∧ ∀ d ∈ ds, d.isDigit := by
  unfold readNumber at h
  split at h
  next negative unsigned hsign =>
    have hunsigned : unsigned <:+ cs := by
      split at hsign
      · cases hsign
        exact List.suffix_cons '-' _
      · cases hsign
        exact List.suffix_refl cs
    split at h
    · cases h
    · next whole afterWhole hwhole =>
        obtain ⟨-, hdigits⟩ := digits_of_readWhole hwhole
        obtain rfl := readWhole_prefix hwhole
        simp only at h
        split at h
        · split at h
          · next hlong =>
              cases h
              refine ⟨hlong, whole, ?_, rfl, hdigits⟩
              exact (List.prefix_append whole afterWhole).isInfix.trans hunsigned.isInfix
          · cases h
        · cases h

theorem scalarChars_isPrefix (ps : List Point) : (scalarChars ps).map .char <+: ps := by
  fun_induction scalarChars ps with
  | case1 c ps _ ih => exact List.prefix_cons_inj _ |>.mpr ih
  | case2 | case3 => exact List.nil_prefix

theorem readScalar_within (ps : List Point) : Within ps (readScalar ps) := by
  unfold readScalar
  simp only
  split
  · exact List.drop_suffix _ ps
  · cases hnumber : readNumber (scalarChars ps) with
    | ok answer => exact List.drop_suffix _ ps
    | error fault =>
        cases fault with
        | noNumber => trivial
        | tooLong n =>
            obtain ⟨hn, ds, hds, hlength, hdigits⟩ := digits_of_tooLong hnumber
            refine ⟨hn, ds, ?_, hlength, hdigits⟩
            exact (hds.map Point.char).trans (scalarChars_isPrefix ps).isInfix

/-! ## Values -/

/-- Every part of the reader stays in its text, a value as well as items and entries. -/
theorem reads_within (fuel : Nat) :
    (∀ ps, Within ps (readValue fuel ps)) ∧ (∀ ps, Within ps (readItems fuel ps)) ∧
      ∀ es ps, Within ps (readEntries fuel es ps) := by
  induction fuel with
  | zero => exact ⟨fun _ => trivial, fun _ => trivial, fun _ _ => trivial⟩
  | succ fuel ih =>
      obtain ⟨hvalue, hitems, hentries⟩ := ih
      refine ⟨fun ps => ?_, fun ps => ?_, fun es ps => ?_⟩
      · unfold readValue
        split
        next => contradiction
        next rest _ =>
          refine .mono (.bind (readText_within rest) fun _ left => ?_)
            (List.suffix_cons (.char '"') rest)
          exact List.suffix_refl left
        next rest heq =>
          cases heq
          refine .mono ?_ (List.suffix_cons (.char '\x7b') rest)
          simp only
          split
          · next hskip => exact suffix_of_skipSpacing hskip
          · refine .mono (.bind (hentries _ _) fun _ left => ?_) (skipSpacing_suffix rest)
            exact List.suffix_refl left
        next rest heq =>
          cases heq
          refine .mono ?_ (List.suffix_cons (.char '[') rest)
          simp only
          split
          · next hskip => exact suffix_of_skipSpacing hskip
          · refine .mono (.bind (hitems _) fun _ left => ?_) (skipSpacing_suffix rest)
            exact List.suffix_refl left
        next => exact readScalar_within _
      · rw [readItems]
        refine .bind (hvalue ps) fun _ rest => ?_
        simp only
        split
        · next hskip => exact suffix_of_skipSpacing hskip
        · next left hskip =>
            refine .mono (.mono (.bind (hitems _) fun _ left => ?_) (skipSpacing_suffix left))
              (suffix_of_skipSpacing hskip)
            exact List.suffix_refl left
        · trivial
      · unfold readEntries
        split
        next => contradiction
        next rest heq =>
          cases heq
          refine .mono (.bind (readText_within rest) fun key rest => ?_)
            (List.suffix_cons (.char '"') rest)
          simp only
          split
          · next left hcolon =>
              refine .mono (.mono (.bind (hvalue _) fun v rest => ?_) (skipSpacing_suffix left))
                (suffix_of_skipSpacing hcolon)
              simp only
              split
              · next hskip => exact suffix_of_skipSpacing hskip
              · next left hskip =>
                  exact ((hentries _ _).mono (skipSpacing_suffix left)).mono
                    (suffix_of_skipSpacing hskip)
              · trivial
          · trivial
        next => trivial

theorem readAll_within (ps : List Point) : Within ps ((fun v => (v, [])) <$> readAll ps) := by
  unfold readAll
  split
  · trivial
  · rw [map_bind]
    refine .mono (.bind ((reads_within _).1 _) fun v rest => ?_) (skipSpacing_suffix _)
    simp only
    split
    · exact List.nil_suffix
    · trivial

end DtoForge.Json
