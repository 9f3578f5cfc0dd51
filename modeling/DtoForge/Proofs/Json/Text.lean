import Mathlib.Data.List.Chain
import DtoForge.Json.Reader
import DtoForge.Json.Writer
import DtoForge.Proofs.Text.Raw

/-! # Texts — what is written between quotes is read back

A character outside ASCII is written as it stands, or as its code units in hexadecimal, one or two
of them; a half of a surrogate pair is always written as its code unit. So a written text is read as
the parts its points are written as (`readParts_flatMap_writePoint`). The parts give the text itself
unless two halves in it would make a character (`readText_writeText`). In ASCII these are written
like the character and read back as one (`reread`); a text in ASCII tells where it ends
(`writeText_append_inj`). -/

namespace DtoForge.Json

/-! ## Hexadecimal digits -/

theorem hexValue?_digitChar : ∀ d < 16, hexValue? (.char (Nat.digitChar d)) = some d := by
  decide

/-- Four hexadecimal digits of a code unit, one by one. -/
theorem hexDigits_four {n : Nat} (h : n < 0x10000) :
    Text.hexDigits 4 n = [Nat.digitChar (n / 0x1000), Nat.digitChar (n / 0x100 % 16),
      Nat.digitChar (n / 16 % 16), Nat.digitChar (n % 16)] := by
  have hdigits : ∀ k, 16 ≤ k → Nat.toDigits 16 k =
      Nat.toDigits 16 (k / 16) ++ [Nat.digitChar (k % 16)] :=
    fun k hk => Nat.toDigits_of_base_le (by omega) hk
  have hdigit : ∀ k, k < 16 → Nat.toDigits 16 k = [Nat.digitChar k] :=
    fun k hk => Nat.toDigits_of_lt_base hk
  unfold Text.hexDigits
  -- by the number of digits; those in front are zeros
  rcases Nat.lt_or_ge n 0x10 with h1 | h1
  · rw [hdigit n h1, Nat.div_eq_of_lt (by omega : n < 0x1000),
      Nat.div_eq_of_lt (by omega : n < 0x100), Nat.div_eq_of_lt h1, Nat.mod_eq_of_lt h1]
    rfl
  rcases Nat.lt_or_ge n 0x100 with h2 | h2
  · rw [hdigits n h1, hdigit _ (by omega), Nat.div_eq_of_lt (by omega : n < 0x1000),
      Nat.div_eq_of_lt h2, Nat.mod_eq_of_lt (by omega : n / 16 < 16)]
    rfl
  rcases Nat.lt_or_ge n 0x1000 with h3 | h3
  · rw [hdigits n h1, hdigits _ (by omega), Nat.div_div_eq_div_mul, hdigit _ (by omega),
      Nat.div_eq_of_lt h3, Nat.mod_eq_of_lt (by omega : n / 0x100 < 16)]
    rfl
  · rw [hdigits n h1, hdigits _ (by omega), Nat.div_div_eq_div_mul, hdigits _ (by omega),
      Nat.div_div_eq_div_mul, hdigit _ (by omega)]
    rfl

/-- An escaped code unit is read as the part it stands for. -/
theorem readParts_unitEscape (start : List Point) (parts : List TextPart) {n : Nat}
    (h : n < 0x10000) {rest : List Point} (hrest : rest ≠ []) :
    readParts start parts ((unitEscape n).map .char ++ rest) =
      readParts start (.ofUnit n :: parts) rest := by
  have hquad : hexQuad? (.char (Nat.digitChar (n / 0x1000))) (.char (Nat.digitChar (n / 0x100 % 16)))
      (.char (Nat.digitChar (n / 16 % 16))) (.char (Nat.digitChar (n % 16))) = some n := by
    simp only [hexQuad?, hexValue?_digitChar _ (show n / 0x1000 < 16 by omega),
      hexValue?_digitChar _ (show n / 0x100 % 16 < 16 by omega),
      hexValue?_digitChar _ (show n / 16 % 16 < 16 by omega),
      hexValue?_digitChar _ (show n % 16 < 16 by omega), Option.bind_eq_bind, Option.bind_some,
      Option.pure_def, Option.some.injEq]
    omega
  rw [unitEscape, hexDigits_four h]
  simp only [List.map_cons, List.map_nil, List.cons_append, List.nil_append, readParts, hquad]
  cases rest with
  | nil => exact absurd rfl hrest
  | cons c rest => rfl

theorem readParts_unitEscape_two (start : List Point) (parts : List TextPart) {m n : Nat}
    (hm : m < 0x10000) (hn : n < 0x10000) {rest : List Point} (hrest : rest ≠ []) :
    readParts start parts ((unitEscape m ++ unitEscape n).map .char ++ rest) =
      readParts start (.ofUnit n :: .ofUnit m :: parts) rest := by
  rw [List.map_append, List.append_assoc,
    readParts_unitEscape start parts hm (by simp [unitEscape])]
  exact readParts_unitEscape start (.ofUnit m :: parts) hn hrest

/-! ## Points -/

theorem TextPart.ofUnit_toNat (c : Char) : ofUnit c.toNat = .plain (.char c) := by
  have hvalid := toNat_valid c
  rw [ofUnit, dif_neg (by omega), Char.ofNat_toNat]

theorem TextPart.ofUnit_unit (h : Half) : ofUnit h.unit = .escaped h := by
  rw [ofUnit, dif_pos h.unit_bounds]
  simp [Half.unit]

/-- What a written point is read as: the point itself, or the halves that spell it. -/
def textParts (asciiOnly : Bool) : Point → List TextPart
  | .char c =>
    if asciiOnly = false ∨ c.toNat ≤ 0xffff then [.plain (.char c)]
    else [.escaped (.highOf c), .escaped (.lowOf c)]
  | .half h => [.escaped h]

theorem readParts_plain (start : List Point) (parts : List TextPart) {c : Char} (rest : List Point)
    (hquote : c ≠ '"') (hback : c ≠ '\\') (hcontrol : ¬ c.toNat < 0x20) :
    readParts start parts (.char c :: rest) = readParts start (.plain (.char c) :: parts) rest := by
  rw [readParts, Point.code_char, if_neg hcontrol]
  -- no earlier pattern matches
  · exact fun hc => hquote (Point.char.inj hc)
  · exact fun hc _ => hback (Point.char.inj hc)
  · exact fun _ _ _ _ _ hc _ => hback (Point.char.inj hc)
  · exact fun _ _ hc _ => hback (Point.char.inj hc)

theorem readParts_escape (start : List Point) (parts : List TextPart) {c e : Char}
    (rest : List Point) (hescape : escapeChar? (.char c) = some e) (hhex : c ≠ 'u') :
    readParts start parts (.char '\\' :: .char c :: rest) =
      readParts start (.plain (.char e) :: parts) rest := by
  rw [readParts, hescape]
  exact fun _ _ _ _ _ hc _ => hhex (Point.char.inj hc)

/-- The four forms of a written character: a one-letter escape, the character itself, one code
unit and two. -/
theorem writeChar_cases (asciiOnly : Bool) (c : Char) :
    (∃ e, e ≠ 'u' ∧ escapeChar? (.char e) = some c ∧ c.toNat ≤ 0xffff ∧
      writeChar asciiOnly c = ['\\', e]) ∨
    (c ≠ '"' ∧ c ≠ '\\' ∧ ¬ c.toNat < 0x20 ∧ (asciiOnly = false ∨ c.toNat ≤ 0xffff) ∧
      writeChar asciiOnly c = [c]) ∨
    (c.toNat ≤ 0xffff ∧ writeChar asciiOnly c = unitEscape c.toNat) ∨
    (asciiOnly = true ∧ 0xffff < c.toNat ∧ writeChar asciiOnly c =
      unitEscape (0xd800 + (c.toNat - 0x10000) / 0x400) ++
        unitEscape (0xdc00 + (c.toNat - 0x10000) % 0x400)) := by
  -- the one-letter escapes have one shape
  have hshort : ∀ e d : Char, c = d → e ≠ 'u' → escapeChar? (.char e) = some d → d.toNat ≤ 0xffff →
      writeChar asciiOnly d = ['\\', e] → ∃ e, e ≠ 'u' ∧ escapeChar? (.char e) = some c ∧
        c.toNat ≤ 0xffff ∧ writeChar asciiOnly c = ['\\', e] := by
    rintro e d rfl hu hescape hsmall hwrite
    exact ⟨e, hu, hescape, hsmall, hwrite⟩
  by_cases h1 : c = '"'
  · exact Or.inl (hshort '"' _ h1 (by decide) rfl (by decide) rfl)
  by_cases h2 : c = '\\'
  · exact Or.inl (hshort '\\' _ h2 (by decide) rfl (by decide) rfl)
  by_cases h3 : c = '\n'
  · exact Or.inl (hshort 'n' _ h3 (by decide) rfl (by decide) rfl)
  by_cases h4 : c = '\r'
  · exact Or.inl (hshort 'r' _ h4 (by decide) rfl (by decide) rfl)
  by_cases h5 : c = '\t'
  · exact Or.inl (hshort 't' _ h5 (by decide) rfl (by decide) rfl)
  by_cases h6 : c = '\x08'
  · exact Or.inl (hshort 'b' _ h6 (by decide) rfl (by decide) rfl)
  by_cases h7 : c = '\x0c'
  · exact Or.inl (hshort 'f' _ h7 (by decide) rfl (by decide) rfl)
  rw [writeChar, if_neg h1, if_neg h2, if_neg h3, if_neg h4, if_neg h5, if_neg h6, if_neg h7]
  by_cases hcontrol : c.toNat < 0x20
  · rw [if_pos hcontrol]
    exact Or.inr (Or.inr (Or.inl ⟨by omega, rfl⟩))
  by_cases hplain : asciiOnly = false ∨ c.toNat < 0x7f
  · rw [if_neg hcontrol, if_pos (by simpa using hplain)]
    exact Or.inr (Or.inl ⟨h1, h2, hcontrol, hplain.imp_right (by omega), rfl⟩)
  rw [if_neg hcontrol, if_neg (by simpa using hplain)]
  by_cases hsmall : c.toNat ≤ 0xffff
  · rw [if_pos hsmall]
    exact Or.inr (Or.inr (Or.inl ⟨hsmall, rfl⟩))
  · rw [if_neg hsmall]
    exact Or.inr (Or.inr (Or.inr ⟨by simpa using (not_or.mp hplain).1, by omega, rfl⟩))

/-- A written point is read as its parts. -/
theorem readParts_writePoint (asciiOnly : Bool) (start : List Point) (parts : List TextPart)
    (p : Point) {rest : List Point} (hrest : rest ≠ []) :
    readParts start parts ((writePoint asciiOnly p).map .char ++ rest) =
      readParts start ((textParts asciiOnly p).reverse ++ parts) rest := by
  cases p with
  | half h =>
      have hbounds := h.unit_bounds
      rw [writePoint, readParts_unitEscape start parts (by omega) hrest, TextPart.ofUnit_unit]
      rfl
  | char c =>
      rcases writeChar_cases asciiOnly c with ⟨e, hu, hescape, hsmall, hwrite⟩ |
        ⟨hquote, hback, hcontrol, hone, hwrite⟩ | ⟨hsmall, hwrite⟩ | ⟨hascii, hlarge, hwrite⟩
      · rw [writePoint, hwrite, textParts, if_pos (Or.inr hsmall)]
        exact readParts_escape start parts rest hescape hu
      · rw [writePoint, hwrite, textParts, if_pos hone]
        exact readParts_plain start parts rest hquote hback hcontrol
      · rw [writePoint, hwrite, textParts, if_pos (Or.inr hsmall),
          readParts_unitEscape start parts (by omega) hrest, TextPart.ofUnit_toNat]
        rfl
      · have hvalid := toNat_valid c
        have hparts : textParts asciiOnly (.char c) = [.escaped (.highOf c), .escaped (.lowOf c)] :=
          if_neg (by simp [hascii, hlarge])
        have hhigh : 0xd800 + (c.toNat - 0x10000) / 0x400 = (Half.highOf c).unit := by
          rw [Half.unit, Half.val_highOf hlarge]
        have hlow : 0xdc00 + (c.toNat - 0x10000) % 0x400 = (Half.lowOf c).unit := by
          rw [Half.unit, Half.val_lowOf]
          omega
        rw [writePoint, hwrite, hparts,
          readParts_unitEscape_two start parts (by omega) (by omega) hrest, hhigh, hlow,
          TextPart.ofUnit_unit, TextPart.ofUnit_unit]
        rfl

/-- The parts of points give the points, unless two halves would make a character. -/
theorem pointsOf_textParts (asciiOnly : Bool) {ps : List Point}
    (h : ps.IsChain fun p q => ¬ p.Splits q) :
    pointsOf (ps.flatMap (textParts asciiOnly)) = ps := by
  induction ps with
  | nil => rfl
  | cons p ps ih =>
      have ih := ih h.of_cons
      cases p with
      | char c =>
          rw [List.flatMap_cons, textParts]
          split
          · rw [List.singleton_append, pointsOf, ih]
          · next hlong =>
              have hlarge : 0xffff < c.toNat := Nat.lt_of_not_le (not_or.mp hlong).2
              simp only [List.cons_append, List.nil_append]
              rw [pointsOf, if_pos (by simp [Half.isHigh_highOf hlarge, Half.isHigh_lowOf]),
                Half.join_highOf_lowOf hlarge, ih]
      | half high =>
          rw [List.flatMap_cons, textParts, List.singleton_append]
          -- the half is left alone, since what follows is no second half
          cases ps with
          | nil => rfl
          | cons q ps =>
              have hsplit := (List.isChain_cons_cons.mp h).1
              rw [List.flatMap_cons] at ih ⊢
              cases q with
              | half low =>
                  have halone : ¬ (high.isHigh && !low.isHigh) = true := by
                    intro hpair
                    rw [Bool.and_eq_true, Bool.not_eq_true'] at hpair
                    exact hsplit ⟨high, low, rfl, rfl, hpair⟩
                  simp only [textParts, List.singleton_append] at ih ⊢
                  rw [pointsOf, if_neg halone, ih]
              | char c =>
                  rw [textParts] at ih ⊢
                  split
                  · next hone =>
                      rw [if_pos hone] at ih
                      simp only [List.singleton_append] at ih ⊢
                      rw [pointsOf, ih]
                      nofun
                  · next hlong =>
                      have hlarge : 0xffff < c.toNat := Nat.lt_of_not_le (not_or.mp hlong).2
                      rw [if_neg hlong] at ih
                      simp only [List.cons_append, List.nil_append] at ih ⊢
                      rw [pointsOf, if_neg (by simp [Half.isHigh_highOf hlarge]), ih]

/-! ## Texts -/

section Texts

variable {asciiOnly : Bool}

variable (asciiOnly) in
/-- Written points are read as their parts, up to the closing quote. -/
theorem readParts_flatMap_writePoint (start : List Point) (parts : List TextPart)
    (ps rest : List Point) :
    readParts start parts ((ps.flatMap (writePoint asciiOnly)).map .char ++ .char '"' :: rest) =
      .ok (parts.reverse ++ ps.flatMap (textParts asciiOnly), rest) := by
  induction ps generalizing parts with
  | nil => simp [readParts]
  | cons p ps ih =>
      rw [List.flatMap_cons, List.map_append, List.append_assoc,
        readParts_writePoint asciiOnly start parts p (by simp), ih]
      simp

/-- **A written text is read back**, with what stands behind it. -/
theorem readText_writeText {s : RawText} (hs : s.Unsplit) (rest : List Point) :
    readText ((s.points.flatMap (writePoint asciiOnly)).map .char ++ .char '"' :: rest) =
      .ok (s, rest) := by
  rw [readText, readParts_flatMap_writePoint]
  simp only [Except.map, List.reverse_nil, List.nil_append]
  rw [pointsOf_textParts asciiOnly hs, RawText.ofPoints_points]

theorem toList_writeText (s : RawText) :
    (writeText asciiOnly s).toList =
      '"' :: (s.points.flatMap (writePoint asciiOnly) ++ ['"']) := by
  simp [writeText]

/-- A written text tells where it ends, and of which parts it is. -/
theorem parts_of_writeText_append_eq {s t : RawText} {r r' : List Char}
    (h : (writeText asciiOnly s).toList ++ r = (writeText asciiOnly t).toList ++ r') :
    s.points.flatMap (textParts asciiOnly) = t.points.flatMap (textParts asciiOnly) ∧ r = r' := by
  simp only [toList_writeText, List.cons_append, List.append_assoc, List.nil_append,
    List.cons.injEq, true_and] at h
  have hread := readParts_flatMap_writePoint asciiOnly [] [] s.points (r.map .char)
  have hread' := readParts_flatMap_writePoint asciiOnly [] [] t.points (r'.map .char)
  have hpoints := congrArg (List.map Point.char) h
  simp only [List.map_append, List.map_cons] at hpoints
  rw [hpoints, hread'] at hread
  obtain ⟨hparts, hrest⟩ := Prod.mk.inj (Except.ok.inj hread)
  have hinjective : Function.Injective Point.char := fun _ _ => Point.char.inj
  exact ⟨by simpa using hparts.symm, List.map_injective_iff.mpr hinjective hrest.symm⟩

end Texts

/-! ## Texts in characters -/

/-- Points that are all characters. -/
def AllChars (ps : List Point) : Prop :=
  ∀ p ∈ ps, p.isHalf = false

theorem AllChars.of_suffix {ps rest : List Point} (h : AllChars ps) (hrest : rest <:+ ps) :
    AllChars rest :=
  fun p hp => h p (hrest.subset hp)

theorem allChars_points (s : String) : AllChars (RawText.whole s).points := by
  intro p hp
  obtain ⟨c, -, rfl⟩ := List.mem_map.mp hp
  rfl

/-- Parts that stand as they are and are all characters. -/
def PlainChars (parts : List TextPart) : Prop :=
  ∀ p, .plain p ∈ parts → p.isHalf = false

theorem plainChars_cons {part : TextPart} {parts : List TextPart} :
    PlainChars (part :: parts) ↔ (∀ p, .plain p = part → p.isHalf = false) ∧ PlainChars parts := by
  simp only [PlainChars, List.mem_cons, or_imp, forall_and]

theorem plainChars_of_readParts {start ps rest : List Point} {parts read : List TextPart}
    (hps : AllChars ps) (hparts : PlainChars parts)
    (h : readParts start parts ps = .ok (read, rest)) : PlainChars read := by
  fun_induction readParts start parts ps with
  | case1 | case3 | case5 | case7 | case8 | case9 => cases h
  | case2 parts rest =>
      cases h
      exact fun p hp => hparts p (List.mem_reverse.mp hp)
  | case4 parts a b c d rest n hquad hempty ih =>
      refine ih (fun p hp => hps p (by simp [hp])) (plainChars_cons.mpr ⟨?_, hparts⟩) h
      rintro p hp
      rw [TextPart.ofUnit] at hp
      split at hp
      · cases hp
      · cases hp
        rfl
  | case6 parts p rest _ e _ ih =>
      refine ih (fun p hp => hps p (by simp [hp])) (plainChars_cons.mpr ⟨?_, hparts⟩) h
      rintro _ ⟨⟩
      rfl
  | case10 parts p rest _ _ _ _ _ ih =>
      refine ih (fun p hp => hps p (by simp [hp])) (plainChars_cons.mpr ⟨?_, hparts⟩) h
      rintro _ ⟨⟩
      exact hps p List.mem_cons_self

/-- What follows a half that was escaped starts with that half or with a character. -/
theorem head_pointsOf_escaped {h : Half} {rest : List TextPart} {p : Point}
    (hp : p ∈ (pointsOf (.escaped h :: rest)).head?) : p = .half h ∨ p.isHalf = false := by
  rw [pointsOf.eq_def] at hp
  split at hp
  · cases hp
  · next heq => cases heq
  · next heq =>
      cases heq
      split at hp
      · exact .inr (Option.some.inj hp ▸ rfl)
      · exact .inl (Option.some.inj hp).symm
  · next heq =>
      cases heq
      exact .inl (Option.some.inj hp).symm

/-- No two halves that would make a character are left of parts in characters. -/
theorem isChain_pointsOf {parts : List TextPart} (h : PlainChars parts) :
    (pointsOf parts).IsChain fun p q => ¬ p.Splits q := by
  fun_induction pointsOf parts with
  | case1 => exact List.IsChain.nil
  | case2 p rest ih =>
      obtain ⟨hp, hrest⟩ := plainChars_cons.mp h
      refine List.isChain_cons.mpr ⟨fun q _ hsplit => ?_, ih hrest⟩
      obtain ⟨high, low, rfl, -⟩ := hsplit
      exact absurd (hp _ rfl) (by simp [Point.isHalf])
  | case3 high low rest hpair ih =>
      obtain ⟨-, hlow⟩ := plainChars_cons.mp h
      refine List.isChain_cons.mpr ⟨fun q _ hsplit => ?_, ih (plainChars_cons.mp hlow).2⟩
      obtain ⟨_, _, hchar, -⟩ := hsplit
      cases hchar
  | case4 high low rest halone ih =>
      obtain ⟨-, hlow⟩ := plainChars_cons.mp h
      refine List.isChain_cons.mpr ⟨fun q hq hsplit => ?_, ih hlow⟩
      obtain ⟨_, l, hhigh, rfl, hpair⟩ := hsplit
      cases hhigh
      rcases head_pointsOf_escaped hq with heq | hchar
      · cases heq
        exact halone (by simp [hpair])
      · cases hchar
  | case5 high rest hnone ih =>
      obtain ⟨-, hrest⟩ := plainChars_cons.mp h
      refine List.isChain_cons.mpr ⟨fun q hq hsplit => ?_, ih hrest⟩
      obtain ⟨_, l, -, rfl, -⟩ := hsplit
      -- what follows is plain, so it is a character
      cases rest with
      | nil => cases hq
      | cons part rest =>
          cases part with
          | escaped low => exact hnone low rest rfl
          | plain p =>
              rw [pointsOf] at hq
              obtain rfl := Option.some.inj hq
              exact absurd ((plainChars_cons.mp hrest).1 _ rfl) (by simp [Point.isHalf])

/-- **A text that is read out of characters holds no two halves that would make one.** -/
theorem unsplit_of_readText {ps rest : List Point} {s : RawText} (hps : AllChars ps)
    (h : readText ps = .ok (s, rest)) : s.Unsplit := by
  rw [readText] at h
  cases hparts : readParts (.char '"' :: ps) [] ps with
  | error fault => rw [hparts] at h; cases h
  | ok result =>
      rw [hparts] at h
      cases h
      rw [RawText.Unsplit, RawText.points_ofPoints]
      exact isChain_pointsOf (plainChars_of_readParts hps (fun _ => List.not_mem_nil.elim) hparts)

/-! ## Texts in ASCII -/

/-- How a part is written in ASCII. -/
def writePart : TextPart → List Char
  | .plain p => writePoint true p
  | .escaped h => writePoint true (.half h)

/-- A point is written like the parts it is read as. -/
theorem flatMap_writePart (p : Point) :
    (textParts true p).flatMap writePart = writePoint true p := by
  cases p with
  | half h => exact List.flatMap_singleton _ _
  | char c =>
      simp only [textParts, Bool.true_eq_false, false_or]
      split
      · exact List.flatMap_singleton _ _
      · next hlong =>
          have hlarge : 0xffff < c.toNat := Nat.lt_of_not_le hlong
          have hlow : 0xd800 + (0x400 + (c.toNat - 0x10000) % 0x400) =
              0xdc00 + (c.toNat - 0x10000) % 0x400 := by omega
          rcases writeChar_cases true c with ⟨_, _, _, hsmall, _⟩ | ⟨_, _, _, hone, _⟩ |
            ⟨hsmall, _⟩ | ⟨_, _, hwrite⟩
          · exact absurd hsmall hlong
          · exact absurd (hone.resolve_left (by decide)) hlong
          · exact absurd hsmall hlong
          · simp [writePart, writePoint, hwrite, Half.unit, Half.val_highOf hlarge, Half.val_lowOf,
              hlow]

/-- A text as it is read back when it was written in ASCII: two halves side by side that would make
a character make it. -/
def reread (s : RawText) : RawText :=
  .ofPoints (pointsOf (s.points.flatMap (textParts true)))

theorem readText_writeText_ascii (s : RawText) (rest : List Point) :
    readText ((s.points.flatMap (writePoint true)).map .char ++ .char '"' :: rest) =
      .ok (reread s, rest) := by
  rw [readText, readParts_flatMap_writePoint]
  rfl

theorem reread_eq_of_unsplit {s : RawText} (h : s.Unsplit) : reread s = s := by
  rw [reread, pointsOf_textParts true h, RawText.ofPoints_points]

section Ascii

variable {s t : RawText} {r r' : List Char}
  (h : (writeText true s).toList ++ r = (writeText true t).toList ++ r')

include h

/-- A written text in ASCII tells where it ends. -/
theorem writeText_append_inj : writeText true s = writeText true t ∧ r = r' := by
  obtain ⟨hparts, hrest⟩ := parts_of_writeText_append_eq h
  have hpoints : ∀ s : RawText, s.points.flatMap (writePoint true) =
      (s.points.flatMap (textParts true)).flatMap writePart := by
    intro s
    rw [List.flatMap_assoc]
    exact congrArg s.points.flatMap (funext fun p => (flatMap_writePart p).symm)
  exact ⟨by rw [writeText, writeText, hpoints, hpoints, hparts], hrest⟩

/-- Texts that are written alike are read back as one. -/
theorem reread_eq_of_writeText_append_eq : reread s = reread t := by
  obtain ⟨hparts, -⟩ := parts_of_writeText_append_eq h
  rw [reread, reread, hparts]

end Ascii

end DtoForge.Json
