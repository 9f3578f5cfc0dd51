import DtoForge.Proofs.Json.Entries
import DtoForge.Proofs.Json.Remainder
import DtoForge.Proofs.Json.Text
import DtoForge.Proofs.Steps

/-! # Round trip — a document that is written is read back

The values a string can stand for are those whose objects have each key once, whose integers have no
more digits than are read, whose other numbers are doubles and whose texts have no two halves side
by side that would make a character (`Proper`). Laid out in any way that keeps the order of the
keys, such a value is read back from its text: each part is read up to the mark behind it, and
blanks between the parts are skipped. The induction is over the value; what it carries is that the
text starts with no blank, has no line end but line feeds, and is read as the value whatever mark
follows. -/

namespace DtoForge.Json

open Number (Double)

/-- A value that a string can stand for. -/
inductive Proper : Json → Prop
  | null : Proper .null
  | bool (b : Bool) : Proper (.bool b)
  | int {n : Int} : digitsOf n ≤ digitLimit → Proper (.int n)
  | float {x : Double} : x.Canonical → Proper (.float x)
  | str {s : RawText} : s.Unsplit → Proper (.str s)
  | list {items : List Json} : (∀ v ∈ items, Proper v) → Proper (.list items)
  | object {entries : Entries Json} : entries.keys.Nodup → (∀ e ∈ entries, e.1.Unsplit) →
      (∀ e ∈ entries, Proper e.2) → Proper (.object entries)

/-! ## Blanks -/

/-- Blanks between the parts of a document. -/
def Blank (cs : List Char) : Prop :=
  ∀ c ∈ cs, c = ' ' ∨ c = '\n'

theorem Blank.isSpacing {cs : List Char} (h : Blank cs) : ∀ c ∈ cs, Json.isSpacing (.char c) := by
  intro c hc
  rcases h c hc with rfl | rfl <;> rfl

theorem Blank.return_not_mem {cs : List Char} (h : Blank cs) : '\r' ∉ cs := by
  intro hmem
  rcases h _ hmem with heq | heq <;> exact absurd heq (by decide)

theorem Blank.skipSpacing {blank : List Char} (h : Blank blank) {c : Char}
    (hc : Json.isSpacing (.char c) = false) (rest : List Point) :
    Json.skipSpacing (blank.map .char ++ .char c :: rest) = .char c :: rest := by
  have hblank : ∀ p ∈ blank.map Point.char, Json.isSpacing p := by
    intro p hp
    obtain ⟨c, hc, rfl⟩ := List.mem_map.mp hp
    exact h.isSpacing c hc
  rw [Json.skipSpacing, List.dropWhile_append_of_pos hblank, List.dropWhile_cons, hc]
  rfl

/-- Nothing that could stand in a scalar comes first. -/
def Ends (ps : List Point) : Prop :=
  scalarChars ps = []

theorem ends_of_not_isScalarChar {c : Char} (h : isScalarChar c = false) (rest : List Point) :
    Ends (.char c :: rest) := by
  rw [Ends, scalarChars, if_neg (by simp [h])]

/-- What follows a part of a document cannot continue it. -/
theorem Blank.ends {blank : List Char} (h : Blank blank) {mark : Char}
    (hmark : mark = ',' ∨ mark = ']' ∨ mark = '\x7d') (rest : List Point) :
    Ends (blank.map .char ++ .char mark :: rest) := by
  cases blank with
  | nil => rcases hmark with rfl | rfl | rfl <;> exact ends_of_not_isScalarChar rfl rest
  | cons c blank =>
      rcases h c List.mem_cons_self with rfl | rfl <;> exact ends_of_not_isScalarChar rfl _

theorem ends_comma (rest : List Point) : Ends (.char ',' :: rest) :=
  ends_of_not_isScalarChar rfl rest

theorem skipSpacing_comma (rest : List Point) :
    skipSpacing (.char ',' :: rest) = .char ',' :: rest := rfl

/-! ## Scalars -/

/-- A text on lines that end in line feeds and that is read as a value, up to whatever cannot
continue it. -/
structure Written (cs : List Char) (v : Json) : Prop where
  start : ∃ c rest, cs = c :: rest ∧ isSpacing (.char c) = false ∧ c ≠ ']' ∧ c ≠ '\ufeff'
  line : '\r' ∉ cs
  reads : ∀ fuel rest, 2 * cs.length ≤ fuel → Ends rest →
    readValue fuel (cs.map .char ++ rest) = .ok (v, rest)

theorem readValue_scalar (fuel : Nat) {c : Char} (rest : List Point) (htext : c ≠ '"')
    (hobject : c ≠ '\x7b') (hlist : c ≠ '[') :
    readValue (fuel + 1) (.char c :: rest) = readScalar (.char c :: rest) := by
  rw [readValue]
  · exact fun _ h => htext (Point.char.inj (List.cons.inj h).1)
  · exact fun _ h => hobject (Point.char.inj (List.cons.inj h).1)
  · exact fun _ h => hlist (Point.char.inj (List.cons.inj h).1)

/-- What a scalar starts with. -/
def IsMark (c : Char) : Prop :=
  isSpacing (.char c) = false ∧ c ≠ ']' ∧ c ≠ '\ufeff' ∧ c ≠ '"' ∧ c ≠ '\x7b' ∧ c ≠ '['

theorem written_scalar {c : Char} {cs : List Char} {v : Json} (hc : IsMark c)
    (hchars : IsScalarText (c :: cs))
    (hread : ∀ rest, Ends rest → readScalar ((c :: cs).map .char ++ rest) = .ok (v, rest)) :
    Written (c :: cs) v := by
  obtain ⟨hspacing, hclosing, hmark, htext, hobject, hlist⟩ := hc
  refine ⟨⟨c, cs, rfl, hspacing, hclosing, hmark⟩, hchars.return_not_mem,
    fun fuel rest hfuel hrest => ?_⟩
  obtain ⟨fuel, rfl⟩ : ∃ n, fuel = n + 1 := ⟨fuel - 1, by simp at hfuel; omega⟩
  rw [← hread rest hrest]
  exact readValue_scalar fuel _ htext hobject hlist

theorem isMark_of_isDigit {c : Char} (h : c.isDigit) : IsMark c := by
  refine ⟨?_, ?_, ?_, ?_, ?_, ?_⟩
  · simp only [isSpacing, Bool.or_eq_false_iff, beq_eq_false_iff_ne, ne_eq, Point.char.injEq]
    refine ⟨⟨⟨?_, ?_⟩, ?_⟩, ?_⟩ <;> (rintro rfl; exact absurd h (by decide))
  all_goals (rintro rfl; exact absurd h (by decide))

/-- Every word is read as its value. -/
theorem written_word : ∀ w ∈ words, Written w.1 w.2 := by
  intro w hw
  simp only [words, List.mem_cons, List.not_mem_nil, or_false] at hw
  rcases hw with rfl | rfl | rfl | rfl | rfl | rfl <;>
    exact written_scalar (by unfold IsMark; decide) (isScalarText_of_all rfl)
      fun _ _ => rfl

/-- A number is read as its value, behind a sign or not. -/
theorem written_number {negative : Bool} {whole after : List Char} {v : Json}
    (hwhole : IsWhole whole) (hchars : IsScalarText (sign negative ++ whole ++ after))
    (hread : readNumber (sign negative ++ whole ++ after) = .ok (v, [])) :
    Written (sign negative ++ whole ++ after) v := by
  have hscalar : ∀ rest, Ends rest →
      readScalar ((sign negative ++ whole ++ after).map .char ++ rest) = .ok (v, rest) := by
    intro rest hrest
    apply readScalar_of_readNumber negative hwhole hchars
    rw [show scalarChars rest = [] from hrest, List.append_nil, hread]
  obtain ⟨c, cs, rfl, hc⟩ := hwhole.start
  cases negative with
  | false => exact written_scalar (isMark_of_isDigit hc) hchars hscalar
  | true => exact written_scalar (by unfold IsMark; decide) hchars hscalar

theorem written_float {x : Double} (h : x.Canonical) :
    Written (x.textWith "Infinity" "NaN").toList (.float x) := by
  cases x with
  | finite negative mantissa exponent =>
      obtain ⟨whole, after, htext, hwhole, hchars, hread⟩ := readNumber_finiteText negative h
      rw [Double.textWith, htext]
      rw [htext] at hchars
      have hread := hread [] nofun
      rw [List.append_nil] at hread
      exact written_number hwhole hchars hread
  | infinite negative =>
      cases negative with
      | false => exact written_word ("Infinity".toList, _) (by decide)
      | true => exact written_word ("-Infinity".toList, _) (by decide)
  | nan => exact written_word ("NaN".toList, _) (by decide)

theorem written_int {n : Int} (hdigits : digitsOf n ≤ digitLimit) :
    Written (toString n).toList (.int n) := by
  have hwhole := isWhole_toString n.natAbs
  have hread := readNumber_toString hdigits (show Stops [] from nofun)
  have hchars : IsScalarText (sign (decide (n < 0)) ++ (toString n.natAbs).toList ++ []) := by
    simp only [isScalarText_append, isScalarText_sign, hwhole.isScalarText, isScalarText_nil,
      and_self]
  rw [toList_toString_int] at hread
  have h := written_number hwhole hchars hread
  rwa [List.append_nil, ← toList_toString_int] at h

/-! ## Texts -/

theorem return_not_mem_unitEscape {n : Nat} (hn : n < 0x10000) : '\r' ∉ unitEscape n := by
  have hdigit : ∀ d < 16, Nat.digitChar d ≠ '\r' := by decide
  rw [unitEscape, hexDigits_four hn]
  simp [Ne.symm (hdigit (n / 0x1000) (by omega)), Ne.symm (hdigit (n / 0x100 % 16) (by omega)),
    Ne.symm (hdigit (n / 16 % 16) (by omega)), Ne.symm (hdigit (n % 16) (by omega))]

/-- A return is written as an escape. -/
theorem return_not_mem_writeChar (asciiOnly : Bool) (c : Char) :
    '\r' ∉ writeChar asciiOnly c := by
  rcases writeChar_cases asciiOnly c with ⟨e, -, hescape, -, hwrite⟩ |
    ⟨-, -, hcontrol, -, hwrite⟩ | ⟨hsmall, hwrite⟩ | ⟨-, hlarge, hwrite⟩
  · rw [hwrite]
    have hne : e ≠ '\r' := by
      rintro rfl
      cases hescape
    simp [Ne.symm hne]
  · rw [hwrite, List.mem_singleton]
    rintro rfl
    exact hcontrol (by decide)
  · rw [hwrite]
    exact return_not_mem_unitEscape (by omega)
  · have hvalid := toNat_valid c
    rw [hwrite, List.mem_append, not_or]
    exact ⟨return_not_mem_unitEscape (by omega), return_not_mem_unitEscape (by omega)⟩

theorem return_not_mem_writePoint (asciiOnly : Bool) (p : Point) :
    '\r' ∉ writePoint asciiOnly p := by
  cases p with
  | char c => exact return_not_mem_writeChar asciiOnly c
  | half h =>
      have hbounds := h.unit_bounds
      exact return_not_mem_unitEscape (by omega)

theorem return_not_mem_writeText (asciiOnly : Bool) (s : RawText) :
    '\r' ∉ (writeText asciiOnly s).toList := by
  simp [toList_writeText, return_not_mem_writePoint]

theorem written_str (asciiOnly : Bool) {s : RawText} (hs : s.Unsplit) :
    Written (writeText asciiOnly s).toList (.str s) := by
  refine ⟨?_, return_not_mem_writeText asciiOnly s, fun fuel rest hfuel _ => ?_⟩
  · exact ⟨'"', _, toList_writeText s, by decide, by decide, by decide⟩
  rw [toList_writeText] at hfuel ⊢
  obtain ⟨fuel, rfl⟩ : ∃ n, fuel = n + 1 := ⟨fuel - 1, by simp at hfuel; omega⟩
  simp only [List.map_cons, List.map_append, List.map_nil, List.cons_append, List.append_assoc,
    List.nil_append, readValue, readText_writeText hs]
  rfl

/-! ## Lists and objects -/

section Listed

variable {α : Type} (between : List Char) (textOf : α → List Char)

/-- The texts of values, with a comma and blanks between them. -/
def listed (values : List α) : List Char :=
  (',' :: between).intercalate (values.map textOf)

theorem listed_singleton (v : α) : listed between textOf [v] = textOf v := by
  simp [listed]

theorem listed_cons_cons (v w : α) (values : List α) :
    listed between textOf (v :: w :: values) =
      textOf v ++ ',' :: (between ++ listed between textOf (w :: values)) := by
  simp [listed, List.intercalate_cons_cons]

theorem exists_listed_eq_cons {v : α} {c : Char} {tail : List Char} (h : textOf v = c :: tail)
    (values : List α) : ∃ rest, listed between textOf (v :: values) = c :: rest := by
  cases values with
  | nil => exact ⟨tail, by rw [listed_singleton, h]⟩
  | cons w values => exact ⟨_, by rw [listed_cons_cons, h, List.cons_append]⟩

theorem skipSpacing_listed {blank : List Char} (hblank : Blank blank) {v : α} (values : List α)
    (hstart : ∃ c tail, textOf v = c :: tail ∧ isSpacing (.char c) = false) (rest : List Point) :
    skipSpacing (blank.map .char ++ ((listed between textOf (v :: values)).map .char ++ rest)) =
      (listed between textOf (v :: values)).map .char ++ rest := by
  obtain ⟨c, tail, htext, hspacing⟩ := hstart
  obtain ⟨tail', htext'⟩ := exists_listed_eq_cons between textOf htext values
  rw [htext', List.map_cons, List.cons_append]
  exact hblank.skipSpacing hspacing _

theorem return_not_mem_listed (hbetween : Blank between) {values : List α}
    (h : ∀ v ∈ values, '\r' ∉ textOf v) : '\r' ∉ listed between textOf values := by
  induction values with
  | nil => simp [listed]
  | cons v values ih =>
      obtain ⟨hv, hvalues⟩ := List.forall_mem_cons.mp h
      cases values with
      | nil => simpa [listed_singleton] using hv
      | cons w values =>
          rw [listed_cons_cons]
          simp [hv, hbetween.return_not_mem, ih hvalues]

/-- Something in a pair of marks has blanks around its parts, and a comma behind each but the
last. -/
theorem exists_enclose (layout : Layout) (level : Nat) (opening closing : String) {o c : Char}
    (hopening : opening.toList = [o]) (hclosing : closing.toList = [c]) (textOf : α → String)
    (v : α) (values : List α) :
    ∃ before between behind, Blank before ∧ Blank between ∧ Blank behind ∧
      (enclose layout level opening closing ((v :: values).map textOf)).toList =
        o :: (before ++ (listed between (fun w => (textOf w).toList) (v :: values) ++
          (behind ++ [c]))) := by
  have hline : ∀ depth : Nat, Blank ('\n' :: List.replicate depth ' ') := by
    intro depth c hc
    rcases List.mem_cons.mp hc with rfl | hc
    · exact .inr rfl
    · exact .inl (List.eq_of_mem_replicate hc)
  unfold enclose
  cases layout.indent with
  | none =>
      refine ⟨[], [' '], [], nofun, by simp [Blank], nofun, ?_⟩
      simp [listed, String.toList_intercalate, Function.comp_def, hopening, hclosing]
  | some width =>
      refine ⟨_, _, _, hline (width * (level + 1)), hline (width * (level + 1)),
        hline (width * level), ?_⟩
      simp [listed, String.toList_intercalate, Function.comp_def, hopening, hclosing]

end Listed

theorem Written.start_part {cs : List Char} {v : Json} (h : Written cs v) :
    ∃ c tail, cs = c :: tail ∧ isSpacing (.char c) = false := by
  obtain ⟨c, tail, rfl, hspacing, -⟩ := h.start
  exact ⟨c, tail, rfl, hspacing⟩

/-- A key with its value behind it. -/
def WrittenEntry (cs : List Char) (e : RawText × Json) : Prop :=
  e.1.Unsplit ∧ ∃ asciiOnly text,
    cs = (writeText asciiOnly e.1).toList ++ ':' :: ' ' :: text ∧ Written text e.2

theorem WrittenEntry.start {cs : List Char} {e : RawText × Json} (h : WrittenEntry cs e) :
    ∃ tail, cs = '"' :: tail := by
  -- the text is put in by `rw`: substituting it would unfold the decoding of its characters
  obtain ⟨-, asciiOnly, text, hcs, -⟩ := h
  exact ⟨_, by rw [hcs, toList_writeText]; rfl⟩

theorem WrittenEntry.start_part {cs : List Char} {e : RawText × Json} (h : WrittenEntry cs e) :
    ∃ c tail, cs = c :: tail ∧ isSpacing (.char c) = false :=
  h.start.imp' (fun _ => '"') fun tail htext => ⟨tail, htext, rfl⟩

theorem WrittenEntry.line {cs : List Char} {e : RawText × Json} (h : WrittenEntry cs e) :
    '\r' ∉ cs := by
  obtain ⟨-, asciiOnly, text, hcs, hvalue⟩ := h
  simp [hcs, return_not_mem_writeText, hvalue.line]

/-- An entry with a new key is read behind those already read. -/
theorem WrittenEntry.readEntries {cs : List Char} {e : RawText × Json} (h : WrittenEntry cs e)
    {fuel : Nat} (hfuel : 2 * cs.length ≤ fuel) {es : Entries Json} (hkey : es.has e.1 = false)
    {rest : List Point} (hrest : Ends rest) :
    Json.readEntries (fuel + 1) es (cs.map .char ++ rest) =
      match Json.skipSpacing rest with
      | .char '\x7d' :: rest => .ok (es ++ [e], rest)
      | .char ',' :: rest => Json.readEntries fuel (es ++ [e]) (Json.skipSpacing rest)
      | rest => .error (.misread .comma rest) := by
  obtain ⟨hunsplit, asciiOnly, text, hcs, hvalue⟩ := h
  have hlength : 2 * text.length ≤ fuel := by
    simp only [hcs, List.length_append, List.length_cons] at hfuel
    omega
  have hcolon : ∀ ps, Json.skipSpacing (.char ':' :: ps) = .char ':' :: ps := fun _ => rfl
  have hblank : Json.skipSpacing (.char ' ' :: (text.map .char ++ rest)) =
      text.map .char ++ rest := by
    obtain ⟨c, tail, rfl, hspacing⟩ := hvalue.start_part
    have hone : Blank [' '] := by simp [Blank]
    exact hone.skipSpacing hspacing _
  rw [hcs, toList_writeText]
  simp only [List.map_cons, List.map_append, List.cons_append, List.append_assoc, List.nil_append,
    Json.readEntries, readText_writeText hunsplit, bind, Except.bind, hcolon,
    hblank, hvalue.reads fuel rest hlength hrest, Entries.put_of_not_has hkey]
  rfl

section Parts

variable {between behind : List Char} (hbetween : Blank between) (hbehind : Blank behind)

include hbetween hbehind

/-- Items are read one after the other, up to the closing bracket. -/
theorem readItems_listed {textOf : Json → List Char} {v : Json} {items : List Json}
    (h : ∀ w ∈ v :: items, Written (textOf w) w) {fuel : Nat}
    (hfuel : 2 * (listed between textOf (v :: items)).length + 1 ≤ fuel) (rest : List Point) :
    readItems fuel ((listed between textOf (v :: items)).map .char ++
      (behind.map .char ++ .char ']' :: rest)) = .ok (v :: items, rest) := by
  induction items generalizing v fuel with
  | nil =>
      obtain ⟨fuel, rfl⟩ : ∃ n, fuel = n + 1 := ⟨fuel - 1, by omega⟩
      have hv := h v List.mem_cons_self
      rw [listed_singleton] at hfuel ⊢
      rw [readItems, hv.reads fuel _ (by omega) (hbehind.ends (.inr (.inl rfl)) rest)]
      have hclosing : skipSpacing (behind.map .char ++ .char ']' :: rest) = .char ']' :: rest :=
        hbehind.skipSpacing rfl rest
      simp only [bind, Except.bind, hclosing]
      rfl
  | cons w items ih =>
      obtain ⟨fuel, rfl⟩ : ∃ n, fuel = n + 1 := ⟨fuel - 1, by omega⟩
      obtain ⟨hv, hrest⟩ := List.forall_mem_cons.mp h
      rw [listed_cons_cons] at hfuel ⊢
      simp only [List.length_append, List.length_cons] at hfuel
      have hskip := skipSpacing_listed between textOf hbetween items
        (hrest w List.mem_cons_self).start_part
      rw [List.map_append, List.map_cons, List.map_append, List.append_assoc, List.cons_append,
        List.append_assoc, readItems, hv.reads fuel _ (by omega) (ends_comma _)]
      simp only [bind, Except.bind, skipSpacing_comma, hskip, ih hrest (show _ ≤ fuel by omega)]
      rfl

/-- Entries with different keys are read one after the other, up to the closing brace. -/
theorem readEntries_listed {textOf : RawText × Json → List Char} {e : RawText × Json}
    {entries : Entries Json} (h : ∀ f ∈ e :: entries, WrittenEntry (textOf f) f)
    {es : Entries Json} (hkeys : (es ++ e :: entries).keys.Nodup) {fuel : Nat}
    (hfuel : 2 * (listed between textOf (e :: entries)).length + 1 ≤ fuel) (rest : List Point) :
    readEntries fuel es ((listed between textOf (e :: entries)).map .char ++
      (behind.map .char ++ .char '\x7d' :: rest)) = .ok (es ++ e :: entries, rest) := by
  induction entries generalizing e es fuel with
  | nil =>
      obtain ⟨fuel, rfl⟩ : ∃ n, fuel = n + 1 := ⟨fuel - 1, by omega⟩
      have he := h e List.mem_cons_self
      rw [listed_singleton] at hfuel ⊢
      rw [he.readEntries (by omega) (Entries.not_has_of_nodup hkeys)
          (hbehind.ends (.inr (.inr rfl)) rest),
        hbehind.skipSpacing (show isSpacing (.char '\x7d') = false from rfl)]
      rfl
  | cons f entries ih =>
      obtain ⟨fuel, rfl⟩ : ∃ n, fuel = n + 1 := ⟨fuel - 1, by omega⟩
      obtain ⟨he, hrest⟩ := List.forall_mem_cons.mp h
      rw [listed_cons_cons] at hfuel ⊢
      simp only [List.length_append, List.length_cons] at hfuel
      have hskip := skipSpacing_listed between textOf hbetween entries
        (hrest f List.mem_cons_self).start_part
      rw [List.map_append, List.map_cons, List.map_append, List.append_assoc, List.cons_append,
        List.append_assoc, he.readEntries (by omega) (Entries.not_has_of_nodup hkeys)
          (ends_comma _)]
      rw [List.append_cons] at hkeys
      simp only [skipSpacing_comma, hskip, ih hrest hkeys (show _ ≤ fuel by omega)]
      rw [List.append_assoc]
      rfl

end Parts

/-! ## Documents -/

/-- Items are written one by one. -/
theorem writeItems_eq_map (layout : Layout) (level : Nat) (items : List Json) :
    writeItems layout level items = items.map (writeAt layout level) := by
  induction items with
  | nil => rfl
  | cons v items ih => rw [writeItems, ih, List.map_cons]

/-- The text of an entry. -/
def writtenEntry (layout : Layout) (level : Nat) (e : RawText × Json) : String :=
  writeText layout.asciiOnly e.1 ++ ": " ++ writeAt layout level e.2

/-- Entries are written one by one. -/
theorem writeEntries_eq_map (layout : Layout) (level : Nat) (entries : Entries Json) :
    writeEntries layout level entries =
      entries.map fun e => (e.1, writtenEntry layout level e) := by
  induction entries with
  | nil => rfl
  | cons e entries ih =>
      obtain ⟨key, v⟩ := e
      rw [writeEntries, ih, List.map_cons]
      rfl

theorem writtenEntry_spec {layout : Layout} {level : Nat} {e : RawText × Json}
    (hkey : e.1.Unsplit) (h : Written (writeAt layout level e.2).toList e.2) :
    WrittenEntry (writtenEntry layout level e).toList e := by
  refine ⟨hkey, layout.asciiOnly, _, ?_, h⟩
  simp [writtenEntry]

section Enclosed

variable {before : List Char} {ps rest : List Point} {c : Char} {fuel : Nat}
  (hbefore : Blank before) (hc : isSpacing (.char c) = false)

include hbefore hc

theorem readValue_list {items : List Json} (hclosing : c ≠ ']')
    (h : readItems fuel (.char c :: ps) = .ok (items, rest)) :
    readValue (fuel + 1) (.char '[' :: (before.map .char ++ .char c :: ps)) =
      .ok (.list items, rest) := by
  rw [readValue]
  simp only [hbefore.skipSpacing hc]
  split
  · next heq => exact absurd (Point.char.inj (List.cons.inj heq).1) hclosing
  · rw [h]
    rfl

theorem readValue_object {entries : Entries Json} (hclosing : c ≠ '\x7d')
    (h : readEntries fuel [] (.char c :: ps) = .ok (entries, rest)) :
    readValue (fuel + 1) (.char '\x7b' :: (before.map .char ++ .char c :: ps)) =
      .ok (.object entries, rest) := by
  rw [readValue]
  simp only [hbefore.skipSpacing hc]
  split
  · next heq => exact absurd (Point.char.inj (List.cons.inj heq).1) hclosing
  · rw [h]
    rfl

end Enclosed

/-- Values in a pair of marks are read as what is read behind the first mark. -/
theorem written_enclosed {α : Type} {opening closing : Char} {before between behind : List Char}
    {textOf : α → List Char} {v : α} {values : List α} {value : Json}
    (hopening : isSpacing (.char opening) = false ∧ opening ≠ ']' ∧ opening ≠ '\ufeff')
    (hmarks : '\r' ∉ [opening, closing]) (hbefore : Blank before) (hbetween : Blank between)
    (hbehind : Blank behind) (hline : ∀ w ∈ v :: values, '\r' ∉ textOf w)
    (hread : ∀ fuel rest, 2 * (listed between textOf (v :: values)).length + 1 ≤ fuel →
      readValue (fuel + 1) (.char opening :: (before.map .char ++
        ((listed between textOf (v :: values)).map .char ++
          (behind.map .char ++ .char closing :: rest)))) = .ok (value, rest)) :
    Written (opening :: (before ++ (listed between textOf (v :: values) ++
      (behind ++ [closing])))) value := by
  refine ⟨⟨opening, _, rfl, hopening⟩, ?_, fun fuel rest hfuel _ => ?_⟩
  · have hparts := return_not_mem_listed between textOf hbetween hline
    simp only [List.mem_cons, List.not_mem_nil, or_false, not_or] at hmarks
    simp [hmarks, hparts, hbefore.return_not_mem, hbehind.return_not_mem]
  · simp only [List.length_cons, List.length_append] at hfuel
    obtain ⟨fuel, rfl⟩ : ∃ n, fuel = n + 1 := ⟨fuel - 1, by omega⟩
    simp only [List.map_cons, List.map_append, List.map_nil, List.cons_append, List.append_assoc,
      List.nil_append]
    exact hread fuel rest (by omega)

theorem written_list {layout : Layout} {level : Nat} {items : List Json}
    (h : ∀ v ∈ items, Written (writeAt layout (level + 1) v).toList v) :
    Written (writeAt layout level (.list items)).toList (.list items) := by
  rw [writeAt, writeItems_eq_map]
  cases items with
  | nil =>
      have htext : (enclose layout level "[" "]" []).toList = ['[', ']'] := by
        rw [enclose, List.isEmpty_nil, if_pos rfl, String.toList_append]
        rfl
      rw [List.map_nil, htext]
      refine ⟨⟨'[', [']'], rfl, by decide⟩, by decide, fun fuel rest hfuel _ => ?_⟩
      obtain ⟨fuel, rfl⟩ : ∃ n, fuel = n + 1 := ⟨fuel - 1, by simp at hfuel; omega⟩
      rfl
  | cons v items =>
      obtain ⟨before, between, behind, hbefore, hbetween, hbehind, htext⟩ :=
        exists_enclose layout level "[" "]" rfl rfl
          (writeAt layout (level + 1)) v items
      rw [htext]
      refine written_enclosed (by decide) (by decide) hbefore hbetween hbehind
        (fun w hw => (h w hw).line) fun fuel rest hfuel => ?_
      obtain ⟨c, tail, hstart, hspacing, hclosing, -⟩ := (h v List.mem_cons_self).start
      obtain ⟨tail, hlisted⟩ := exists_listed_eq_cons between
        (fun w => (writeAt layout (level + 1) w).toList) hstart items
      have hitems := readItems_listed hbetween hbehind h hfuel rest
      rw [hlisted, List.map_cons, List.cons_append] at hitems ⊢
      exact readValue_list hbefore hspacing hclosing hitems

theorem written_object {layout : Layout} (hsort : layout.sortKeys = false) {level : Nat}
    {entries : Entries Json} (hkeys : entries.keys.Nodup)
    (h : ∀ e ∈ entries, e.1.Unsplit ∧ Written (writeAt layout (level + 1) e.2).toList e.2) :
    Written (writeAt layout level (.object entries)).toList (.object entries) := by
  have hentries : (layout.arrange (writeEntries layout (level + 1) entries)).map (·.2) =
      entries.map (writtenEntry layout (level + 1)) := by
    rw [Layout.arrange, if_neg (by simp [hsort]), writeEntries_eq_map, List.map_map]
    rfl
  rw [writeAt, hentries]
  cases entries with
  | nil =>
      have htext : (enclose layout level "\x7b" "\x7d" []).toList = ['\x7b', '\x7d'] := by
        rw [enclose, List.isEmpty_nil, if_pos rfl, String.toList_append]
        rfl
      rw [List.map_nil, htext]
      refine ⟨⟨'\x7b', ['\x7d'], rfl, by decide⟩, by decide, fun fuel rest hfuel _ => ?_⟩
      obtain ⟨fuel, rfl⟩ : ∃ n, fuel = n + 1 := ⟨fuel - 1, by simp at hfuel; omega⟩
      rfl
  | cons e entries =>
      obtain ⟨before, between, behind, hbefore, hbetween, hbehind, htext⟩ :=
        exists_enclose layout level "\x7b" "\x7d" rfl rfl
          (writtenEntry layout (level + 1)) e entries
      rw [htext]
      have hwritten : ∀ f ∈ e :: entries,
          WrittenEntry (writtenEntry layout (level + 1) f).toList f :=
        fun f hf => writtenEntry_spec (h f hf).1 (h f hf).2
      refine written_enclosed (by decide) (by decide) hbefore hbetween hbehind
        (fun f hf => (hwritten f hf).line) fun fuel rest hfuel => ?_
      obtain ⟨tail, hstart⟩ := (hwritten e List.mem_cons_self).start
      obtain ⟨tail, hlisted⟩ := exists_listed_eq_cons between
        (fun f => (writtenEntry layout (level + 1) f).toList) hstart entries
      have hnew : (Entries.keys ([] ++ e :: entries)).Nodup := hkeys
      have hread := readEntries_listed hbetween hbehind hwritten hnew hfuel rest
      rw [hlisted, List.map_cons, List.cons_append] at hread ⊢
      exact readValue_object hbefore (by decide) (by decide) hread

/-- **What is written for a value is read as it**, up to whatever cannot continue it. -/
theorem written_writeAt {layout : Layout} (hsort : layout.sortKeys = false) {v : Json}
    (h : v.Proper) (level : Nat) : Written (writeAt layout level v).toList v := by
  induction h generalizing level with
  | null => exact written_word ("null".toList, .null) (by decide)
  | bool b =>
      cases b with
      | true => exact written_word ("true".toList, .bool true) (by decide)
      | false => exact written_word ("false".toList, .bool false) (by decide)
  | int hdigits => exact written_int hdigits
  | float hx => exact written_float hx
  | str hs => exact written_str layout.asciiOnly hs
  | list _ ih => exact written_list fun v hv => ih v hv (level + 1)
  | object hkeys hunsplit _ ih =>
      exact written_object hsort hkeys fun e he => ⟨hunsplit e he, ih e he (level + 1)⟩

theorem Written.readAll {cs : List Char} {v : Json} (h : Written cs v) :
    Json.readAll (cs.map .char) = .ok v := by
  obtain ⟨c, tail, rfl, hspacing, -, hmark⟩ := h.start
  have hread := h.reads (2 * ((c :: tail).map Point.char).length + 2) []
    (by rw [List.length_map]; omega) rfl
  have hskip : Json.skipSpacing ((c :: tail).map .char) = (c :: tail).map .char := by
    rw [Json.skipSpacing, List.map_cons, List.dropWhile_cons, hspacing]
    rfl
  rw [List.append_nil] at hread
  unfold Json.readAll
  split
  · next heq => exact absurd (Point.char.inj (List.cons.inj heq).1) hmark
  · rw [hskip, hread]
    rfl

/-- **A written document is read back**, in every layout that keeps the order of the keys. -/
theorem read_write {layout : Layout} (hsort : layout.sortKeys = false) {v : Json} (h : v.Proper) :
    read (write layout v) = .ok v := by
  have hwritten : Written (write layout v).toList v := written_writeAt hsort h 0
  rw [read, RawText.points_whole, hwritten.readAll]
  rfl

/-! ## What a string can stand for -/

theorem proper_of_readNumber {cs rest : List Char} {v : Json}
    (h : readNumber cs = .ok (v, rest)) : v.Proper := by
  unfold readNumber at h
  split at h
  split at h
  · cases h
  · next hwhole =>
      simp only at h
      split at h
      · split at h
        · cases h
        · next hlimit =>
            cases h
            obtain ⟨hne, hdigits⟩ := digits_of_readWhole hwhole
            exact .int ((digitsOf_naturalOf_le hne hdigits _).trans (Nat.not_lt.mp hlimit))
      · cases h
        exact .float (Double.canonical_ofDecimal _ _ _)

theorem proper_of_readScalar {ps rest : List Point} {v : Json}
    (h : readScalar ps = .ok (v, rest)) : v.Proper := by
  have hwords : ∀ w ∈ words, w.2.Proper := by
    intro w hw
    simp only [words, List.mem_cons, List.not_mem_nil, or_false] at hw
    rcases hw with rfl | rfl | rfl | rfl | rfl | rfl
    · exact .null
    · exact .bool true
    · exact .bool false
    all_goals exact .float trivial
  unfold readScalar at h
  simp only at h
  split at h
  · next word value hfound =>
      cases h
      exact hwords _ (List.mem_of_find?_eq_some hfound)
  · obtain ⟨answer, hanswer, heq⟩ := Steps.exists_of_map_eq_ok h
    cases heq
    exact proper_of_readNumber (Steps.eq_ok_of_mapError hanswer)

/-- Entries of an object that a string can stand for. -/
def ProperEntries (es : Entries Json) : Prop :=
  es.keys.Nodup ∧ ∀ e ∈ es, e.1.Unsplit ∧ e.2.Proper

theorem ProperEntries.put {es : Entries Json} (h : ProperEntries es) {key : RawText}
    (hkey : key.Unsplit) {v : Json} (hv : v.Proper) : ProperEntries (es.put key v) := by
  refine ⟨Entries.nodup_keys_put h.1 key v, fun e he => ?_⟩
  rcases Entries.mem_of_mem_put he with rfl | he
  · exact ⟨hkey, hv⟩
  · exact h.2 e he

theorem ProperEntries.object {es : Entries Json} (h : ProperEntries es) : Proper (.object es) :=
  .object h.1 (fun e he => (h.2 e he).1) fun e he => (h.2 e he).2

section AllChars

variable {ps rest : List Point} (hps : AllChars ps)

include hps

/-- What is left of characters is characters. -/
theorem AllChars.left {α : Type} {x : Except ReadFault (α × List Point)} {a : α}
    (hwithin : Within ps x) (hx : x = .ok (a, rest)) : AllChars rest :=
  hps.of_suffix (hwithin.suffix hx)

theorem AllChars.skipSpacing : AllChars (Json.skipSpacing ps) :=
  hps.of_suffix (skipSpacing_suffix ps)

theorem AllChars.behind {mark : Point} (h : Json.skipSpacing ps = mark :: rest) : AllChars rest :=
  hps.of_suffix (suffix_of_skipSpacing h)

end AllChars

/-- Whatever is read out of characters is proper, a value as well as items and entries. -/
theorem proper_of_reads (fuel : Nat) :
    (∀ {ps v rest}, AllChars ps → readValue fuel ps = .ok (v, rest) → v.Proper) ∧
    (∀ {ps items rest}, AllChars ps → readItems fuel ps = .ok (items, rest) →
      ∀ v ∈ items, v.Proper) ∧
    ∀ {es ps entries rest}, AllChars ps → readEntries fuel es ps = .ok (entries, rest) →
      ProperEntries es → ProperEntries entries := by
  induction fuel with
  | zero => refine ⟨fun _ h => ?_, fun _ h => ?_, fun _ h => ?_⟩ <;> cases h
  | succ fuel ih =>
      obtain ⟨hvalue, hitems, hentries⟩ := ih
      refine ⟨fun {ps v rest} hps h => ?_, fun {ps items rest} hps h => ?_,
        fun {es ps entries rest} hps h hes => ?_⟩
      · unfold readValue at h
        split at h
        next => contradiction
        next =>
          obtain ⟨⟨text, after⟩, htext, h⟩ := Steps.exists_of_bind_eq_ok h
          cases h
          exact .str (unsplit_of_readText (hps.of_suffix (List.suffix_cons _ _)) htext)
        next heq =>
          cases heq
          have hrest := hps.of_suffix (List.suffix_cons _ _)
          simp only at h
          split at h
          · cases h
            exact .object List.nodup_nil (List.forall_mem_nil _) (List.forall_mem_nil _)
          · obtain ⟨⟨entries, after⟩, hread, h⟩ := Steps.exists_of_bind_eq_ok h
            cases h
            exact (hentries hrest.skipSpacing hread ⟨List.nodup_nil, List.forall_mem_nil _⟩).object
        next heq =>
          cases heq
          have hrest := hps.of_suffix (List.suffix_cons _ _)
          simp only at h
          split at h
          · cases h
            exact .list (List.forall_mem_nil _)
          · obtain ⟨⟨items, after⟩, hread, h⟩ := Steps.exists_of_bind_eq_ok h
            cases h
            exact .list (hitems hrest.skipSpacing hread)
        next => exact proper_of_readScalar h
      · rw [readItems] at h
        obtain ⟨⟨item, after⟩, hitem, h⟩ := Steps.exists_of_bind_eq_ok h
        have hafter := hps.left ((reads_within fuel).1 ps) hitem
        have hitem := hvalue hps hitem
        simp only at h
        split at h
        · cases h
          simpa using hitem
        · next hcomma =>
            obtain ⟨⟨items, after⟩, hrest, h⟩ := Steps.exists_of_bind_eq_ok h
            cases h
            have hitems := hitems (hafter.behind hcomma).skipSpacing hrest
            exact List.forall_mem_cons.mpr ⟨hitem, hitems⟩
        · cases h
      · unfold readEntries at h
        split at h
        next => contradiction
        next heq =>
          cases heq
          have hrest := hps.of_suffix (List.suffix_cons _ _)
          obtain ⟨⟨key, after⟩, hkey, h⟩ := Steps.exists_of_bind_eq_ok h
          have hafter := hrest.left (readText_within _) hkey
          have hkey := unsplit_of_readText hrest hkey
          simp only at h
          split at h
          · next hcolon =>
              have hbehind := (hafter.behind hcolon).skipSpacing
              obtain ⟨⟨v, after⟩, hv, h⟩ := Steps.exists_of_bind_eq_ok h
              have hafter := hbehind.left ((reads_within fuel).1 _) hv
              have hput := hes.put hkey (hvalue hbehind hv)
              simp only at h
              split at h
              · cases h
                exact hput
              · next hcomma => exact hentries (hafter.behind hcomma).skipSpacing h hput
              · cases h
          · cases h
        next => cases h

/-- **A string can stand for a value exactly if it is proper.** -/
theorem exists_read_iff {v : Json} : (∃ text : String, read text = .ok v) ↔ v.Proper := by
  constructor
  · rintro ⟨text, h⟩
    have hall := Steps.eq_ok_of_mapError h
    have hchars := (allChars_points text).skipSpacing
    unfold readAll at hall
    split at hall
    · cases hall
    · obtain ⟨⟨value, rest⟩, hvalue, h⟩ := Steps.exists_of_bind_eq_ok hall
      simp only at h
      split at h
      · cases h
        exact (proper_of_reads _).1 hchars hvalue
      · cases h
  · intro h
    exact ⟨write .file v, read_write rfl h⟩

end DtoForge.Json
