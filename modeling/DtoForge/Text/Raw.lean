import DtoForge.Text.Quoted

/-! # Raw texts — texts as documents give them

A document may escape one half of a surrogate pair without the other. Such a half is no character,
and nothing puts two of them together later, not even when they come to stand side by side. A text
with a half in it is torn, and is kept as the points it is made of; every other text is whole, and
is a string. Where only characters can be used, each half shows as a replacement character. -/

namespace DtoForge

/-! ## Points -/

/-- One half of a surrogate pair, counted from the first. -/
abbrev Half := Fin 0x800

/-- The code unit of a half. -/
def Half.unit (h : Half) : Nat :=
  0xd800 + h.val

/-- Whether a half is the first one of a pair. -/
def Half.isHigh (h : Half) : Bool :=
  h.val < 0x400

/-- The character of a pair. -/
def Half.join (h l : Half) : Char :=
  Char.ofNat (0x10000 + h.val * 0x400 + (l.val - 0x400))

/-- What a text is made of. -/
inductive Point where
  | char (c : Char)
  /-- One half of a surrogate pair that stands for itself. -/
  | half (h : Half)
  deriving DecidableEq, Repr

namespace Point

/-- The number of a point. -/
def code : Point → Nat
  | .char c => c.toNat
  | .half h => h.unit

@[simp] theorem code_char (c : Char) : (char c).code = c.toNat := rfl

/-- Whether a point is no character. -/
def isHalf : Point → Bool
  | .char _ => false
  | .half _ => true

/-- The character that shows a point. -/
def shownChar : Point → Char
  | .char c => c
  | .half _ => '\ufffd'

end Point

/-! ## Texts -/

/-- A text out of a document: a string, or points that are not all characters. -/
inductive RawText where
  | whole (text : String)
  | torn (points : { ps : List Point // ps.any Point.isHalf = true })
  deriving DecidableEq, Repr

namespace RawText

instance : Inhabited RawText := ⟨.whole ""⟩

instance : Coe String RawText := ⟨.whole⟩

/-- The text made of points. -/
def ofPoints (ps : List Point) : RawText :=
  if h : ps.any Point.isHalf = true then .torn ⟨ps, h⟩
  else .whole (String.ofList (ps.map Point.shownChar))

/-- The points of a text. -/
def points : RawText → List Point
  | .whole s => s.toList.map .char
  | .torn ps => ps.val

/-- A text in characters, with a replacement character for each half. -/
def legible : RawText → String
  | .whole s => s
  | .torn ps => String.ofList (ps.val.map Point.shownChar)

/-- A text with characters behind it. -/
def append (s : RawText) (text : String) : RawText :=
  match s with
  | .whole s => .whole (s ++ text)
  | .torn ps => ofPoints (ps.val ++ text.toList.map .char)

/-- Whether a text has no points. -/
def isEmpty : RawText → Bool
  | .whole s => s.isEmpty
  | .torn _ => false

/-- Whether a text is whole. -/
def isWhole : RawText → Bool
  | .whole _ => true
  | .torn _ => false

/-- The numbers of the points of a text. -/
def codes (s : RawText) : List Nat :=
  s.points.map Point.code

/-- Texts are ordered by the numbers of their points. -/
instance : LT RawText := ⟨fun s t => s.codes < t.codes⟩

instance : LE RawText := ⟨fun s t => ¬ t < s⟩

instance (s t : RawText) : Decidable (s < t) := inferInstanceAs (Decidable (s.codes < t.codes))

instance (s t : RawText) : Decidable (s ≤ t) := inferInstanceAs (Decidable (¬ t < s))

/-- A text as messages show it; a half is written as an escape. -/
def quoted (s : RawText) : String :=
  match s with
  | .whole s => Text.quoted s
  | .torn ps =>
    let quote := Text.chosenQuote (ps.val.map Point.shownChar)
    String.ofList (quote :: ps.val.flatMap (fun
      | .char c => Text.quoteChar quote c
      | .half h => '\\' :: 'u' :: Text.hexDigits 4 h.unit) ++ [quote])

@[simp] theorem legible_whole (s : String) : (whole s).legible = s := rfl

@[simp] theorem points_whole (s : String) : (whole s).points = s.toList.map .char := rfl

end RawText

end DtoForge
