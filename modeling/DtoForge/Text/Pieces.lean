import DtoForge.Unicode.Case
import DtoForge.Unicode.Blank

/-! # Pieces of a text — splitting, stripping and squeezing

Texts are worked on as lists of characters. A split always gives at least one piece, and joining
the pieces with the separator gives the text back (`joinPieces_splitPieces`). -/

namespace DtoForge.Text

/-! ## Splitting and joining -/

/-- The pieces between the occurrences of a separator. -/
def splitPieces (sep : Char) : List Char → List (List Char)
  | [] => [[]]
  | c :: cs =>
    if c = sep then [] :: splitPieces sep cs
    else match splitPieces sep cs with
      | [] => [[c]]
      | p :: ps => (c :: p) :: ps

/-- The pieces in order, one separator between two neighbours. -/
def joinPieces (sep : Char) : List (List Char) → List Char
  | [] => []
  | [p] => p
  | p :: q :: ps => p ++ sep :: joinPieces sep (q :: ps)

theorem splitPieces_ne_nil (sep : Char) (cs : List Char) : splitPieces sep cs ≠ [] := by
  cases cs with
  | nil => simp [splitPieces]
  | cons c cs =>
    by_cases h : c = sep
    · simp [splitPieces, h]
    · cases hs : splitPieces sep cs <;> simp [splitPieces, h, hs]

/-- Joining the pieces of a split gives the text back. -/
theorem joinPieces_splitPieces (sep : Char) (cs : List Char) :
    joinPieces sep (splitPieces sep cs) = cs := by
  induction cs with
  | nil => rfl
  | cons c cs ih =>
    by_cases h : c = sep
    · cases hs : splitPieces sep cs with
      | nil => exact absurd hs (splitPieces_ne_nil sep cs)
      | cons p ps =>
        rw [hs] at ih
        simp [splitPieces, h, hs, joinPieces, ih]
    · cases hs : splitPieces sep cs with
      | nil => exact absurd hs (splitPieces_ne_nil sep cs)
      | cons p ps =>
        rw [hs] at ih
        cases ps with
        | nil =>
          rw [joinPieces] at ih
          simp [splitPieces, h, hs, joinPieces, ih]
        | cons q qs =>
          rw [joinPieces] at ih
          simp [splitPieces, h, hs, joinPieces, ih]

/-- The pieces of a text between the occurrences of a separator. -/
def split (sep : Char) (s : String) : List String :=
  (splitPieces sep s.toList).map String.ofList

/-! ## Stripping -/

/-- A text without the characters of a class at its end. -/
def stripRight (p : Char → Bool) (cs : List Char) : List Char :=
  (cs.reverse.dropWhile p).reverse

/-- A text without the characters of a class at either end. -/
def strip (p : Char → Bool) (cs : List Char) : List Char :=
  stripRight p (cs.dropWhile p)

/-- A text without the white space at either end. -/
def trim (s : String) : String :=
  String.ofList (strip Unicode.isBlank s.toList)

/-! ## Squeezing -/

/-- Each run of characters of a class becomes one given character. `inside` tells whether the
character before was of the class. -/
def squeezeFrom (p : Char → Bool) (mark : Char) (inside : Bool) : List Char → List Char
  | [] => []
  | c :: cs =>
    if p c then
      if inside then squeezeFrom p mark true cs else mark :: squeezeFrom p mark true cs
    else c :: squeezeFrom p mark false cs

/-- Each run of characters of a class becomes one given character. -/
def squeeze (p : Char → Bool) (mark : Char) (cs : List Char) : List Char :=
  squeezeFrom p mark false cs

/-! ## Searching -/

/-- Whether the first text occurs in the second. -/
def occursIn (needle : List Char) : List Char → Bool
  | [] => needle.isEmpty
  | c :: cs => needle.isPrefixOf (c :: cs) || occursIn needle cs

/-- Whether the first text occurs in the second. -/
def isSubtext (needle text : String) : Bool :=
  occursIn needle.toList text.toList

/-- Whether the first text starts the second. -/
def startsText (start text : String) : Bool :=
  start.toList.isPrefixOf text.toList

/-- Whether the first text ends the second. -/
def endsText (ending text : String) : Bool :=
  ending.toList.isSuffixOf text.toList

/-- A text filled with blanks at its end to a given length. -/
def padRight (width : Nat) (s : String) : String :=
  s ++ String.ofList (List.replicate (width - s.length) ' ')

end DtoForge.Text
