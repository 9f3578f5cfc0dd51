import DtoForge.Text.Pieces

/-! # Source — lines of generated code

Code is put together as lines and given its final form at the end: no white space at the end of a
line, no more than a given number of blank lines in a row, none at either end, and one line feed
after the last line. -/

namespace DtoForge.Source

/-- Lines of code; a line may come from a name that holds a line feed. -/
abbrev Lines := List String

/-- Lines that are there only under a condition. -/
def onlyIf (condition : Bool) (lines : Lines) : Lines :=
  if condition then lines else []

/-- A part of a line that is there only under a condition. -/
def partIf (condition : Bool) (part : String) : String :=
  if condition then part else ""

/-- Lines as one text. -/
def text (lines : Lines) : String :=
  String.join (lines.map (· ++ "\n"))

/-! ## Final form -/

/-- Drops blank lines beyond a number in a row. `run` counts the blank lines just before. -/
def limitBlank (limit run : Nat) : List (List Char) → List (List Char)
  | [] => []
  | l :: ls =>
    if l.isEmpty then
      if run < limit then l :: limitBlank limit (run + 1) ls else limitBlank limit (run + 1) ls
    else l :: limitBlank limit 0 ls

/-- The final form of generated code. -/
def format (limit : Nat) (code : String) : String :=
  let lines := (Text.splitPieces '\n' code.toList).map (Text.stripRight Unicode.isBlank)
  let body := Text.strip (· == '\n') (Text.joinPieces '\n' (limitBlank limit 0 lines))
  String.ofList (body ++ ['\n'])

end DtoForge.Source
