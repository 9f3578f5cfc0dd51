import DtoForge.Unicode.Span

/-! # Blank characters — what counts as white space

A character is blank when it separates words in a text: the ASCII blanks with the four
information separators, the next-line character, and the Unicode space, line and paragraph
separators. -/

namespace DtoForge.Unicode

/-- The code points of the blank characters. -/
def blankSpans : Array (Nat × Nat) :=
  #[(9, 13), (28, 32), (133, 133), (160, 160), (5760, 5760), (8192, 8202), (8232, 8233),
    (8239, 8239), (8287, 8287), (12288, 12288)]

/-- Whether a character is white space. -/
def isBlank (c : Char) : Bool :=
  inSpans blankSpans c.toNat

/-- Whether a text holds nothing but white space. -/
def isBlankText (s : String) : Bool :=
  s.toList.all isBlank

end DtoForge.Unicode
