import DtoForge.Unicode.CaseTable

/-! # Case — lower, upper and capitalized texts

Case changes follow the full mappings of the Unicode standard: a character may become several
(`ß` becomes `SS`), and a capital sigma that ends a word becomes `ς`. ASCII letters are mapped
directly and never look at the tables. -/

namespace DtoForge.Unicode

/-- The image of a code point under the first row that names it. -/
def mapCase (rows : Array CaseRow) (code : Nat) : Option Nat :=
  (rows.find? fun r => r.toSteppedSpan.contains code).map fun r => ((code : Int) + r.offset).toNat

/-- The sequence listed for a code point. -/
def sequenceOf? (table : Array (Nat × List Nat)) (code : Nat) : Option (List Char) :=
  (table.find? fun e => e.1 == code).map fun e => e.2.map Char.ofNat

/-- The lower case of one character, wherever it stands. -/
def lowerChar (c : Char) : List Char :=
  if c.toNat < 128 then [c.toLower]
  else if c = 'İ' then ['i', '\u0307']
  else match mapCase lowerRows c.toNat with
    | some n => [Char.ofNat n]
    | none => [c]

/-- The upper case of one character. -/
def upperChar (c : Char) : List Char :=
  if c.toNat < 128 then [c.toUpper]
  else match sequenceOf? upperSequences c.toNat with
    | some cs => cs
    | none => match mapCase upperRows c.toNat with
      | some n => [Char.ofNat n]
      | none => [c]

/-- The form of one character at the start of a capitalized word. -/
def titleChar (c : Char) : List Char :=
  if c.toNat < 128 then [c.toUpper]
  else match sequenceOf? titleForms c.toNat with
    | some cs => cs
    | none => if inSpans titleUnchanged c.toNat then [c] else upperChar c

/-- Whether a character is an upper-case letter. -/
def isUpper (c : Char) : Bool :=
  if c.toNat < 128 then c.isUpper else upperSpans.any (·.contains c.toNat)

/-- Whether the first character that is not skipped has case. -/
def startsCased (cs : List Char) : Bool :=
  match cs.dropWhile fun c => inSpans caseIgnorableSpans c.toNat with
  | [] => false
  | c :: _ => inSpans casedSpans c.toNat

/-- The lower case of a text whose characters before it are given in reverse. -/
def lowerAfter (before : List Char) : List Char → List Char
  | [] => []
  | c :: cs =>
    let image :=
      if c = 'Σ' then [if startsCased before && !startsCased cs then 'ς' else 'σ'] else lowerChar c
    image ++ lowerAfter (c :: before) cs

/-- The lower case of a text. -/
def lower (cs : List Char) : List Char :=
  lowerAfter [] cs

/-- The upper case of a text. -/
def upper (cs : List Char) : List Char :=
  cs.flatMap upperChar

/-- A text with its first character in title form and the others in lower case. -/
def capitalize : List Char → List Char
  | [] => []
  | c :: cs => titleChar c ++ lowerAfter [c] cs

end DtoForge.Unicode

namespace String

/-- The lower case of a text. -/
def lowered (s : String) : String :=
  ofList (DtoForge.Unicode.lower s.toList)

/-- The upper case of a text. -/
def uppered (s : String) : String :=
  ofList (DtoForge.Unicode.upper s.toList)

end String
