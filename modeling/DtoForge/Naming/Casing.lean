import DtoForge.Text.Pieces
import DtoForge.Json.Shape

/-! # Casing — words of a name and the ways to write them

A name is cut into words at blanks, hyphens, points and underscores and where its case changes.
Snake case joins the words by underscores; camel and Pascal case capitalize them. -/

namespace DtoForge.Naming

/-- The ways to write a name. -/
inductive Casing where
  | snake | camel | pascal
  /-- Left as written. -/
  | original
  deriving DecidableEq, Repr

namespace Casing

/-- The word that selects a casing. -/
def word : Casing → String
  | .snake => "snake"
  | .camel => "camel"
  | .pascal => "pascal"
  | .original => "original"

/-- The casings in order. -/
def all : List Casing := [.snake, .camel, .pascal, .original]

/-- The casing a value selects. -/
def ofJson (v : Json) : Except ShapeError Casing :=
  match all.find? fun c => v == .str c.word with
  | some c => .ok c
  | none => .error (.notMemberOf v "NamingCase")

end Casing

/-! ## Words -/

/-- Characters that separate words besides the underscore. -/
def isSeparator (c : Char) : Bool :=
  c == '-' || c == '.' || Unicode.isBlank c

/-- An underscore before each capital that follows a small letter or a digit, and before the last
capital of several when a small letter follows. Only ASCII letters count. -/
def breakWords (before : Option Char) : List Char → List Char
  | [] => []
  | c :: cs =>
    let starts :=
      c.isUpper && match before with
        | some p => p.isLower || p.isDigit ||
            (p.isUpper && match cs with
              | n :: _ => n.isLower
              | [] => false)
        | none => false
    (if starts then ['_', c] else [c]) ++ breakWords (some c) cs

/-- Snake case: words in lower case joined by single underscores. -/
def snakeChars (cs : List Char) : List Char :=
  let broken := breakWords none (Text.squeeze isSeparator '_' cs)
  Text.strip (· == '_') (Text.squeeze (· == '_') '_' (Unicode.lower broken))

/-- The words of a name in lower case. -/
def wordsOf (cs : List Char) : List (List Char) :=
  (Text.splitPieces '_' (snakeChars cs)).filter fun w => !w.isEmpty

/-- Pascal case: every word capitalized. -/
def pascalChars (cs : List Char) : List Char :=
  (wordsOf cs).flatMap Unicode.capitalize

/-- Camel case: every word but the first capitalized; a name without words stays as it is. -/
def camelChars (cs : List Char) : List Char :=
  match wordsOf cs with
  | [] => cs
  | w :: ws => w ++ ws.flatMap Unicode.capitalize

/-- A name in snake case. -/
def snake (s : String) : String := String.ofList (snakeChars s.toList)

/-- A name in camel case. -/
def camel (s : String) : String := String.ofList (camelChars s.toList)

/-- A name in Pascal case. -/
def pascal (s : String) : String := String.ofList (pascalChars s.toList)

/-- A name in one of the casings. -/
def Casing.apply : Casing → String → String
  | .snake => Naming.snake
  | .camel => Naming.camel
  | .pascal => Naming.pascal
  | .original => id

/-- A value in one of the casings: any value can stay as it is, but only texts can be rewritten. -/
def Casing.applyJson (c : Casing) (v : Json) : Except ShapeError Json :=
  if c = .original then .ok v
  else do return .str (c.apply (← v.matchedText))

/-- The text itself, or a default in place of the empty text. -/
def orElse (s fallback : String) : String :=
  if s.isEmpty then fallback else s

/-! ## Nouns -/

/-- Drops characters at the end. -/
def dropEnd (n : Nat) (cs : List Char) : List Char :=
  cs.take (cs.length - n)

/-- The singular of an English plural, as far as its ending tells. -/
def singular (s : String) : String :=
  let cs := s.toList
  let low := Unicode.lower cs
  let ends (tail : String) : Bool := tail.toList.isSuffixOf low
  if ends "ies" && cs.length > 3 then
    let capital := match cs.reverse with
      | _ :: _ :: i :: _ => Unicode.isUpper i
      | _ => false
    String.ofList (dropEnd 3 cs ++ [if capital then 'Y' else 'y'])
  else if ["sses", "xes", "ches", "shes", "zzes"].any ends then String.ofList (dropEnd 2 cs)
  else if ends "s" && !(["ss", "us", "is"].any ends) && cs.length > 1 then
    String.ofList (dropEnd 1 cs)
  else s

/-- The type name of a path: its last segment that is not empty and no parameter. -/
def pathTypeName (path : String) : String :=
  let route := (Text.splitPieces '?' path.toList).headD []
  let segments := (Text.splitPieces '/' route).filter fun s => !s.isEmpty
  let fixed := segments.reverse.dropWhile fun s => s.head? == some ':' || s.head? == some '\x7b'
  orElse (String.ofList (pascalChars (fixed.headD "root".toList))) "Root"

end DtoForge.Naming
