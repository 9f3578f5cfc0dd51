import DtoForge.Json.Display

/-! # Writer — documents as text

The layout tells whether characters beyond ASCII are escaped, whether keys are sorted and how deep
each level is indented. A document on one line has a blank after each comma and colon. -/

namespace DtoForge.Json

/-- How a document is laid out. -/
structure Layout where
  asciiOnly : Bool := true
  sortKeys : Bool := false
  indent : Option Nat := none

/-- One line, ASCII only: the form of bodies kept as text. -/
def Layout.line : Layout := {}

/-- One line with sorted keys: the form that identifies a structure. -/
def Layout.canonical : Layout := { sortKeys := true }

/-- Two blanks a level and all characters as they stand: the form of saved files. -/
def Layout.file : Layout := { asciiOnly := false, indent := some 2 }

/-- A hexadecimal escape of one code unit. -/
def unitEscape (n : Nat) : List Char :=
  '\\' :: 'u' :: Text.hexDigits 4 n

/-- One character of a written text. -/
def writeChar (asciiOnly : Bool) (c : Char) : List Char :=
  if c = '"' then ['\\', '"']
  else if c = '\\' then ['\\', '\\']
  else if c = '\n' then ['\\', 'n']
  else if c = '\r' then ['\\', 'r']
  else if c = '\t' then ['\\', 't']
  else if c = '\x08' then ['\\', 'b']
  else if c = '\x0c' then ['\\', 'f']
  else if c.toNat < 0x20 then unitEscape c.toNat
  else if !asciiOnly || c.toNat < 0x7f then [c]
  else if c.toNat ≤ 0xffff then unitEscape c.toNat
  else
    let n := c.toNat - 0x10000
    unitEscape (0xd800 + n / 0x400) ++ unitEscape (0xdc00 + n % 0x400)

/-- One point of a written text. A half of a surrogate pair is always written as its code unit,
since it has no other form in characters. -/
def writePoint (asciiOnly : Bool) : Point → List Char
  | .char c => writeChar asciiOnly c
  | .half h => unitEscape h.unit

/-- A written text with its quotes. -/
def writeText (asciiOnly : Bool) (s : RawText) : String :=
  String.ofList ('"' :: s.points.flatMap (writePoint asciiOnly) ++ ['"'])

/-- Parts between an opening and a closing mark, each part on its own line when indented. -/
def enclose (layout : Layout) (level : Nat) (opening closing : String) (parts : List String) :
    String :=
  if parts.isEmpty then opening ++ closing
  else match layout.indent with
    | none => opening ++ String.intercalate ", " parts ++ closing
    | some width =>
      let line (depth : Nat) := "\n" ++ String.ofList (List.replicate (width * depth) ' ')
      opening ++ line (level + 1) ++ String.intercalate ("," ++ line (level + 1)) parts ++
        line level ++ closing

/-- Entries in the order in which they are written. -/
def Layout.arrange {α : Type} (layout : Layout) (entries : List (RawText × α)) :
    List (RawText × α) :=
  if layout.sortKeys then entries.mergeSort fun a b => a.1 ≤ b.1 else entries

mutual

/-- A value as text, at some level of nesting. -/
def writeAt (layout : Layout) (level : Nat) : Json → String
  | .null => "null"
  | .bool b => if b then "true" else "false"
  | .int n => toString n
  | .float x => x.textWith "Infinity" "NaN"
  | .str s => writeText layout.asciiOnly s
  | .list items => enclose layout level "[" "]" (writeItems layout (level + 1) items)
  | .object entries =>
    enclose layout level "\x7b" "\x7d"
      ((layout.arrange (writeEntries layout (level + 1) entries)).map (·.2))

/-- The texts of the items of a list. -/
def writeItems (layout : Layout) (level : Nat) : List Json → List String
  | [] => []
  | v :: vs => writeAt layout level v :: writeItems layout level vs

/-- The keys of an object, each with the text of its entry. -/
def writeEntries (layout : Layout) (level : Nat) : List (RawText × Json) → List (RawText × String)
  | [] => []
  | (k, v) :: es =>
    (k, writeText layout.asciiOnly k ++ ": " ++ writeAt layout level v) ::
      writeEntries layout level es

end

/-- A document as text. -/
def write (layout : Layout) (v : Json) : String :=
  writeAt layout 0 v

/-! ## Texts without bytes -/

/-- Why a text cannot be written to a file: the halves that stand first in it, and where they stand
in the piece that is written with them. -/
structure EncodeFault where
  place : Nat
  halves : List Half
  deriving DecidableEq, Repr

/-- The wording of a fault. -/
def EncodeFault.message (fault : EncodeFault) : String :=
  let what := match fault.halves with
    | [h] => "character '" ++ String.ofList (unitEscape h.unit) ++ "' in position " ++
      toString fault.place
    | halves => "characters in position " ++ toString fault.place ++ "-" ++
      toString (fault.place + halves.length - 1)
  "'utf-8' codec can't encode " ++ what ++ ": surrogates not allowed"

/-- The halves in front of the first character. -/
def leadingHalves : List Point → List Half
  | .half h :: ps => h :: leadingHalves ps
  | _ => []

/-- The fault of a text that is written with its quotes behind some marks. -/
def textFault? (marks : Nat) (s : RawText) : Option EncodeFault :=
  if s.isWhole then none
  else
    let front := s.points.takeWhile fun p => !p.isHalf
    some
      { place := marks + 1 + (front.flatMap (writePoint false)).length
        halves := leadingHalves (s.points.drop front.length) }

mutual

/-- The first fault of a value at some level of nesting, in a file that indents. A value is written
behind some marks, and only texts are in one piece with them. -/
def faultAt? (width level marks : Nat) : Json → Option EncodeFault
  | .str s => textFault? marks s
  | .list items => itemsFault? width (level + 1) items
  | .object entries => entriesFault? width (level + 1) entries
  | _ => none

/-- The first fault of items, each behind a mark, a line feed and its indent. -/
def itemsFault? (width level : Nat) : List Json → Option EncodeFault
  | [] => none
  | v :: vs => (faultAt? width level (2 + width * level) v).or (itemsFault? width level vs)

/-- The first fault of entries. -/
def entriesFault? (width level : Nat) : List (RawText × Json) → Option EncodeFault
  | [] => none
  | (key, v) :: es =>
    (textFault? 0 key).or ((faultAt? width level 0 v).or (entriesFault? width level es))

end

/-- The first fault of a document in a file. -/
def fileFault? (v : Json) : Option EncodeFault :=
  faultAt? 2 0 0 v

end DtoForge.Json
