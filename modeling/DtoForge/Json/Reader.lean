import DtoForge.Json.Basic

/-! # Reader — documents out of text

The grammar is that of JSON, with `NaN`, `Infinity` and `-Infinity` as further numbers. The text is
read point by point, since the halves of surrogate pairs that it holds may stand in texts. A text
that is no document is refused at one place: the fault keeps what was left of the text there, and
the place is told by line, column and offset. An integer with too many digits ends the reading as
well, with a refusal of another class, wherever it stands. A key that is repeated keeps its first
place and its last value. -/

namespace DtoForge.Json

open Number (Double)

/-! ## Faults -/

/-- What was missing or wrong at the place where reading stopped. -/
inductive ReadCause where
  | byteOrderMark | value | propertyName | colon | comma | extraData
  | unterminatedText | controlCharacter | badEscape | badUnicodeEscape
  deriving DecidableEq, Repr

/-- Why reading stopped. -/
inductive ReadFault where
  /-- The text is no document, with what was left of it at the place of the cause. -/
  | misread (cause : ReadCause) (rest : List Point)
  /-- An integer has too many digits. -/
  | longInteger (digits : Nat)

/-- A cause with its place; lines and columns count from one, the offset from zero. -/
structure ReadError where
  cause : ReadCause
  line : Nat
  column : Nat
  offset : Nat
  deriving DecidableEq, Repr

/-- The wording of a cause. -/
def ReadCause.message : ReadCause → String
  | .byteOrderMark => "Unexpected UTF-8 BOM (decode using utf-8-sig)"
  | .value => "Expecting value"
  | .propertyName => "Expecting property name enclosed in double quotes"
  | .colon => "Expecting ':' delimiter"
  | .comma => "Expecting ',' delimiter"
  | .extraData => "Extra data"
  | .unterminatedText => "Unterminated string starting at"
  | .controlCharacter => "Invalid control character at"
  | .badEscape => "Invalid \\escape"
  | .badUnicodeEscape => "Invalid \\uXXXX escape"

/-- The wording of an error with its place. -/
def ReadError.message (e : ReadError) : String :=
  e.cause.message ++ ": line " ++ toString e.line ++ " column " ++ toString e.column ++
    " (char " ++ toString e.offset ++ ")"

/-- Why a text is not read as a document. -/
inductive ReadRefusal where
  /-- The text is no document. -/
  | misread (error : ReadError)
  /-- An integer has too many digits. -/
  | longInteger (digits : Nat)
  deriving DecidableEq, Repr

/-- The wording of a refusal. -/
def ReadRefusal.message : ReadRefusal → String
  | .misread error => error.message
  | .longInteger digits => longIntegerMessage digits

/-- Places a fault in the text it was found in. -/
def ReadFault.locate (text : List Point) : ReadFault → ReadRefusal
  | .misread cause rest =>
    let offset := text.length - rest.length
    let before := text.take offset
    .misread
      { cause
        line := before.count (.char '\n') + 1
        column := (before.reverse.takeWhile (· != .char '\n')).length + 1
        offset }
  | .longInteger digits => .longInteger digits

/-! ## Characters -/

/-- The blanks allowed between the parts of a document. -/
def isSpacing (p : Point) : Bool :=
  p == .char ' ' || p == .char '\t' || p == .char '\n' || p == .char '\r'

/-- The text after its leading blanks. -/
def skipSpacing (ps : List Point) : List Point :=
  ps.dropWhile isSpacing

/-- The value of a hexadecimal digit. -/
def hexValue? : Point → Option Nat
  | .half _ => none
  | .char c =>
    if c.isDigit then some (c.toNat - '0'.toNat)
    else if 'a' ≤ c ∧ c ≤ 'f' then some (c.toNat - 'a'.toNat + 10)
    else if 'A' ≤ c ∧ c ≤ 'F' then some (c.toNat - 'A'.toNat + 10)
    else none

/-- The number written by four hexadecimal digits. -/
def hexQuad? (a b c d : Point) : Option Nat := do
  return ((← hexValue? a) * 16 + (← hexValue? b)) * 256 + ((← hexValue? c) * 16 + (← hexValue? d))

/-- The number written by decimal digits. -/
def naturalOf (digits : List Char) : Nat :=
  digits.foldl (fun n c => 10 * n + (c.toNat - '0'.toNat)) 0

/-- A part of a text between quotes. -/
inductive TextPart where
  /-- A point that stands as it is, or a character that is escaped. -/
  | plain (p : Point)
  /-- One half of a surrogate pair that is escaped. -/
  | escaped (h : Half)

/-- The part that an escaped code unit stands for. -/
def TextPart.ofUnit (n : Nat) : TextPart :=
  if h : 0xd800 ≤ n ∧ n ≤ 0xdfff then .escaped ⟨n - 0xd800, by omega⟩
  else .plain (.char (Char.ofNat n))

/-- The points of the parts of a text. Two escaped halves of a surrogate pair make one character
when they are neighbours, and every other half stands for itself. -/
def pointsOf : List TextPart → List Point
  | [] => []
  | .plain p :: rest => p :: pointsOf rest
  | .escaped h :: .escaped l :: rest =>
    if h.isHigh && !l.isHigh then .char (h.join l) :: pointsOf rest
    else .half h :: pointsOf (.escaped l :: rest)
  | .escaped h :: rest => .half h :: pointsOf rest

/-- The character of a one-letter escape. -/
def escapeChar? : Point → Option Char
  | .char '"' => some '"'
  | .char '\\' => some '\\'
  | .char '/' => some '/'
  | .char 'b' => some '\x08'
  | .char 'f' => some '\x0c'
  | .char 'n' => some '\n'
  | .char 'r' => some '\r'
  | .char 't' => some '\t'
  | _ => none

/-! ## Texts -/

/-- Reads the parts of a text after its opening quote. `start` is the text from the quote on, and
`parts` holds what has been read so far in reverse. An escape in hexadecimal must be followed by
something. -/
def readParts (start : List Point) (parts : List TextPart) :
    List Point → Except ReadFault (List TextPart × List Point)
  | [] => .error (.misread .unterminatedText start)
  | .char '"' :: rest => .ok (parts.reverse, rest)
  | .char '\\' :: [] => .error (.misread .unterminatedText start)
  | .char '\\' :: .char 'u' :: a :: b :: c :: d :: rest =>
    match hexQuad? a b c d, rest.isEmpty with
    | some n, false => readParts start (.ofUnit n :: parts) rest
    | _, _ => .error (.misread .badUnicodeEscape (.char 'u' :: a :: b :: c :: d :: rest))
  | .char '\\' :: p :: rest =>
    match escapeChar? p with
    | some e => readParts start (.plain (.char e) :: parts) rest
    | none =>
      if p = .char 'u' then .error (.misread .badUnicodeEscape (p :: rest))
      else .error (.misread .badEscape (.char '\\' :: p :: rest))
  | p :: rest =>
    if p.code < 0x20 then .error (.misread .controlCharacter (p :: rest))
    else readParts start (.plain p :: parts) rest

/-- Reads a text after its opening quote. -/
def readText (rest : List Point) : Except ReadFault (RawText × List Point) :=
  (readParts (.char '"' :: rest) [] rest).map fun (parts, rest) =>
    (.ofPoints (pointsOf parts), rest)

/-! ## Numbers -/

/-- Why characters are no number that is read. -/
inductive NumberFault where
  | noNumber
  /-- An integer has too many digits. -/
  | tooLong (digits : Nat)

/-- The fault of a text that holds no number where one is wanted. -/
def NumberFault.faultAt (ps : List Point) : NumberFault → ReadFault
  | .noNumber => .misread .value ps
  | .tooLong digits => .longInteger digits

/-- The exponent part of a number, absent unless a digit follows the mark and its sign. -/
def readExponent (cs : List Char) : Option (Int × List Char) :=
  match cs with
  | mark :: rest =>
    if mark = 'e' ∨ mark = 'E' then
      let (negative, tail) :=
        match rest with
        | '-' :: tail => (true, tail)
        | '+' :: tail => (false, tail)
        | tail => (false, tail)
      let digits := tail.takeWhile Char.isDigit
      if digits.isEmpty then none
      else
        let size : Int := naturalOf digits
        some (if negative then -size else size, tail.dropWhile Char.isDigit)
    else none
  | [] => none

/-- The fraction part of a number, absent unless a digit follows the point. -/
def readFraction (cs : List Char) : Option (List Char × List Char) :=
  match cs with
  | '.' :: rest =>
    let digits := rest.takeWhile Char.isDigit
    if digits.isEmpty then none else some (digits, rest.dropWhile Char.isDigit)
  | _ => none

/-- The whole part of a number: a zero alone, or digits that start with another one. -/
def readWhole (cs : List Char) : Option (List Char × List Char) :=
  match cs with
  | '0' :: rest => some (['0'], rest)
  | c :: _ => if c.isDigit then some (cs.takeWhile Char.isDigit, cs.dropWhile Char.isDigit) else none
  | [] => none

/-- Reads a number; without fraction and exponent it is an integer, and its digits are limited. -/
def readNumber (cs : List Char) : Except NumberFault (Json × List Char) :=
  let (negative, unsigned) :=
    match cs with
    | '-' :: rest => (true, rest)
    | _ => (false, cs)
  match readWhole unsigned with
  | none => .error .noNumber
  | some (whole, afterWhole) =>
    let fraction := readFraction afterWhole
    let afterFraction := (fraction.map (·.2)).getD afterWhole
    let exponent := readExponent afterFraction
    let rest := (exponent.map (·.2)).getD afterFraction
    if fraction.isNone ∧ exponent.isNone then
      let size : Int := naturalOf whole
      if digitLimit < whole.length then .error (.tooLong whole.length)
      else .ok (.int (if negative then -size else size), rest)
    else
      let digits := (fraction.map (·.1)).getD []
      let power := (exponent.map (·.1)).getD 0 - (digits.length : Int)
      .ok (.float (Double.ofDecimal negative (naturalOf (whole ++ digits)) power), rest)

/-! ## Values -/

/-- The words that stand for a value. -/
def words : List (List Char × Json) :=
  [("null".toList, .null), ("true".toList, .bool true), ("false".toList, .bool false),
    ("NaN".toList, .float .nan), ("Infinity".toList, .float (.infinite false)),
    ("-Infinity".toList, .float (.infinite true))]

/-- Whether a character can stand in a word or a number. -/
def isScalarChar (c : Char) : Bool :=
  c.isAlphanum || c == '-' || c == '+' || c == '.'

/-- The characters in front that can stand in a word or a number. -/
def scalarChars : List Point → List Char
  | .char c :: ps => if isScalarChar c then c :: scalarChars ps else []
  | _ => []

/-- Reads a word or a number. -/
def readScalar (ps : List Point) : Except ReadFault (Json × List Point) :=
  let cs := scalarChars ps
  match words.find? fun w => w.1.isPrefixOf cs with
  | some (word, value) => .ok (value, ps.drop word.length)
  | none => ((readNumber cs).mapError (NumberFault.faultAt ps)).map fun (value, rest) =>
      (value, ps.drop (cs.length - rest.length))

mutual

/-- Reads a value. The first argument bounds the number of steps, and twice the length of the text is
always enough. -/
def readValue : Nat → List Point → Except ReadFault (Json × List Point)
  | 0, ps => .error (.misread .value ps)
  | _ + 1, .char '"' :: rest => do
    let (text, rest) ← readText rest
    return (.str text, rest)
  | fuel + 1, .char '\x7b' :: rest => do
    let rest := skipSpacing rest
    match rest with
    | .char '\x7d' :: rest => return (.object [], rest)
    | _ =>
      let (entries, rest) ← readEntries fuel [] rest
      return (.object entries, rest)
  | fuel + 1, .char '[' :: rest => do
    let rest := skipSpacing rest
    match rest with
    | .char ']' :: rest => return (.list [], rest)
    | _ =>
      let (items, rest) ← readItems fuel rest
      return (.list items, rest)
  | _ + 1, ps => readScalar ps

/-- Reads the items of a list up to its closing bracket. -/
def readItems : Nat → List Point → Except ReadFault (List Json × List Point)
  | 0, ps => .error (.misread .value ps)
  | fuel + 1, ps => do
    let (item, rest) ← readValue fuel ps
    match skipSpacing rest with
    | .char ']' :: rest => return ([item], rest)
    | .char ',' :: rest =>
      let (items, rest) ← readItems fuel (skipSpacing rest)
      return (item :: items, rest)
    | rest => .error (.misread .comma rest)

/-- Reads the entries of an object up to its closing brace, after those already read. -/
def readEntries : Nat → Entries Json → List Point → Except ReadFault (Entries Json × List Point)
  | 0, _, ps => .error (.misread .value ps)
  | fuel + 1, entries, .char '"' :: rest => do
    let (key, rest) ← readText rest
    match skipSpacing rest with
    | .char ':' :: rest =>
      let (value, rest) ← readValue fuel (skipSpacing rest)
      let entries := entries.put key value
      match skipSpacing rest with
      | .char '\x7d' :: rest => return (entries, rest)
      | .char ',' :: rest => readEntries fuel entries (skipSpacing rest)
      | rest => .error (.misread .comma rest)
    | rest => .error (.misread .colon rest)
  | _ + 1, _, ps => .error (.misread .propertyName ps)

end

/-- Reads a document that takes up the whole text. -/
def readAll (ps : List Point) : Except ReadFault Json :=
  match ps with
  | .char '\ufeff' :: _ => .error (.misread .byteOrderMark ps)
  | _ => do
    let (value, rest) ← readValue (2 * ps.length + 2) (skipSpacing ps)
    match skipSpacing rest with
    | [] => return value
    | rest => .error (.misread .extraData rest)

/-- Reads a document, with the place of the fault when the text is none. -/
def read (s : RawText) : Except ReadRefusal Json :=
  (readAll s.points).mapError fun f => f.locate s.points

end DtoForge.Json
