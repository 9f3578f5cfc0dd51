import DtoForge.Json.Display
import DtoForge.Unicode.Digit
import DtoForge.Text.Pieces

/-! # Shape — what a document must look like to be used

Documents come from outside, so any value may stand where a text, a list or an object is wanted.
Every reading function here gives the wanted content or the cause of the refusal. The class of a
cause tells which callers answer for it. -/

namespace DtoForge

/-- Why a value cannot be used as it is wanted. -/
inductive ShapeError where
  /-- The kind of value has no such member. -/
  | noMember (kind : Json.Kind) (member : String)
  /-- Nothing can be looked for in this kind of value. -/
  | notSearchable (kind : Json.Kind)
  /-- The kind of value has no elements. -/
  | noElements (kind : Json.Kind)
  /-- A text was wanted. -/
  | notText (kind : Json.Kind)
  /-- A number, or a text that writes one, was wanted. -/
  | notNumber (kind : Json.Kind)
  /-- The text does not write an integer. -/
  | badInteger (text : RawText)
  /-- The integer that a text writes has too many digits. -/
  | longInteger (digits : Nat)
  /-- An infinite number has no integer part. -/
  | infiniteNumber
  /-- What is not a number has no integer part. -/
  | undefinedNumber
  /-- A replacement for a placeholder was no text. -/
  | notJoinable (position : Nat) (kind : Json.Kind)
  /-- The kind of value cannot be an element of a set or a key. -/
  | notElement (kind : Json.Kind)
  /-- Values of these kinds have no order. -/
  | unordered (left right : Json.Kind)
  /-- The value names no member of the enumeration. -/
  | notMemberOf (value : Json) (enumeration : String)
  /-- An element that was to be a pair has another length. -/
  | pairLength (position length : Nat)
  /-- An element that was to be a pair has no elements. -/
  | notPair (position : Nat)
  /-- There is no option of that name. -/
  | unknownOption (name : RawText)
  deriving DecidableEq, Repr

/-- The classes of refusals. -/
inductive ErrorClass where
  | member | kind | value | range
  deriving DecidableEq, Repr

namespace ShapeError

/-- The class of a refusal. -/
def errorClass : ShapeError → ErrorClass
  | .noMember .. => .member
  | .badInteger _ | .longInteger _ | .undefinedNumber | .notMemberOf .. | .pairLength .. => .value
  | .infiniteNumber => .range
  | _ => .kind

/-- The wording of a refusal. -/
def message : ShapeError → String
  | .noMember kind member => "'" ++ kind.name ++ "' object has no attribute '" ++ member ++ "'"
  | .notSearchable kind => "argument of type '" ++ kind.name ++ "' is not iterable"
  | .noElements kind => "'" ++ kind.name ++ "' object is not iterable"
  | .notText kind => "expected string or bytes-like object, got '" ++ kind.name ++ "'"
  | .notNumber kind =>
    "int() argument must be a string, a bytes-like object or a real number, not '" ++
      kind.name ++ "'"
  | .badInteger text =>
    "invalid literal for int() with base 10: " ++ String.ofList (text.quoted.toList.take 200)
  | .longInteger digits => Json.longIntegerMessage digits
  | .infiniteNumber => "cannot convert float infinity to integer"
  | .undefinedNumber => "cannot convert float NaN to integer"
  | .notJoinable position kind =>
    "sequence item " ++ toString position ++ ": expected str instance, " ++ kind.name ++ " found"
  | .notElement kind => "unhashable type: '" ++ kind.name ++ "'"
  | .unordered left right =>
    "'<' not supported between instances of '" ++ left.name ++ "' and '" ++ right.name ++ "'"
  | .notMemberOf value enumeration => value.shown ++ " is not a valid " ++ enumeration
  | .pairLength position length =>
    "dictionary update sequence element #" ++ toString position ++ " has length " ++
      toString length ++ "; 2 is required"
  | .notPair position =>
    "cannot convert dictionary update sequence element #" ++ toString position ++
      " to a sequence"
  | .unknownOption name =>
    "GeneratorOptions.__init__() got an unexpected keyword argument '" ++ name.legible ++ "'"

end ShapeError

namespace Json

/-- The entries of an object, wanted for one of its members. -/
def entriesFor (member : String) : Json → Except ShapeError (Entries Json)
  | .object es => .ok es
  | v => .error (.noMember v.kind member)

/-- The text of a text in characters, wanted for one of its members. -/
def textFor (member : String) : Json → Except ShapeError String
  | .str s => .ok s.legible
  | v => .error (.noMember v.kind member)

/-- The text that is matched against a pattern. -/
def matched : Json → Except ShapeError RawText
  | .str s => .ok s
  | v => .error (.notText v.kind)

/-- The text that is matched against a pattern, in characters. -/
def matchedText (v : Json) : Except ShapeError String :=
  v.matched.map RawText.legible

/-- The elements of a value: the items of a list, the keys of an object, the points of a text. -/
def elements : Json → Except ShapeError (List Json)
  | .list xs => .ok xs
  | .object es => .ok (es.map fun e => .str e.1)
  | .str s => .ok (s.points.map fun p => .str (.ofPoints [p]))
  | v => .error (.noElements v.kind)

/-- Whether a text is found in a value: as an item, as a key, or as a part of a text. -/
def mentions (word : String) : Json → Except ShapeError Bool
  | .list xs => .ok (xs.any fun x => x == .str word)
  | .object es => .ok (Entries.has es word)
  | .str s => .ok (Text.isSubtext word s.legible)
  | v => .error (.notSearchable v.kind)

/-- Refuses what cannot be an element of a set. -/
def checkElement (v : Json) : Except ShapeError Unit :=
  match v with
  | .list _ | .object _ => .error (.notElement v.kind)
  | _ => .ok ()

/-! ## Numbers -/

/-- The digits of an integer text: digits of any script, single underscores between them. -/
def integerDigits : List Char → Option (List Nat)
  | [] => none
  | [c] => (Unicode.digitValue? c).map ([·])
  | c :: '_' :: cs => do return (← Unicode.digitValue? c) :: (← integerDigits cs)
  | c :: cs => do return (← Unicode.digitValue? c) :: (← integerDigits cs)

/-- White space around numbers. The four separators among the control characters do not count. -/
def isNumberBlank (c : Char) : Bool :=
  Unicode.isBlank c && (c.toNat < 0x1c || 0x1f < c.toNat)

/-- A sign, which may be missing, and what stands behind it. -/
def splitSign : List Char → Bool × List Char
  | '-' :: rest => (true, rest)
  | '+' :: rest => (false, rest)
  | rest => (false, rest)

/-- The integer a text writes: blanks around it, a sign and digits. The digits are counted before
anything is seen that stands behind them. -/
def integerOfText (s : RawText) : Except ShapeError Int :=
  let (negative, unsigned) := splitSign (Text.strip isNumberBlank s.legible.toList)
  let written := unsigned.takeWhile fun c => c == '_' || (Unicode.digitValue? c).isSome
  match integerDigits written with
  | none => .error (.badInteger s)
  | some ds =>
    if digitLimit < ds.length then .error (.longInteger ds.length)
    else if written.length < unsigned.length then .error (.badInteger s)
    else
      let size : Int := (ds.foldl (fun n d => 10 * n + d) 0 : Nat)
      .ok (if negative then -size else size)

/-- The integer a value stands for: a number loses its fraction, and a text must write an
integer. -/
def integer : Json → Except ShapeError Int
  | .int n => .ok n
  | .bool b => .ok (if b then 1 else 0)
  | .float (.infinite _) => .error .infiniteNumber
  | .float x =>
    match x.truncate? with
    | some n => .ok n
    | none => .error .undefinedNumber
  | .str s => integerOfText s
  | v => .error (.notNumber v.kind)

/-! ## Sets of scalars -/

/-- The integer value of what counts as one: truth values do, as one and zero. -/
def countValue? : Json → Option Int
  | .int n => some n
  | .bool b => some (if b then 1 else 0)
  | _ => none

/-- Whether two scalars are the same element of a set: numbers are compared by value. -/
def sameElement (a b : Json) : Bool :=
  match a, b with
  | .float x, .float y => x.equals y
  | .float x, b => match countValue? b with
    | some n => x.equalsInt n
    | none => false
  | a, .float y => match countValue? a with
    | some n => y.equalsInt n
    | none => false
  | a, b => match countValue? a, countValue? b with
    | some m, some n => m == n
    | none, none => a == b
    | _, _ => false

/-- The set of some elements, each at its first place. -/
def setOf (items : List Json) : Except ShapeError (List Json) :=
  items.foldlM (fun acc v => do
    v.checkElement
    return if acc.any (sameElement v) then acc else acc ++ [v]) []

/-- Whether two elements have a common order: texts among themselves, numbers among
themselves. -/
def comparable (a b : Json) : Bool :=
  let isNumber (v : Json) : Bool := match v with
    | .int _ | .bool _ | .float _ => true
    | _ => false
  match a, b with
  | .str _, .str _ => true
  | a, b => isNumber a && isNumber b

/-- Whether one element comes before another: texts by code point, numbers by value. -/
def before (a b : Json) : Bool :=
  match a, b with
  | .str s, .str t => s < t
  | .float x, .float y => x.lt y
  | .float x, b => match countValue? b with
    | some n => x.ltInt n
    | none => false
  | a, .float y => match countValue? a with
    | some m => Number.Double.intLt m y
    | none => false
  | a, b => match countValue? a, countValue? b with
    | some m, some n => m < n
    | _, _ => false

/-- Inserts an element before the first that comes after it. -/
def insertSorted (v : Json) : List Json → List Json
  | [] => [v]
  | x :: xs => if before v x then v :: x :: xs else x :: insertSorted v xs

/-- The elements in order. -/
def sorted (items : List Json) : List Json :=
  items.foldr insertSorted []

/-- Refuses elements that have no common order. -/
def checkOrder : List Json → Except ShapeError Unit
  | [] => .ok ()
  | v :: vs =>
    match vs.find? fun w => !comparable v w with
    | some w => .error (.unordered v.kind w.kind)
    | none => checkOrder vs

end Json

end DtoForge
