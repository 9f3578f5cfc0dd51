import DtoForge.Number.Double
import DtoForge.Text.Raw

/-! # JSON values — ordered documents with exact numbers

Objects keep the order of their entries, integers have no size limit, and a number written with a
fraction or an exponent is a double. Texts and keys are kept as documents give them, with halves of
surrogate pairs that stand alone. The look-up and update functions treat the entries as a
dictionary: an update keeps the place of a key that is already there. -/

namespace DtoForge

open Number (Double)

/-- A JSON value. -/
inductive Json where
  | null
  | bool (value : Bool)
  | int (value : Int)
  | float (value : Double)
  | str (text : RawText)
  | list (items : List Json)
  | object (entries : List (RawText × Json))
  deriving Repr, Inhabited

/-- The kinds of JSON values. -/
inductive Json.Kind where
  | null | bool | int | float | str | list | object
  deriving DecidableEq, Repr

namespace Json

/-! ## Decidable equality -/

mutual

/-- Decides whether two values are the same document. -/
def decEq : (a b : Json) → Decidable (a = b)
  | .null, .null => isTrue rfl
  | .bool a, .bool b => decidable_of_iff (a = b) (by simp)
  | .int a, .int b => decidable_of_iff (a = b) (by simp)
  | .float a, .float b => decidable_of_iff (a = b) (by simp)
  | .str a, .str b => decidable_of_iff (a = b) (by simp)
  | .list a, .list b =>
    match decEqItems a b with
    | isTrue h => isTrue (by rw [h])
    | isFalse h => isFalse (by simpa using h)
  | .object a, .object b =>
    match decEqEntries a b with
    | isTrue h => isTrue (by rw [h])
    | isFalse h => isFalse (by simpa using h)
  | .null, .bool _ | .null, .int _ | .null, .float _ | .null, .str _ | .null, .list _
  | .null, .object _ | .bool _, .null | .bool _, .int _ | .bool _, .float _ | .bool _, .str _
  | .bool _, .list _ | .bool _, .object _ | .int _, .null | .int _, .bool _ | .int _, .float _
  | .int _, .str _ | .int _, .list _ | .int _, .object _ | .float _, .null | .float _, .bool _
  | .float _, .int _ | .float _, .str _ | .float _, .list _ | .float _, .object _
  | .str _, .null | .str _, .bool _ | .str _, .int _ | .str _, .float _ | .str _, .list _
  | .str _, .object _ | .list _, .null | .list _, .bool _ | .list _, .int _ | .list _, .float _
  | .list _, .str _ | .list _, .object _ | .object _, .null | .object _, .bool _ | .object _, .int _
  | .object _, .float _ | .object _, .str _ | .object _, .list _ => isFalse (by simp)

/-- Decides equality of item lists. -/
def decEqItems : (a b : List Json) → Decidable (a = b)
  | [], [] => isTrue rfl
  | [], _ :: _ | _ :: _, [] => isFalse (by simp)
  | a :: as, b :: bs =>
    match decEq a b, decEqItems as bs with
    | isTrue h, isTrue hs => isTrue (by rw [h, hs])
    | isFalse h, _ => isFalse (by simp [h])
    | _, isFalse h => isFalse (by simp [h])

/-- Decides equality of entry lists. -/
def decEqEntries : (a b : List (RawText × Json)) → Decidable (a = b)
  | [], [] => isTrue rfl
  | [], _ :: _ | _ :: _, [] => isFalse (by simp)
  | (k, a) :: as, (l, b) :: bs =>
    if hk : k = l then
      match decEq a b, decEqEntries as bs with
      | isTrue h, isTrue hs => isTrue (by rw [hk, h, hs])
      | isFalse h, _ => isFalse (by simp [h])
      | _, isFalse h => isFalse (by simp [h])
    else isFalse (by simp [hk])

end

instance : DecidableEq Json := decEq

/-! ## Integers -/

/-- How many digits an integer may have that a text writes. -/
def digitLimit : Nat := 4300

/-- The wording of a refusal of more digits. -/
def longIntegerMessage (digits : Nat) : String :=
  "Exceeds the limit (" ++ toString digitLimit ++ " digits) for integer string conversion: value has " ++
    toString digits ++ " digits; use sys.set_int_max_str_digits() to increase the limit"

/-! ## Kinds and truth -/

/-- The kind of a value. -/
def kind : Json → Kind
  | .null => .null
  | .bool _ => .bool
  | .int _ => .int
  | .float _ => .float
  | .str _ => .str
  | .list _ => .list
  | .object _ => .object

/-- The name by which messages call a kind. -/
def Kind.name : Kind → String
  | .null => "NoneType"
  | .bool => "bool"
  | .int => "int"
  | .float => "float"
  | .str => "str"
  | .list => "list"
  | .object => "dict"

/-- Whether a value counts as given: zero, null, `false` and whatever is empty do not. -/
def isGiven : Json → Bool
  | .null => false
  | .bool b => b
  | .int n => n != 0
  | .float x => !x.isZero
  | .str s => !s.isEmpty
  | .list xs => !xs.isEmpty
  | .object es => !es.isEmpty

/-- The value itself when it counts as given. -/
def given? (v : Json) : Option Json :=
  if v.isGiven then some v else none

/-- The text of a text value. -/
def text? : Json → Option RawText
  | .str s => some s
  | _ => none

/-- The items of a list value. -/
def list? : Json → Option (List Json)
  | .list xs => some xs
  | _ => none

/-- The entries of an object value. -/
def object? : Json → Option (List (RawText × Json))
  | .object es => some es
  | _ => none

end Json

/-! ## Dictionaries -/

/-- Entries in order; a key is meant to occur once. The keys of documents are texts as they
stand. -/
abbrev Entries (α : Type) (κ : Type := RawText) := List (κ × α)

namespace Entries

variable {α κ : Type} [DecidableEq κ]

/-- The value of a key. -/
def get? (es : Entries α κ) (key : κ) : Option α :=
  (es.find? fun e => e.1 == key).map (·.2)

/-- Whether a key is there. -/
def has (es : Entries α κ) (key : κ) : Bool :=
  es.any fun e => e.1 == key

/-- The keys in order. -/
def keys (es : Entries α κ) : List κ :=
  es.map (·.1)

/-- Sets a key: in its place if it is there, at the end if not. -/
def put : Entries α κ → κ → α → Entries α κ
  | [], key, value => [(key, value)]
  | (k, v) :: es, key, value => if k == key then (k, value) :: es else (k, v) :: put es key value

/-- Removes a key. -/
def erase (es : Entries α κ) (key : κ) : Entries α κ :=
  es.filter fun e => e.1 != key

/-- Sets the keys of the second dictionary in the first, in order. -/
def update (es fs : Entries α κ) : Entries α κ :=
  fs.foldl (fun acc e => put acc e.1 e.2) es

/-- The dictionary built from pairs: a repeated key keeps its first place and its last value. -/
def ofPairs (pairs : List (κ × α)) : Entries α κ :=
  update [] pairs

end Entries

/-- The value of a key of an object, null when the key is missing. -/
def Json.valueOf (es : Entries Json) (key : RawText) : Json :=
  (es.get? key).getD .null

end DtoForge
