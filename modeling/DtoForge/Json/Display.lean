import DtoForge.Json.Basic
import DtoForge.Text.Quoted

/-! # Display — values inside messages and generated names

A text displays as itself, in characters; every other value, and a text inside a list or an object,
is shown in the notation of messages, where texts are quoted. -/

namespace DtoForge

namespace Number.Double

/-- The text of a double with the given names for what is not finite. -/
def textWith (infinity nan : String) : Double → String
  | .finite negative m e => finiteText negative m e
  | .infinite negative => if negative then "-" ++ infinity else infinity
  | .nan => nan

end Number.Double

namespace Json

mutual

/-- A value in the notation of messages. -/
def shown : Json → String
  | .null => "None"
  | .bool b => if b then "True" else "False"
  | .int n => toString n
  | .float x => x.textWith "inf" "nan"
  | .str s => s.quoted
  | .list items => "[" ++ String.intercalate ", " (shownItems items) ++ "]"
  | .object entries => "\x7b" ++ String.intercalate ", " (shownEntries entries) ++ "\x7d"

/-- The items of a list in the notation of messages. -/
def shownItems : List Json → List String
  | [] => []
  | v :: vs => v.shown :: shownItems vs

/-- The entries of an object in the notation of messages. -/
def shownEntries : List (RawText × Json) → List String
  | [] => []
  | (k, v) :: es => (k.quoted ++ ": " ++ v.shown) :: shownEntries es

end

/-- A value as it appears inside a message: a text as it stands, anything else as shown. -/
def display : Json → String
  | .str s => s.legible
  | v => v.shown

/-- A value as the key of an object: a text as it stands, other scalars as documents write them. -/
def keyText : Json → RawText
  | .str s => s
  | .null => "null"
  | .bool b => if b then "true" else "false"
  | .float x => x.textWith "Infinity" "NaN"
  | v => v.shown

end Json

end DtoForge
