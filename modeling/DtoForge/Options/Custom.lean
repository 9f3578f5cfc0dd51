import DtoForge.Json.Shape

/-! # Custom settings — a dictionary with keys of any kind

The custom settings of options come from an object, whose keys are texts, or from a list of pairs.
The first value of a pair is the key as it stands: a number, a truth value and null are keys of
their own. Numbers are compared by value, and a key that is set again keeps its first form. -/

namespace DtoForge

/-- Custom settings in order; a key is meant to occur once. -/
abbrev CustomSettings := List (Json × Json)

namespace CustomSettings

/-- Whether two values are the same key. -/
def sameKey (a b : Json) : Bool :=
  a == b || a.sameElement b

/-- The value of a key. -/
def get? (settings : CustomSettings) (key : Json) : Option Json :=
  (settings.find? fun e => sameKey e.1 key).map (·.2)

/-- Sets a key: in its place if it is there, at the end if not. -/
def put : CustomSettings → Json → Json → CustomSettings
  | [], key, value => [(key, value)]
  | (k, v) :: settings, key, value =>
    if sameKey k key then (k, value) :: settings else (k, v) :: put settings key value

/-- The settings of an object. -/
def ofEntries (es : Entries Json) : CustomSettings :=
  es.map fun e => (.str e.1, e.2)

/-- The settings as the entries of a document, where every key is a text. -/
def toEntries (settings : CustomSettings) : Entries Json :=
  settings.map fun e => (e.1.keyText, e.2)

/-- The settings built from pairs: a repeated key keeps its first place and its last value. -/
def ofPairs (pairs : List (Json × Json)) : CustomSettings :=
  pairs.foldl (fun settings e => put settings e.1 e.2) []

end CustomSettings

end DtoForge
