import DtoForge.Naming.Casing

/-! # Sanitizer — identifiers that a language accepts

A name becomes an identifier by cleaning, casing and giving way: to the words of the language, and
to identifiers given out before. What was given out is a value of its own (`NameTable`), so equal
names get equal identifiers and different names different ones. -/

namespace DtoForge.Naming

/-- The words of a language that no name may take. -/
structure Vocabulary where
  /-- Words of the grammar. -/
  reserved : List String := []
  /-- Names the language gives a meaning of its own. -/
  builtin : List String := []

namespace Vocabulary

/-- Whether a name is taken by the language. -/
def takes (v : Vocabulary) (name : String) : Bool :=
  v.reserved.contains name || v.builtin.contains name

end Vocabulary

/-- Identifiers given out so far. -/
structure NameTable where
  /-- The identifier of each request. -/
  given : Entries String := []
  /-- All identifiers in use. -/
  used : List String := []

/-- Letters and digits of ASCII and the underscore. -/
def isWordChar (c : Char) : Bool :=
  c.isAlphanum || c == '_'

/-- Every character that cannot stand in an identifier becomes an underscore; hyphens stay for the
casing, and neither is kept at the ends. -/
def clean (name : String) : String :=
  let cs := name.toList.map fun c => if isWordChar c || c == '-' then c else '_'
  orElse (String.ofList (Text.strip (fun c => c == '_' || c == '-') cs)) "field"

/-- The text with a mark in front when it starts with a digit. -/
def guardDigit (mark s : String) : String :=
  match s.toList with
  | c :: _ => if c.isDigit then mark ++ s else s
  | [] => s

/-- The `n`-th form of a name that has to give way. -/
def numbered (name : String) (n : Nat) : String :=
  if n = 0 then name else name ++ toString n

/-- The first numbered form of a name that is not in use. One of the first `used.length + 1` forms
is free, since they are all different. -/
def firstFree (used : List String) (name : String) : String :=
  (((List.range (used.length + 1)).map (numbered name)).find? fun c => !used.contains c).getD name

namespace NameTable

/-- The key under which an answer is kept. -/
def requestKey (name : RawText) (casing : Casing) (suffix : String) : RawText :=
  name.append ("\x00" ++ casing.word ++ "\x00" ++ suffix)

/-- The identifier of a name, and the table with it. A request that was answered before gets the
same answer; the suffix sets a name apart from the words of the language. -/
def identify (table : NameTable) (vocabulary : Vocabulary) (name : RawText)
    (casing : Casing := .snake) (suffix : String := "_") : String × NameTable :=
  let key := requestKey name casing suffix
  match table.given.get? key with
  | some answer => (answer, table)
  | none =>
    let word := guardDigit "_" (orElse (casing.apply (clean name.legible)) "field")
    let word := if vocabulary.takes word then word ++ suffix else word
    let answer := firstFree table.used word
    (answer, { given := table.given.put key answer, used := answer :: table.used })

/-- The identifier of a value that should be a name; an answer kept for its text is found first. -/
def identifyJson (table : NameTable) (vocabulary : Vocabulary) (name : Json)
    (casing : Casing := .snake) (suffix : String := "_") :
    Except ShapeError (String × NameTable) :=
  match name with
  | .str name => .ok (table.identify vocabulary name casing suffix)
  | v =>
    match table.given.get? (requestKey v.display casing suffix) with
    | some answer => .ok (answer, table)
    | none => do
      let name ← v.matchedText
      return table.identify vocabulary name casing suffix

end NameTable

/-- A type name made a legal identifier; type names do not give way to one another. -/
def typeIdentifier (vocabulary : Vocabulary) (name : String) : String :=
  let kept := orElse (String.ofList (name.toList.filter isWordChar)) "Root"
  let word := guardDigit "T" kept
  if vocabulary.takes word then word ++ "_" else word

end DtoForge.Naming
