import DtoForge.Json.Shape

/-! # Placeholders — variables in addresses and headers

A placeholder is a variable name between double braces. A variable that names an identifier becomes
a path parameter; any other takes its value from the environment or, when the environment gives
none, a stand-in chosen by its name. -/

namespace DtoForge.Postman

/-! ## Pieces -/

/-- A piece of a text with placeholders. -/
inductive Piece where
  | text (cs : List Char)
  | variable (name : List Char)
  deriving DecidableEq, Repr

/-- The variable of the placeholder a text starts with: at least one character, none of them a
closing brace, between double braces. -/
def placeholder? : List Char → Option (List Char)
  | '\x7b' :: '\x7b' :: cs =>
    let name := cs.takeWhile (· != '\x7d')
    match name, cs.drop name.length with
    | _ :: _, '\x7d' :: '\x7d' :: _ => some name
    | _, _ => none
  | _ => none

/-- Adds a character in front of pieces. -/
def addChar (c : Char) : List Piece → List Piece
  | .text cs :: ps => .text (c :: cs) :: ps
  | ps => .text [c] :: ps

/-- The pieces of a text from the left. `skip` characters belong to the placeholder before. -/
def piecesFrom (skip : Nat) : List Char → List Piece
  | [] => []
  | c :: cs =>
    match skip with
    | skip + 1 => piecesFrom skip cs
    | 0 =>
      match placeholder? (c :: cs) with
      | some name => .variable name :: piecesFrom (name.length + 3) cs
      | none => addChar c (piecesFrom 0 cs)

/-- The pieces of a text. -/
def pieces (s : String) : List Piece :=
  piecesFrom 0 s.toList

/-! ## Values -/

/-- Stand-ins by a part of the variable's name. -/
def standIns : List (String × String) :=
  [("apikey", "demo-api-key"), ("accesstoken", "demo-access-token"),
    ("authtoken", "demo-auth-token"), ("bearertoken", "demo-bearer-token"), ("env", "demo"),
    ("environment", "demo"), ("stage", "demo"), ("version", "v1"), ("apiversion", "v1"),
    ("baseurl", ""), ("apiurl", ""), ("host", ""), ("appctx", ""), ("appport", "8080")]

/-- The stand-in for a variable: that of the first part its name holds in any case. -/
def standIn (name : String) : String :=
  match standIns.find? fun s => Text.isSubtext s.1 name.lowered with
  | some (_, value) => value
  | none => "demo-value"

/-- Whether a variable names an identifier. -/
def isIdentifier (name : String) : Bool :=
  Text.isSubtext "id" name || Text.isSubtext "Id" name

/-- The value of a variable. The environment may give anything, and what does not count as given
is passed over. -/
def valueOf (environment : Json) (name : String) : Except ShapeError Json :=
  if isIdentifier name then .ok (.str (":" ++ name.lowered))
  else do
    let es ← match environment.given? with
      | some v => v.entriesFor "get"
      | none => pure []
    return ((Json.valueOf es name).given?).getD (.str (standIn name))

/-- The value of a piece. -/
def Piece.value (environment : Json) : Piece → Except ShapeError Json
  | .text cs => .ok (.str (String.ofList cs))
  | .variable name => Postman.valueOf environment (String.ofList name)

/-- Joins values that are texts; the first that is none is refused with its position. -/
def joinTexts (position : Nat) : List Json → Except ShapeError String
  | [] => .ok ""
  | .str s :: vs => (joinTexts (position + 1) vs).map (s.legible ++ ·)
  | v :: _ => .error (.notJoinable position v.kind)

/-- A text with every placeholder replaced. -/
def replaceVariables (environment : Json) (value : Json) : Except ShapeError String := do
  let values ← (pieces (← value.matchedText)).mapM (Piece.value environment)
  joinTexts 0 values

end DtoForge.Postman
