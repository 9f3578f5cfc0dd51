import DtoForge.Text.Pieces

/-! # Addresses — hosts written as numbers

A host in brackets is an address of the sixth version, or a future one that names its version. Four
decimal numbers with points between them are an address of the fourth version. -/

namespace DtoForge.Url

/-! ## Version four -/

/-- Whether a text is a decimal number up to 255 without leading zeros. -/
def isByte (cs : List Char) : Bool :=
  !cs.isEmpty && cs.all Char.isDigit && cs.length ≤ 3 &&
    (cs == ['0'] || cs.head? != some '0') &&
    cs.foldl (fun n c => 10 * n + (c.toNat - '0'.toNat)) 0 ≤ 255

/-- Whether a text is an address of version four. -/
def isVersionFour (cs : List Char) : Bool :=
  let parts := Text.splitPieces '.' cs
  parts.length == 4 && parts.all isByte

/-! ## Version six -/

/-- Digits of hexadecimal numbers. -/
def isHexDigit (c : Char) : Bool :=
  c.isDigit || ('a' ≤ c && c ≤ 'f') || ('A' ≤ c && c ≤ 'F')

/-- Whether a text is a group of one to four hexadecimal digits. -/
def isGroup (cs : List Char) : Bool :=
  !cs.isEmpty && cs.all isHexDigit && cs.length ≤ 4

/-- The groups of an address, with two groups for an address of version four at its end. -/
def groupsOf (cs : List Char) : Option (List (List Char)) :=
  let parts := Text.splitPieces ':' cs
  let tail := parts.getLastD []
  if parts.length < 3 then none
  else if tail.contains '.' then
    if isVersionFour tail then some (parts.dropLast ++ [['0'], ['0']]) else none
  else some parts

/-- Whether the groups on one side of a gap are well formed. A side without groups is one empty
piece. -/
def isSide (groups : List (List Char)) : Bool :=
  groups == [[]] || groups.all isGroup

/-- Whether pieces between colons are an address: eight groups, or fewer with one gap. A gap is an
empty piece that is neither first nor last. -/
def isGrouped (parts : List (List Char)) : Bool :=
  let inner := parts.tail.dropLast
  match inner.findIdx? List.isEmpty with
  | none => parts.length == 8 && parts.all isGroup
  | some i =>
    let left := parts.take (i + 1)
    let right := parts.drop (i + 2)
    let count (side : List (List Char)) : Nat := if side == [[]] then 0 else side.length
    isSide left && isSide right && count left + count right < 8

/-- Whether a text is an address of version six, possibly with the name of a zone. -/
def isVersionSix (cs : List Char) : Bool :=
  match Text.splitPieces '%' cs with
  | [address] => (groupsOf address).any isGrouped
  | [address, zone] => !zone.isEmpty && (groupsOf address).any isGrouped
  | _ => false

/-- Whether a text is a future address: a version in hexadecimal, a point and something more. -/
def isFuture (cs : List Char) : Bool :=
  match cs with
  | 'v' :: rest =>
    let version := rest.takeWhile isHexDigit
    match rest.drop version.length with
    | '.' :: _ :: _ => !version.isEmpty
    | _ => false
  | _ => false

end DtoForge.Url
