import DtoForge.Url.Address
import DtoForge.Text.Quoted

/-! # URLs — scheme, host and path

A URL is cut at its delimiters, and its parts are kept as they are written. Only the host is
checked: brackets must hold an address, and no character of it may stand for a delimiter. -/

namespace DtoForge

/-- The parts of a URL that are used; one that is missing is empty. -/
structure Url where
  scheme : String
  host : String
  path : String
  deriving DecidableEq, Repr

/-- Why a text is no URL. -/
inductive UrlError where
  /-- Only one of the two brackets is there. -/
  | brackets
  /-- A future address is not well formed. -/
  | future
  /-- An address of version four stands in brackets. -/
  | versionFour
  /-- What stands in brackets is no address. -/
  | noAddress (host : String)
  /-- A character of the host stands for a delimiter. -/
  | delimiter (host : String)
  deriving DecidableEq, Repr

/-- The wording of a refusal. -/
def UrlError.message : UrlError → String
  | .brackets => "Invalid IPv6 URL"
  | .future => "IPvFuture address is invalid"
  | .versionFour => "An IPv4 address cannot be in brackets"
  | .noAddress host => Text.quoted host ++ " does not appear to be an IPv4 or IPv6 address"
  | .delimiter host =>
    "netloc '" ++ host ++ "' contains invalid characters under NFKC normalization"

namespace Url

/-! ## Parts -/

/-- Characters of schemes. -/
def isSchemeChar (c : Char) : Bool :=
  c.isAlphanum || c == '+' || c == '-' || c == '.'

/-- The scheme of a URL in lower case, and what follows it. -/
def splitScheme (cs : List Char) : List Char × List Char :=
  let scheme := cs.takeWhile (· != ':')
  match scheme, cs.drop scheme.length with
  | c :: _, _ :: rest =>
    if c.isAlpha && scheme.all isSchemeChar then (scheme.map Char.toLower, rest) else ([], cs)
  | _, _ => ([], cs)

/-- Characters that end a host. -/
def endsHost (c : Char) : Bool :=
  c == '/' || c == '?' || c == '#'

/-- The host of a URL without scheme, and what follows it. -/
def splitHost (cs : List Char) : List Char × List Char :=
  match cs with
  | '/' :: '/' :: rest => (rest.takeWhile (!endsHost ·), rest.dropWhile (!endsHost ·))
  | _ => ([], cs)

/-- Schemes whose last segment may carry parameters after a semicolon. -/
def schemesWithParameters : List String :=
  ["", "ftp", "hdl", "prospero", "http", "imap", "https", "shttp", "rtsp", "rtsps", "rtspu", "sip",
    "sips", "mms", "sftp", "tel"]

/-- A path without the parameters of its last segment. -/
def dropParameters (cs : List Char) : List Char :=
  let segments := Text.splitPieces '/' cs
  Text.joinPieces '/' (segments.dropLast ++ [(segments.getLastD []).takeWhile (· != ';')])

/-! ## Hosts -/

/-- Checks what stands in brackets. -/
def checkBracketed (host : List Char) : Except UrlError Unit :=
  if host.head? == some 'v' then if isFuture host then .ok () else .error .future
  else if isVersionFour host then .error .versionFour
  else if isVersionSix host then .ok ()
  else .error (.noAddress (String.ofList host))

/-- Checks the brackets of a host. -/
def checkBrackets (host : List Char) : Except UrlError Unit :=
  match host.contains '[', host.contains ']' with
  | false, false => .ok ()
  | true, true =>
    checkBracketed (((host.dropWhile (· != '[')).drop 1).takeWhile (· != ']'))
  | _, _ => .error .brackets

/-- Characters that compatibility decomposition turns into a delimiter. -/
def standsForDelimiter (c : Char) : Bool :=
  [0x2047, 0x2048, 0x2049, 0x2100, 0x2101, 0x2105, 0x2106, 0x2a74, 0xfe13, 0xfe16, 0xfe55, 0xfe56,
    0xfe5f, 0xfe6b, 0xff03, 0xff0f, 0xff1a, 0xff1f, 0xff20].contains c.toNat

/-- Reads a URL. Control characters and blanks in front are dropped, and so are tabs and line ends
everywhere. -/
def ofText (s : String) : Except UrlError Url := do
  let cs := (s.toList.dropWhile fun c => c.toNat ≤ 0x20).filter fun c =>
    c != '\t' && c != '\r' && c != '\n'
  let (scheme, cs) := splitScheme cs
  let (host, cs) := splitHost cs
  checkBrackets host
  if host.any standsForDelimiter then throw (.delimiter (String.ofList host))
  let path := cs.takeWhile fun c => c != '#' && c != '?'
  let path := if schemesWithParameters.contains (String.ofList scheme) then dropParameters path else path
  return { scheme := String.ofList scheme, host := String.ofList host, path := String.ofList path }

end Url

end DtoForge
