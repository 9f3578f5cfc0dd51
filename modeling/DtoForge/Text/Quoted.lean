import DtoForge.Unicode.Printable

/-! # Quoted texts — the form in which messages show a text

A text is put between single quotes, or between double quotes when it holds a single quote and no
double quote. Backslashes and the quote in use get a backslash; what is not printable is written
as an escape of its code point. -/

namespace DtoForge.Text

/-- The digits of a number in lower-case hexadecimal, with zeros in front up to a width. -/
def hexDigits (width n : Nat) : List Char :=
  let digits := Nat.toDigits 16 n
  List.replicate (width - digits.length) '0' ++ digits

/-- One character of a quoted text. -/
def quoteChar (quote : Char) (c : Char) : List Char :=
  if c = quote || c = '\\' then ['\\', c]
  else if c = '\n' then ['\\', 'n']
  else if c = '\r' then ['\\', 'r']
  else if c = '\t' then ['\\', 't']
  else if Unicode.isPrintable c then [c]
  else if c.toNat ≤ 0xff then '\\' :: 'x' :: hexDigits 2 c.toNat
  else if c.toNat ≤ 0xffff then '\\' :: 'u' :: hexDigits 4 c.toNat
  else '\\' :: 'U' :: hexDigits 8 c.toNat

/-- The quote a text is shown in. -/
def chosenQuote (cs : List Char) : Char :=
  if cs.contains '\'' && !cs.contains '"' then '"' else '\''

/-- A text as messages show it. -/
def quoted (s : String) : String :=
  let cs := s.toList
  let quote := chosenQuote cs
  String.ofList (quote :: cs.flatMap (quoteChar quote) ++ [quote])

end DtoForge.Text
