/-! # Literals — texts between quotes in generated code

A literal escapes the backslash, the quote it stands in, and the characters that its language
treats in a special way, each by a backslash in front. Everything else stands as it is. -/

namespace DtoForge.Text

/-- The body of a literal: every marked character gets a backslash in front. -/
def escapeMarked (marked : List Char) (cs : List Char) : List Char :=
  cs.flatMap fun c => if marked.contains c then ['\\', c] else [c]

/-- A text as a literal in the given quotes, with further characters to escape. -/
def literal (quote : Char) (special : List Char) (s : String) : String :=
  String.ofList (quote :: escapeMarked ('\\' :: quote :: special) s.toList ++ [quote])

/-- A literal in double quotes. -/
def doubleQuoted (s : String) : String :=
  literal '"' [] s

/-- A literal in single quotes. -/
def singleQuoted (s : String) : String :=
  literal '\'' [] s

end DtoForge.Text
