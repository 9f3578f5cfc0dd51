/-! # Log — what the library reports beside its answers

A record has a level, the name of the logger it was written to and a text. Loggers form a tree
below one package logger, whose name starts every other name. -/

namespace DtoForge

/-- The levels of the records that are kept. -/
inductive LogLevel where
  | warning | error
  deriving DecidableEq, Repr

/-- The word for a level. -/
def LogLevel.word : LogLevel → String
  | .warning => "WARNING"
  | .error => "ERROR"

/-- The number of a level; higher is graver. -/
def LogLevel.rank : LogLevel → Nat
  | .warning => 30
  | .error => 40

/-- One record. -/
structure LogRecord where
  level : LogLevel
  logger : String
  text : String
  deriving DecidableEq, Repr

namespace Logger

/-- The name of the package logger. -/
def package : String := "mockapi"

/-- The full name of a logger: every name lies below the package logger. -/
def fullName (name : String) : String :=
  if name == package || (package ++ ".").toList.isPrefixOf name.toList then name
  else package ++ "." ++ name

/-- The logger of the extraction. -/
def extraction : String := fullName "codegen.core.extractor"

/-- The logger of the generators. -/
def generation : String := fullName "codegen.core.generator"

/-- The logger of the packaging. -/
def packaging : String := fullName "codegen.packager"

/-- The logger of one language. -/
def language (package part : String) : String :=
  fullName ("codegen.languages." ++ package ++ "." ++ part)

end Logger

end DtoForge
