import DtoForge.Json.Display
import DtoForge.Log
import DtoForge.Unicode.Case

/-! # Setup — which records are shown and in what form

The package logger has one handler and one level. A level is a number or the name of one, in any
case; records below the level are dropped. -/

namespace DtoForge

/-- The numbers of the named levels. -/
def levelNumbers : List (String × Int) :=
  [("CRITICAL", 50), ("FATAL", 50), ("ERROR", 40), ("WARN", 30), ("WARNING", 30), ("INFO", 20),
    ("DEBUG", 10), ("NOTSET", 0)]

/-- Why a value is no level. -/
inductive LevelError where
  | unknown (name : String)
  | noLevel (value : Json)
  deriving DecidableEq, Repr

/-- The wording of a refusal. -/
def LevelError.message : LevelError → String
  | .unknown name => "Unknown level: " ++ Text.quoted name
  | .noLevel value => "Level not an integer or a valid string: " ++ value.shown

/-- The level a value stands for; null stands for that of warnings. -/
def levelOf (v : Json) : Except LevelError Json :=
  match v with
  | .null => .ok (.int LogLevel.warning.rank)
  | .int _ | .bool _ => .ok v
  | .str name =>
    match Entries.get? levelNumbers name.legible.uppered with
    | some n => .ok (.int n)
    | none => .error (.unknown name.legible.uppered)
  | v => .error (.noLevel v)

/-- The set-up of the package logger. -/
structure LogSetup where
  level : Json
  styled : Bool

namespace LogSetup

/-- The set-up for a level; styled output is for terminals. -/
def of (level : Json := .null) (styled : Bool := true) : Except LevelError LogSetup :=
  (levelOf level).map fun level => { level, styled }

/-- The name under which the handler is listed. -/
def handlerName (s : LogSetup) : String :=
  if s.styled then "RichHandler" else "StreamHandler"

/-- The form of a line. -/
def lineFormat (s : LogSetup) : String :=
  if s.styled then "%(message)s" else "%(asctime)s %(levelname)s [%(name)s] %(message)s"

/-- The number below which records are dropped. Level zero leaves the choice to the surroundings,
which show warnings. -/
def threshold (s : LogSetup) : Int :=
  match s.level with
  | .int n => if n = 0 then LogLevel.warning.rank else n
  | .bool true => 1
  | _ => LogLevel.warning.rank

/-- Whether a record is shown. -/
def shows (s : LogSetup) (r : LogRecord) : Bool :=
  s.threshold ≤ r.level.rank

end LogSetup

end DtoForge
