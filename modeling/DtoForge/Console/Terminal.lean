import DtoForge.Console.Run

/-! # Terminal — printed items as lines

A plain terminal shows no styles: style marks are dropped, the columns of a table are as wide as
their widest cells, and a panel is its text below its title. -/

namespace DtoForge.Console

/-! ## Style marks -/

/-- The words that stand in style marks. -/
def styleWords : List String :=
  ["bold", "cyan", "dim", "green", "red", "yellow"]

/-- The marks that begin and end a style. -/
def styleMarks : List (List Char) :=
  styleWords.flatMap fun w => [("[" ++ w ++ "]").toList, ("[/" ++ w ++ "]").toList]

/-- The number of characters of the mark at the start of a text; zero if there is none. -/
def markLength (cs : List Char) : Nat :=
  ((styleMarks.find? fun m => m.isPrefixOf cs).map (·.length)).getD 0

/-- Characters without style marks. -/
def unstyledChars : List Char → List Char
  | [] => []
  | c :: cs =>
    match markLength (c :: cs) with
    | 0 => c :: unstyledChars cs
    | n + 1 => unstyledChars (cs.drop n)
  termination_by cs => cs.length
  decreasing_by all_goals simp only [List.length_drop, List.length_cons]; omega

/-- A text without style marks. -/
def unstyled (s : String) : String :=
  String.ofList (unstyledChars s.toList)

/-! ## Items -/

/-- The greater of the numbers at each place; the longer list goes on alone. -/
def widest : List Nat → List Nat → List Nat
  | [], bs => bs
  | as, [] => as
  | a :: as, b :: bs => max a b :: widest as bs

/-- A cell filled up with blanks. -/
def filled (width : Nat) (cell : String) : String :=
  cell ++ String.ofList (List.replicate (width - cell.length) ' ')

/-- The lines of rows, with equal columns. -/
def aligned (rows : List (List String)) : List String :=
  let widths := rows.foldl (fun ws row => widest ws (row.map String.length)) []
  rows.map fun row => String.intercalate "  " (List.zipWith filled widths row)

/-- The lines of an item. -/
def Item.lines : Item → List String
  | .text line => [unstyled line]
  | .table title columns rows => unstyled title :: aligned ((columns :: rows).map (·.map unstyled))
  | .panel content title => (title.toList ++ [content]).map unstyled
  | .code source _ => [source]

/-! ## Information -/

/-- The name of the program. -/
def programName : String := "mockapi-dtogen"

/-- The line that tells the version. -/
def versionLine : String := programName ++ " 0.1.0"

/-- The arguments of an option as the usage shows them. -/
def OptionRule.operandText {κ : Type} (o : OptionRule κ) : String :=
  let value := if o.choices.isEmpty then "VALUE" else String.intercalate "|" o.choices
  match o.arity with
  | .flag => ""
  | .one => " " ++ value
  | .several => " " ++ value ++ " ..."

/-- The line of an option in the usage. -/
def OptionRule.usage {κ : Type} (o : OptionRule κ) : String :=
  "  " ++ String.intercalate ", " o.names ++ o.operandText ++ (if o.required then " (required)" else "")

/-- The lines of a grammar in the usage. -/
def Grammar.usage {κ : Type} (g : Grammar κ) (call : String) : List String :=
  let operand := match g.operand with
    | .nothing => ""
    | .optional _ => " [FILE]"
    | .command _ _ => " COMMAND ..."
  (call ++ operand) :: g.options.map OptionRule.usage

/-- How the program is called. -/
def usageLines : List String :=
  mainGrammar.usage ("usage: " ++ programName) ++
    commandGrammars.flatMap fun (name, g) => "" :: g.usage (programName ++ " " ++ name)

/-- What is shown when there is nothing to run. -/
def Stop.lines : Stop Key → List String
  | .information .version => [versionLine]
  | _ => usageLines

/-! ## Runs -/

/-- The lines of a run on the standard output. -/
def Run.outputLines (r : Run) : List String :=
  match r.ending with
  | .stopped (.information key) => (Stop.information key).lines
  | _ => r.session.printed.flatMap Item.lines

/-- The lines of a run on the error output: its records, and why it failed or could not start. -/
def Run.errorLines (r : Run) : List String :=
  let records := r.session.records.map fun record => record.level.word ++ " " ++ record.text
  match r.ending with
  | .stopped .misuse => Stop.misuse.lines
  | .failed cause => records ++ [cause.message]
  | _ => records

end DtoForge.Console
