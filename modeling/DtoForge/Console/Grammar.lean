import DtoForge.Text.Pieces
import DtoForge.Unicode.Digit

/-! # Grammar — words of a command line

A grammar lists options and says what may stand beside them. Options may be shortened as long as
only one name fits, take their value from the same word or from the words after it, and short ones
may be written together. After a divider (`--`) every word is an argument. -/

namespace DtoForge.Console

/-! ## Grammars -/

/-- How many arguments an option takes. -/
inductive Arity where
  | flag | one | several
  deriving DecidableEq, Repr

/-- One option with all its names. -/
structure OptionRule (κ : Type) where
  key : κ
  names : List String
  arity : Arity := .one
  /-- The values it accepts; any if there are none. -/
  choices : List String := []
  required : Bool := false

/-- What stands beside the options. -/
inductive Operand (κ : Type) where
  | nothing
  /-- One argument that may be left out. -/
  | optional (key : κ)
  /-- A command, which takes all words after it. -/
  | command (key : κ) (names : List String)

/-- The grammar of a command line. -/
structure Grammar (κ : Type) where
  options : List (OptionRule κ)
  operand : Operand κ := .nothing
  /-- Keys of which exactly one has to be given. -/
  alternatives : List κ := []
  /-- Keys that ask for information and end the reading. -/
  informative : List κ := []

/-- How reading ends when there is nothing to run. -/
inductive Stop (κ : Type) where
  /-- The words do not follow the grammar. -/
  | misuse
  /-- Information was asked for by a key. -/
  | information (key : κ)
  deriving DecidableEq, Repr

variable {κ : Type}

/-- The exit code that goes with an end. -/
def Stop.exitCode : Stop κ → Nat
  | .misuse => 2
  | .information _ => 0

/-- The option of a name. -/
def Grammar.find? (g : Grammar κ) (name : String) : Option (OptionRule κ) :=
  g.options.find? fun o => o.names.contains name

/-- All names of options, with their options. -/
def Grammar.names (g : Grammar κ) : List (String × OptionRule κ) :=
  g.options.flatMap fun o => o.names.map fun name => (name, o)

/-! ## Words -/

/-- The value of an option inside its own word. -/
structure Attached where
  /-- Whether an equals sign stands before it. -/
  byEquals : Bool
  value : List Char

/-- A word that names an option. -/
structure Named (κ : Type) where
  rule : OptionRule κ
  /-- Whether the name is a short one. -/
  isShort : Bool
  attached : Option Attached

/-- What a word of the command line is. -/
inductive Token (κ : Type) where
  | argument (word : String)
  | divider
  | option (named : Named κ)
  /-- A word that looks like an option and is none. -/
  | unknown (word : String)

/-- Whether a token is an argument. -/
def Token.isArgument : Token κ → Bool
  | .argument _ => true
  | _ => false

/-- Whether an option name is a short one. -/
def isShortName (name : String) : Bool :=
  !Text.startsText "--" name

/-- Cuts a word at its first equals sign. -/
def splitEquals (word : String) : String × Option Attached :=
  let cs := word.toList
  let name := cs.takeWhile (· != '=')
  match cs.drop name.length with
  | _ :: value => (String.ofList name, some { byEquals := true, value })
  | [] => (word, none)

/-- The options a word may stand for when it is no full name: by the start of a name, or by a short
name with its value. -/
def Grammar.readings (g : Grammar κ) (word : String) : List (Named κ) :=
  if Text.startsText "--" word then
    let (start, attached) := splitEquals word
    (g.names.filter fun (name, _) => Text.startsText start name).map fun (name, rule) =>
      { rule, isShort := isShortName name, attached }
  else
    let short := String.ofList (word.toList.take 2)
    g.names.filterMap fun (name, rule) =>
      if name == short then
        some { rule, isShort := true, attached := some { byEquals := false, value := word.toList.drop 2 } }
      else if Text.startsText word name then some { rule, isShort := isShortName name, attached := none }
      else none

/-- Whether a word writes a negative number; a line feed at its end does not count. -/
def isNegativeNumber (word : String) : Bool :=
  let isDigit (c : Char) : Bool := (Unicode.digitValue? c).isSome
  match word.toList with
  | '-' :: cs =>
    let cs := if cs.getLast? == some '\n' then cs.dropLast else cs
    let fraction := cs.dropWhile isDigit
    match fraction with
    | [] => !cs.isEmpty
    | '.' :: ds => !ds.isEmpty && ds.all isDigit
    | _ => false
  | _ => false

/-- What a word before any divider is. A word for which several options could stand is misuse. -/
def Grammar.classify (g : Grammar κ) (word : String) : Except (Stop κ) (Token κ) :=
  if word.length ≤ 1 || !Text.startsText "-" word then .ok (.argument word)
  else match g.find? word with
    | some rule => .ok (.option { rule, isShort := isShortName word, attached := none })
    | none =>
      let (name, attached) := splitEquals word
      match attached, g.find? name with
      | some _, some rule => .ok (.option { rule, isShort := isShortName name, attached })
      | _, _ =>
        match g.readings word with
        | [named] => .ok (.option named)
        | _ :: _ :: _ => .error .misuse
        | [] =>
          if isNegativeNumber word || word.toList.contains ' ' then .ok (.argument word)
          else .ok (.unknown word)

/-- A word with what it is. -/
structure Word (κ : Type) where
  text : String
  token : Token κ

/-- What the words of a command line are. -/
def Grammar.words (g : Grammar κ) : List String → Except (Stop κ) (List (Word κ))
  | [] => .ok []
  | text :: texts =>
    if text == "--" then .ok (⟨text, .divider⟩ :: texts.map fun t => ⟨t, .argument t⟩)
    else do
      let token ← g.classify text
      return ⟨text, token⟩ :: (← g.words texts)

/-! ## Reading -/

/-- A key with the arguments it was given. -/
structure Setting (κ : Type) where
  key : κ
  values : List String

/-- What has been read. -/
structure Reading (κ : Type) where
  settings : List (Setting κ) := []
  /-- Words nothing was made of. -/
  extras : List String := []
  /-- Whether the operand has been looked for. -/
  operandRead : Bool := false

/-- The arguments that follow an option. -/
def argumentsAfter (arity : Arity) (following : List (Word κ)) : Except (Stop κ) (List String) :=
  let arguments := (following.takeWhile fun w => w.token.isArgument).map (·.text)
  match arity, arguments with
  | .flag, _ => .ok []
  | _, [] => .error .misuse
  | .one, a :: _ => .ok [a]
  | .several, as => .ok as

/-- What one option word gives: options with their arguments, words nothing is made of, and the
number of words taken from those that follow. -/
structure Taken (κ : Type) where
  given : List (OptionRule κ × List String) := []
  extras : List String := []
  count : Nat := 0

/-- An option followed by its arguments. -/
def takeFollowing (rule : OptionRule κ) (following : List (Word κ)) : Except (Stop κ) (Taken κ) := do
  let arguments ← argumentsAfter rule.arity following
  return { given := [(rule, arguments)], count := arguments.length }

/-- An option with a value in its own word. Behind a short flag the value is read as further short
options. -/
def Grammar.takeAttached (g : Grammar κ) (following : List (Word κ)) (rule : OptionRule κ)
    (isShort byEquals : Bool) (value : List Char) : Except (Stop κ) (Taken κ) :=
  match rule.arity with
  | .one | .several => .ok { given := [(rule, [String.ofList value])] }
  | .flag =>
    match value with
    | [] => .error .misuse
    | c :: rest =>
      if !isShort || byEquals || c == '-' then .error .misuse
      else match g.find? (String.ofList ['-', c]) with
        | none => .ok { given := [(rule, [])], extras := [String.ofList ('-' :: value)] }
        | some next => do
          let taken ← match rest with
            | [] => takeFollowing next following
            | '=' :: rest => g.takeAttached following next true true rest
            | c :: rest => g.takeAttached following next true false (c :: rest)
          return { taken with given := (rule, []) :: taken.given }
  termination_by value.length

/-- What an option word gives. -/
def Grammar.take (g : Grammar κ) (named : Named κ) (following : List (Word κ)) :
    Except (Stop κ) (Taken κ) :=
  match named.attached with
  | none => takeFollowing named.rule following
  | some a => g.takeAttached following named.rule named.isShort a.byEquals a.value

variable [DecidableEq κ]

/-- Whether a key has been given. -/
def Reading.has (r : Reading κ) (key : κ) : Bool :=
  r.settings.any fun s => s.key = key

/-- Sets a key. Only one of the alternatives may be given, and a key that asks for information ends
the reading. -/
def Grammar.set (g : Grammar κ) (r : Reading κ) (key : κ) (values : List String) :
    Except (Stop κ) (Reading κ) :=
  if g.alternatives.contains key && g.alternatives.any fun k => k ≠ key && r.has k then
    .error .misuse
  else if g.informative.contains key then .error (.information key)
  else .ok { r with settings := r.settings ++ [{ key, values }] }

/-- Sets an option, whose values must be among its choices. -/
def Grammar.setOption (g : Grammar κ) (r : Reading κ) (given : OptionRule κ × List String) :
    Except (Stop κ) (Reading κ) :=
  let (rule, values) := given
  if !rule.choices.isEmpty && values.any fun v => !rule.choices.contains v then .error .misuse
  else g.set r rule.key values

/-- The operand at the start of words that begin with no option, and the number of words it
takes. -/
def Grammar.takeOperand (g : Grammar κ) (r : Reading κ) (words : List (Word κ)) :
    Except (Stop κ) (Reading κ × Nat) :=
  match g.operand with
  | .nothing => .ok (r, 0)
  | .command key names =>
    match words with
    | [] => .ok (r, 0)
    | w :: _ =>
      if names.contains w.text then do return (← g.set r key (words.map (·.text)), words.length)
      else .error .misuse
  | .optional key =>
    if r.operandRead then .ok (r, 0)
    else
      let r := { r with operandRead := true }
      match words with
      | ⟨_, .divider⟩ :: ⟨word, .argument _⟩ :: _ => do return (← g.set r key [word], 2)
      | ⟨_, .divider⟩ :: _ => .ok (r, 1)
      | ⟨word, .argument _⟩ :: ⟨_, .divider⟩ :: _ => do return (← g.set r key [word], 2)
      | ⟨word, .argument _⟩ :: _ => do return (← g.set r key [word], 1)
      | _ => .ok (r, 0)

/-- Reads words from the left. -/
def Grammar.readFrom (g : Grammar κ) (r : Reading κ) :
    List (Word κ) → Except (Stop κ) (Reading κ)
  | [] => .ok r
  | w :: following =>
    match w.token with
    | .option named => do
      let taken ← g.take named following
      let r ← taken.given.foldlM g.setOption r
      g.readFrom { r with extras := r.extras ++ taken.extras } (following.drop taken.count)
    | .unknown _ => g.readFrom { r with extras := r.extras ++ [w.text] } following
    | _ => do
      let (r, count) ← g.takeOperand r (w :: following)
      if count = 0 then g.readFrom { r with extras := r.extras ++ [w.text] } following
      else g.readFrom r (following.drop (count - 1))
  termination_by words => words.length
  decreasing_by all_goals simp only [List.length_drop, List.length_cons]; omega

/-- Whether everything is there that has to be given. -/
def Grammar.isComplete (g : Grammar κ) (r : Reading κ) : Bool :=
  (g.options.all fun o => !o.required || r.has o.key) &&
    (g.alternatives.isEmpty || g.alternatives.any r.has) &&
    match g.operand with
    | .command key _ => r.has key
    | _ => true

/-- Reads a command line. -/
def Grammar.read (g : Grammar κ) (texts : List String) : Except (Stop κ) (Reading κ) := do
  let r ← g.readFrom {} (← g.words texts)
  if g.isComplete r then return r else throw .misuse

/-! ## Settings -/

/-- The last value a key was given. -/
def Reading.value? (r : Reading κ) (key : κ) : Option String :=
  ((r.settings.filter fun s => s.key = key).getLast?).bind fun s => s.values.getLast?

/-- The values a key was given the last time. -/
def Reading.values (r : Reading κ) (key : κ) : List String :=
  (((r.settings.filter fun s => s.key = key).getLast?).map (·.values)).getD []

/-- The values a key was given at any time. -/
def Reading.collected (r : Reading κ) (key : κ) : List String :=
  (r.settings.filter fun s => s.key = key).flatMap (·.values)

end DtoForge.Console
