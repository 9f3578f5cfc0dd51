import DtoForge.Console.Grammar
import DtoForge.Files.Path
import DtoForge.Options.Basic

/-! # Commands — what a command line asks for

There are four commands: listing the languages, showing extracted objects, generating code and
writing an archive. -/

namespace DtoForge.Console

/-! ## Grammar -/

/-- The keys of options and operands. -/
inductive Key where
  | help | version | logLevel | command
  | file | url | environment | roles
  | language | config | naming | namePrefix | nameSuffix | packageName
  | noAnnotations | noNullChecks | feature (f : Feature) | style
  | object | select | output | verbose
  deriving DecidableEq, Repr

/-- The features that options switch on, with the names of the options. -/
def featureOptions : List (Feature × String) :=
  [(.lombok, "--lombok"), (.jsonSerializable, "--json-serializable"),
    (.systemTextJson, "--system-text-json"), (.validation, "--validation"),
    (.builders, "--builders"), (.factoryMethods, "--factory-methods"),
    (.equalsAndHash, "--equals-hash"), (.toText, "--to-string"), (.comments, "--comments")]

/-- The option that asks for help. -/
def helpRule : OptionRule Key :=
  { key := .help, names := ["-h", "--help"], arity := .flag }

/-- The options that name the input. -/
def inputRules : List (OptionRule Key) :=
  [{ key := .url, names := ["--url"] }, { key := .environment, names := ["--env"] },
    { key := .roles, names := ["--roles"] }]

/-- The options of generation. -/
def generationRules : List (OptionRule Key) :=
  [{ key := .language, names := ["--language", "-l"], required := true },
    { key := .config, names := ["--config"] },
    { key := .naming, names := ["--naming"], choices := ["PascalCase", "camelCase", "snake_case"] },
    { key := .namePrefix, names := ["--prefix"] },
    { key := .nameSuffix, names := ["--suffix"] },
    { key := .packageName, names := ["--package-name", "--package"] },
    { key := .noAnnotations, names := ["--no-annotations"], arity := .flag },
    { key := .noNullChecks, names := ["--no-null-checks"], arity := .flag }] ++
  featureOptions.map (fun (f, name) => { key := .feature f, names := [name], arity := .flag }) ++
  [{ key := .style, names := ["--style"], choices := ["pydantic", "dataclass", "typeddict"] }]

/-- The option that names the output. -/
def outputRule (required : Bool) : OptionRule Key :=
  { key := .output, names := ["--output", "-o"], required }

/-- The grammar of a command that reads a collection, from a file or from an address. -/
def collectionGrammar (rules : List (OptionRule Key)) : Grammar Key :=
  { options := [helpRule] ++ inputRules ++ rules, operand := .optional .file
    alternatives := [.file, .url], informative := [.help] }

/-- The grammars of the commands. -/
def commandGrammars : List (String × Grammar Key) :=
  [("languages", { options := [helpRule], informative := [.help] }),
    ("extract", collectionGrammar []),
    ("generate", collectionGrammar (generationRules ++
      [{ key := .object, names := ["--object"] }, outputRule false,
        { key := .verbose, names := ["--verbose"], arity := .flag }])),
    ("zip", collectionGrammar (generationRules ++
      [{ key := .select, names := ["--select"], arity := .several }, outputRule true]))]

/-- The grammar of the words before the command. -/
def mainGrammar : Grammar Key :=
  { options :=
      [helpRule, { key := .version, names := ["--version"], arity := .flag },
        { key := .logLevel, names := ["--log-level"] }]
    operand := .command .command (commandGrammars.map (·.1))
    informative := [.help, .version] }

/-! ## Commands -/

/-- Where the collection comes from, and which bodies are read. -/
structure InputArguments where
  file : String := ""
  url : String := ""
  environment : String := ""
  roles : String := "response,request"
  deriving DecidableEq, Repr

/-- How code is to be generated. -/
structure GenerationArguments where
  language : String
  config : String := ""
  naming : String := ""
  namePrefix : Option String := none
  nameSuffix : Option String := none
  packageName : String := ""
  noAnnotations : Bool := false
  noNullChecks : Bool := false
  features : List Feature := []
  style : String := ""
  deriving DecidableEq, Repr

/-- What a command line asks for. -/
inductive Command where
  | languages
  | extract (input : InputArguments)
  | generate (input : InputArguments) (generation : GenerationArguments) (wanted : List String)
      (directory : String) (verbose : Bool)
  | zip (input : InputArguments) (generation : GenerationArguments) (wanted : List String)
      (archive : String)
  deriving DecidableEq, Repr

/-- The paths a command names. -/
def Command.paths : Command → List Files.Path
  | .languages => []
  | .extract input => named [input.file, input.environment]
  | .generate input generation _ output _ | .zip input generation _ output =>
    named [input.file, input.environment, generation.config, output]
where
  /-- The paths of names that are not empty. -/
  named (names : List String) : List Files.Path :=
    (names.filter (· != "")).map Files.Path.ofText

/-- A command with the level of the records to show. -/
structure Invocation where
  logLevel : Option String
  command : Command
  deriving DecidableEq, Repr

/-- The last value of a key, empty when it was not given. -/
def textOf (r : Reading Key) (key : Key) : String :=
  (r.value? key).getD ""

/-- The input of a reading. -/
def inputOf (r : Reading Key) : InputArguments where
  file := textOf r .file
  url := textOf r .url
  environment := textOf r .environment
  roles := (r.value? .roles).getD "response,request"

/-- The generation of a reading. -/
def generationOf (r : Reading Key) : GenerationArguments where
  language := textOf r .language
  config := textOf r .config
  naming := textOf r .naming
  namePrefix := r.value? .namePrefix
  nameSuffix := r.value? .nameSuffix
  packageName := textOf r .packageName
  noAnnotations := r.has .noAnnotations
  noNullChecks := r.has .noNullChecks
  features := (featureOptions.map (·.1)).filter fun f => r.has (.feature f)
  style := textOf r .style

/-- The command of a name with its reading. -/
def commandOf (name : String) (r : Reading Key) : Command :=
  match name with
  | "extract" => .extract (inputOf r)
  | "generate" =>
    .generate (inputOf r) (generationOf r) (r.collected .object) (textOf r .output) (r.has .verbose)
  | "zip" => .zip (inputOf r) (generationOf r) (r.values .select) (textOf r .output)
  | _ => .languages

/-- Reads a command line. Every word has to be of use. -/
def Invocation.ofWords (words : List String) : Except (Stop Key) Invocation := do
  let before ← mainGrammar.read words
  match before.values .command with
  | [] => throw .misuse
  | name :: rest =>
    match Entries.get? commandGrammars name with
    | none => throw .misuse
    | some grammar =>
      let r ← grammar.read rest
      unless before.extras.isEmpty && r.extras.isEmpty do throw .misuse
      return { logLevel := before.value? .logLevel, command := commandOf name r }

end DtoForge.Console
