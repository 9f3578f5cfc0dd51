import DtoForge.Target
import DtoForge.Options.Loading

/-! # Registry — languages, their generators and their other names

A registry maps language keys to generators and aliases to language keys; both are lower case. What
a generator is does not matter to it. A registration that is refused in the middle of its aliases
leaves what it registered before. -/

namespace DtoForge

/-- Why a registry cannot answer. -/
inductive RegistryError where
  /-- What was registered is no generator. -/
  | notGenerator
  /-- An alias is the key of a language. -/
  | aliasIsLanguage (name : String)
  /-- An alias belongs to another language. -/
  | aliasTaken (name language : String)
  /-- There is no generator for the language. -/
  | unsupported (language : String) (available : List String)
  /-- A language key leads to no generator. -/
  | dangling (key : String)
  /-- Options are neither an object nor a path. -/
  | optionsKind (kind : Json.Kind)
  /-- Options were refused. -/
  | options (language : String) (cause : ConfigError)
  /-- A plain error of a value. -/
  | plain (cause : ConfigError)
  deriving DecidableEq, Repr

/-- The wording of a refusal. -/
def RegistryError.message : RegistryError → String
  | .notGenerator => "Generator class must inherit from CodeGenerator"
  | .aliasIsLanguage name => "Alias '" ++ name ++ "' conflicts with existing primary language"
  | .aliasTaken name language =>
    "Alias '" ++ name ++ "' already points to '" ++ language ++ "'"
  | .unsupported language available =>
    "No generator registered for language: " ++ language ++ ". Available: " ++
      String.intercalate ", " available
  | .dangling key => Text.quoted key
  | .optionsKind kind => "Invalid options type: <class '" ++ kind.name ++ "'>"
  | .options language cause =>
    "Failed to create " ++ language ++ " generator: " ++ cause.message
  | .plain cause => cause.message

/-- Whether a refusal is the registry's own and not a plain error of a value or a key. -/
def RegistryError.isExpected : RegistryError → Bool
  | .plain _ | .dangling _ => false
  | _ => true

/-- Generators by language key, and language keys by alias. -/
structure Registry (α : Type := Target) where
  generators : Entries α String := []
  aliases : Entries String String := []

namespace Registry

variable {α : Type}

/-- Why a value is no language name: only texts can be put in lower case. -/
def languageText (v : Json) : Except RegistryError String :=
  (v.textFor "lower").mapError fun cause => .plain (.options (.shape cause))

/-- Registers one alias of a language. -/
def addAlias (language : String) (replace : Bool) (r : Registry α) (name : String) :
    Except RegistryError (Registry α) :=
  let key := name.lowered
  if key == language then .ok r
  else if !replace && r.generators.has key then .error (.aliasIsLanguage name)
  else match r.aliases.get? key with
    | some other =>
      if !replace && other != language then .error (.aliasTaken name other)
      else .ok { r with aliases := r.aliases.put key language }
    | none => .ok { r with aliases := r.aliases.put key language }

/-- Registers aliases in order, up to the first that is refused. -/
def addAliases (language : String) (replace : Bool) (r : Registry α) :
    List Json → Registry α × Except RegistryError Unit
  | [] => (r, .ok ())
  | v :: rest =>
    match languageText v >>= addAlias language replace r with
    | .error e => (r, .error e)
    | .ok r => addAliases language replace r rest

/-- The registry after a registration, and the refusal if there is one. A language that is there
already is kept unless it is to be replaced. The aliases are the elements of a value. -/
def register (r : Registry α) (language : String) (generator : Option α)
    (aliases : Json := .null) (replace : Bool := false) : Registry α × Except RegistryError Unit :=
  match generator with
  | none => (r, .error .notGenerator)
  | some g =>
    let key := language.lowered
    if r.generators.has key && !replace then (r, .ok ())
    else
      let r := { r with generators := r.generators.put key g }
      match aliases.given? with
      | none => (r, .ok ())
      | some v =>
        match v.elements with
        | .error cause => (r, .error (.plain (.options (.shape cause))))
        | .ok items => addAliases key replace r items

/-- The registry without a language and its aliases. -/
def unregister (r : Registry α) (language : String) : Registry α :=
  let key := language.lowered
  { generators := r.generators.erase key
    aliases := r.aliases.filter fun a => a.2 != key }

/-- The registered language keys in order. -/
def languages (r : Registry α) : List String :=
  r.generators.keys.mergeSort (· ≤ ·)

/-- The key of a language name or alias. -/
def resolve (r : Registry α) (language : String) : Except RegistryError String :=
  let key := language.lowered
  if r.generators.has key then .ok key
  else match r.aliases.get? key with
    | some language => .ok language
    | none => .error (.unsupported language r.languages)

/-- Whether a name is that of a language. -/
def supports (r : Registry α) (language : String) : Bool :=
  r.generators.has language.lowered || r.aliases.has language.lowered

/-- The aliases of a language key in order. -/
def aliasesOf (r : Registry α) (language : String) : List String :=
  ((r.aliases.filter fun a => a.2 == language.lowered).map (·.1)).mergeSort (· ≤ ·)

/-- The generator of a language name or alias, with its key. -/
def find (r : Registry α) (language : String) : Except RegistryError (String × α) := do
  let key ← r.resolve language
  match r.generators.get? key with
  | some g => return (key, g)
  | none => throw (.dangling key)

/-- What is known of a language: its key and aliases, its generator, and the features of the
target that has this key, if there is one. -/
structure Info (α : Type := Target) where
  language : String
  generator : α
  aliases : List String
  described : Option Target

/-- What is known of a language. -/
def info (r : Registry α) (language : String) : Except RegistryError (Info α) := do
  let (key, generator) ← r.find language
  return { language := key, generator, aliases := r.aliasesOf key, described := Target.ofKey? key }

/-- How the options of a generator are chosen. -/
inductive Choice where
  /-- Complete options. -/
  | exactly (options : Options)
  /-- Nothing, overrides, or the path of a file. -/
  | given (value : Json)

/-- The options of a choice for a language key. -/
def optionsFor (files : Files.Tree) (key language : String) (choice : Choice) :
    Except RegistryError Options :=
  let wrap (e : ConfigError) : RegistryError :=
    if e.isConfiguration then .options language e else .plain e
  match choice with
  | .exactly options => .ok options
  | .given (.str path) => (Options.load files key .null path.legible).mapError wrap
  | .given (.object es) => (Options.load files key (.object es)).mapError wrap
  | .given .null => (Options.load files key).mapError wrap
  | .given v => .error (.optionsKind v.kind)

/-- The generator of a language with its options. -/
def create (r : Registry α) (files : Files.Tree) (language : String) (choice : Choice) :
    Except RegistryError (α × Options) := do
  let (key, g) ← r.find language
  return (g, ← optionsFor files key language choice)

/-- The registry of all targets under their keys and aliases. -/
def builtin : Registry :=
  Target.all.foldl (fun r t =>
    (r.register t.key (some t) (.list (t.aliases.map fun a : String => .str a))).1) {}

end Registry

end DtoForge
