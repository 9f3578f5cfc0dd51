import DtoForge.Generator.Basic
import DtoForge.Text.Literal

/-! # TypeScript — exported interfaces

Properties keep the names they have in documents unless snake case is asked for; a name that is no
identifier is written as a text. Key maps, type guards and factory functions are optional. -/

namespace DtoForge.TypeScript

open Source

/-- The dialect of the language. A list of a type that is written with a blank needs brackets. -/
def dialect : Dialect where
  textType := "string"
  numberType := "number"
  booleanType := "boolean"
  anyType := "any"
  mapType := "Record<string, any>"
  listOf item := if item.toList.contains ' ' then "Array<" ++ item ++ ">" else item ++ "[]"
  fieldCase := .original

/-! ## Keys and values -/

/-- Characters that may start a key written without quotes. -/
def isKeyStart (c : Char) : Bool :=
  c.isAlpha || c == '_' || c == '$'

/-- Whether a name is written without quotes. One line feed at its end does not count. -/
def isPlainKey (name : String) : Bool :=
  let cs := name.toList
  let cs := if cs.getLast? == some '\n' then cs.dropLast else cs
  match cs with
  | [] => false
  | c :: cs => isKeyStart c && cs.all fun c => isKeyStart c || c.isDigit

/-- A property name, quoted when it is no identifier. -/
def propertyKey (name : String) : String :=
  if isPlainKey name then name else Text.singleQuoted name

/-- The value a required property has at first. -/
def initialValue (f : Field) : String :=
  match f.schema with
  | .leaf .string _ => "''"
  | .leaf .number _ => "0"
  | .leaf .boolean _ => "false"
  | .array .. => "[]"
  | .object .. => "\x7b\x7d as " ++ f.type
  | .leaf .null _ | .leaf .unknown _ => "null"

/-- The check that a required property has the right kind of value. -/
def guardCheck (f : Field) : String :=
  let name := Text.singleQuoted f.name
  let access := "record[" ++ name ++ "]"
  match f.schema with
  | .leaf .string _ => "typeof " ++ access ++ " === 'string'"
  | .leaf .number _ => "typeof " ++ access ++ " === 'number'"
  | .leaf .boolean _ => "typeof " ++ access ++ " === 'boolean'"
  | .array .. => "Array.isArray(" ++ access ++ ")"
  | .object .. => "typeof " ++ access ++ " === 'object' && " ++ access ++ " !== null"
  | .leaf .null _ | .leaf .unknown _ => name ++ " in record"

/-! ## Code -/

/-- One property of an interface. -/
def propertyLine (w : Writer) (f : Field) : String :=
  let type := if !f.required && w.on .nullChecks then f.type ++ " | null" else f.type
  "  " ++ propertyKey f.name ++ partIf (!f.required) "?" ++ ": " ++ type ++ ";"

/-- The map from properties to the names in documents. -/
def keyMapLines (w : Writer) (t : TypeSource) : Lines :=
  [""] ++
    onlyIf (w.on .comments) ["/** Wire name of each property. */"] ++
    ["export const " ++ t.className ++ "JsonKeys = \x7b"] ++
    t.fields.map (fun f =>
      "  " ++ propertyKey f.name ++ ": " ++ Text.singleQuoted f.wireName ++ ",") ++
    ["\x7d as const;"]

/-- The function that tells whether a value has every required property. -/
def guardLines (w : Writer) (t : TypeSource) : Lines :=
  let checks := (t.fields.filter (·.required)).map guardCheck
  [""] ++
    onlyIf (w.on .comments)
      ["/** Checks that a value has every required property of " ++ t.className ++ ". */"] ++
    ["export function is" ++ t.className ++ "(value: unknown): value is " ++ t.className ++ " \x7b",
      "  if (typeof value !== 'object' || value === null) \x7b",
      "    return false;",
      "  \x7d"] ++
    (if checks.isEmpty then ["  return true;"]
      else ["  const record = value as Record<string, unknown>;", "  return (",
        "    " ++ String.intercalate " &&\n    " checks, "  );"]) ++
    ["\x7d"]

/-- The function that makes an object with initial values for required properties. -/
def factoryLines (w : Writer) (t : TypeSource) : Lines :=
  [""] ++
    onlyIf (w.on .comments)
      ["/** Creates a " ++ t.className ++ " with defaults for required properties. */"] ++
    ["export function create" ++ t.className ++ "(overrides: Partial<" ++ t.className ++
        "> = \x7b\x7d): " ++ t.className ++ " \x7b",
      "  return \x7b"] ++
    (t.fields.filter (·.required)).map (fun f =>
      "    " ++ propertyKey f.name ++ ": " ++ initialValue f ++ ",") ++
    ["    ...overrides,", "  \x7d;", "\x7d"]

/-- The code of a type. -/
def code (w : Writer) (t : TypeSource) : Lines :=
  t.references.map (fun (stem, name) =>
      "import \x7b " ++ name ++ " \x7d from './" ++ stem.legible ++ "';") ++
    onlyIf (!t.references.isEmpty) [""] ++
    (match t.doc with
      | some doc => ["/**", " * " ++ doc, " */"]
      | none => []) ++
    ["export interface " ++ t.className ++ " \x7b"] ++
    t.fields.map (propertyLine w) ++
    ["\x7d"] ++
    onlyIf (w.on .annotations && t.fields.any Field.renamed) (keyMapLines w t) ++
    onlyIf (w.on .validation) (guardLines w t) ++
    onlyIf (w.on .factoryMethods) (factoryLines w t)

end DtoForge.TypeScript
