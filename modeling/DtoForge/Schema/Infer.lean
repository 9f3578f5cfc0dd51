import DtoForge.Schema.Basic

/-! # Inference — the schema of an example

An array takes the structure of its first item, and a property is required when its example is not
null. -/

namespace DtoForge.Schema

/-- The names whose example is not null. -/
def requiredNames (entries : List (RawText × Json)) : List Json :=
  (entries.filter fun e => e.2.kind != .null).map fun e => .str e.1

mutual

/-- The schema of an example value. -/
def infer : Json → Schema
  | .null => .leaf .null none
  | .bool _ => .leaf .boolean none
  | .int _ | .float _ => .leaf .number none
  | .str _ => .leaf .string none
  | .list [] => .array (.leaf .unknown none) none
  | .list (v :: _) => .array (infer v) none
  | .object entries => .object (inferAll entries) (requiredNames entries) none

/-- The schemas of the entries of an example object. -/
def inferAll : List (RawText × Json) → List (RawText × Schema)
  | [] => []
  | (name, v) :: es => (name, infer v) :: inferAll es

end

end DtoForge.Schema
