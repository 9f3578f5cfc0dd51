import DtoForge.Schema.Basic
import DtoForge.Json.Writer
import DtoForge.Digest.Sha1

/-! # Schema documents — schemas as JSON, and the fingerprint of a structure

A schema document names the kind under `type`; objects have `properties` and `required`, arrays
have `items`, and a reference stands under `ref`. The fingerprint is the digest of the document
without references in canonical layout, so it does not depend on the order of properties. -/

namespace DtoForge.Schema

/-! ## Writing -/

/-- The reference entry of a document. -/
def refEntry (withRefs : Bool) (ref : Option Json) : Entries Json :=
  match withRefs, ref with
  | true, some r => [("ref", r)]
  | _, _ => []

mutual

/-- The document of a schema. Required names stand in order. -/
def toJson (withRefs : Bool) : Schema → Json
  | .object ps required ref =>
    .object (([("type", .str "object"), ("properties", .object (toJsonAll withRefs ps)),
      ("required", .list (Json.sorted required))] : Entries Json) ++ refEntry withRefs ref)
  | .array items ref =>
    .object (([("type", .str "array"), ("items", items.toJson withRefs)] : Entries Json) ++
      refEntry withRefs ref)
  | .leaf l ref => .object (("type", .str (SchemaKind.leaf l).word) :: refEntry withRefs ref)

/-- The documents of properties. -/
def toJsonAll (withRefs : Bool) : List (RawText × Schema) → List (RawText × Json)
  | [] => []
  | (name, s) :: ps => (name, s.toJson withRefs) :: toJsonAll withRefs ps

end

mutual

/-- Refuses required names without a common order, anywhere in a schema. -/
def checkRequired : Schema → Except ShapeError Unit
  | .object ps required _ => do
    checkRequiredAll ps
    Json.checkOrder required
  | .array items _ => items.checkRequired
  | .leaf .. => .ok ()

/-- Refuses required names without a common order in any of the properties. -/
def checkRequiredAll : List (RawText × Schema) → Except ShapeError Unit
  | [] => .ok ()
  | (_, s) :: ps => do
    s.checkRequired
    checkRequiredAll ps

end

/-- The text that identifies a structure. -/
def canonicalText (s : Schema) : String :=
  (s.toJson false).write .canonical

/-- The digest that identifies a structure. -/
def fingerprint (s : Schema) : String :=
  Digest.sha1Text s.canonicalText

/-! ## Reading -/

/-- The required names of a document as a set; what does not count as given is the empty set. -/
def requiredOf (es : Entries Json) : Except ShapeError (List Json) :=
  match (Json.valueOf es "required").given? with
  | some v => v.elements >>= Json.setOf
  | none => .ok []

mutual

/-- The schema of a document. An unknown kind makes a leaf of which nothing is known. -/
def ofJson : Json → Except ShapeError Schema
  | .object es =>
    match SchemaKind.ofJson? (Json.valueOf es "type") with
    | some .object => do
      let ps ← propertiesOf es
      let required ← requiredOf es
      return .object ps required (Json.valueOf es "ref").given?
    | some .array => do
      let items ← itemsOf es
      return .array items (Json.valueOf es "ref").given?
    | some (.leaf l) => .ok (.leaf l none)
    | none => .ok (.leaf .unknown none)
  | v => .error (.noMember v.kind "get")

/-- The schemas under `properties`, in order. -/
def propertiesOf : List (RawText × Json) → Except ShapeError (List (RawText × Schema))
  | [] => .ok []
  | (key, v) :: es =>
    if key = "properties" then
      match v with
      | .object ps => ofJsonAll ps
      | v => if v.isGiven then .error (.noMember v.kind "items") else .ok []
    else propertiesOf es

/-- The schema under `items`; what does not count as given is a leaf of which nothing is known. -/
def itemsOf : List (RawText × Json) → Except ShapeError Schema
  | [] => .ok (.leaf .unknown none)
  | (key, v) :: es =>
    if key = "items" then
      if v.isGiven then ofJson v else .ok (.leaf .unknown none)
    else itemsOf es

/-- The schemas of the documents of an object. -/
def ofJsonAll : List (RawText × Json) → Except ShapeError (List (RawText × Schema))
  | [] => .ok []
  | (name, v) :: ps => do
    let s ← ofJson v
    return (name, s) :: (← ofJsonAll ps)

end

end DtoForge.Schema
