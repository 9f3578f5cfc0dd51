import DtoForge.Loading.Document

/-! # Collections — endpoints out of documents

A document may be a stored collection, a list of endpoints, a single endpoint or an exported
collection. The first form that it has decides how it is read. -/

namespace DtoForge.Loading

/-- The collection of a document, with an environment for exported ones. -/
def toCollection (data environment : Json) : Issuing LoadError Collection :=
  let imported (endpoints : Issuing EndpointError (List Endpoint)) : Issuing LoadError Collection :=
    ExceptT.adapt (fun cause => .malformed (.endpoint cause)) do
      Collection.fresh (.str "Imported") (.str "") (← endpoints)
  if Postman.isCollection data then
    ExceptT.adapt (fun cause => .malformed (.imported cause))
      (Postman.importCollection data environment)
  else match data with
    | .list items => imported (items.mapM Endpoint.ofJson)
    | .object es =>
      match Json.valueOf es "endpoints" with
      | .list _ => ExceptT.adapt (fun cause => .malformed (.endpoint cause)) (Collection.ofJson data)
      | _ =>
        if Entries.has es "path" then imported (do return [← Endpoint.ofJson data])
        else throw .unrecognized
    | _ => throw .unrecognized

/-- The environment in a file. -/
def readEnvironment (files : Files.Tree) (name : String) : Except LoadError (Entries RawText) := do
  match Postman.environment? (← readDocument files name) with
  | some environment => return environment
  | none => throw (.notEnvironment name)

/-- Where a collection comes from; a name that is empty counts as missing. -/
structure Origin where
  file : String := ""
  url : String := ""
  environment : String := ""

/-- A loaded collection with the words for its source. -/
structure Loaded where
  source : String
  collection : Collection

/-- The document of an origin and the words for its source. There must be exactly one source. -/
def originDocument (files : Files.Tree) (reply : Http.Reply) (origin : Origin) :
    Except LoadError (String × Json) :=
  match origin.file.isEmpty, origin.url.isEmpty with
  | false, true => (readDocument files origin.file).map fun v => ("📄 " ++ origin.file, v)
  | true, false => (fetchDocument reply origin.url).map fun v => ("🌐 " ++ origin.url, v)
  | _, _ => .error .sourceCount

/-- The environment of an origin; null when there is none. -/
def originEnvironment (files : Files.Tree) (origin : Origin) : Except LoadError Json :=
  if origin.environment.isEmpty then .ok .null
  else (readEnvironment files origin.environment).map Postman.environmentJson

/-- Loads the collection of an origin. -/
def load (files : Files.Tree) (reply : Http.Reply) (origin : Origin) : Issuing LoadError Loaded := do
  let (source, data) ← ExceptT.mk (pure (originDocument files reply origin))
  let environment ← ExceptT.mk (pure (originEnvironment files origin))
  return { source, collection := ← toCollection data environment }

end DtoForge.Loading
