import DtoForge.Postman.Import
import DtoForge.Proofs.Endpoint

/-! # Imports — what exported collections are refused with

No number of an exported collection is made an integer, so whatever stands in one, callers answer for
the refusal. What is imported has texts for paths; its bodies are taken as they come. -/

namespace DtoForge.Postman

open ShapeError (Plain)

/-! ## Placeholders -/

theorem valueOf_eq (environment : Json) (name : String) : valueOf environment name =
    if isIdentifier name then .ok (.str (":" ++ name.lowered))
    else do
      let es ← environment.partsOf
      return ((Json.valueOf es name).given?).getD (.str (standIn name)) := by
  unfold valueOf Json.partsOf
  cases environment.given? <;> rfl

theorem Piece.value_plain (environment : Json) (p : Piece) :
    Steps.FailsWith Plain (p.value environment) := by
  rcases p with cs | name
  · exact Steps.failsWith_ok _
  · rw [Piece.value, valueOf_eq]
    split
    · exact Steps.failsWith_ok _
    · exact Steps.FailsWith.bind environment.partsOf_plain fun es _ => Steps.failsWith_ok _

theorem joinTexts_plain (position : Nat) (vs : List Json) :
    Steps.FailsWith Plain (joinTexts position vs) := by
  induction vs generalizing position with
  | nil => exact Steps.failsWith_ok _
  | cons v vs ih =>
      cases v with
      | str s => exact (ih (position + 1)).map
      | _ => exact Steps.failsWith_error nofun

theorem replaceVariables_plain (environment value : Json) :
    Steps.FailsWith Plain (replaceVariables environment value) := by
  refine Steps.FailsWith.bind value.matchedText_plain fun s _ => ?_
  refine Steps.FailsWith.bind ?_ fun values _ => joinTexts_plain 0 values
  exact Steps.failsWith_mapM fun p _ => p.value_plain environment

/-! ## Responses -/

theorem contentTypeFrom_plain (headers : List Json) :
    Steps.FailsWith Plain (contentTypeFrom headers) := by
  induction headers with
  | nil => exact Steps.failsWith_ok _
  | cons header rest ih =>
      refine Steps.FailsWith.bind (header.entriesFor_plain "get") fun es _ => ?_
      split
      · exact Steps.failsWith_ok _
      · exact ih

/-- Headers are refused for the kind of a value, theirs or that of one of them. -/
theorem contentType_plain (headers : Json) : Steps.FailsWith Plain (contentType headers) := by
  rw [contentType]
  split
  next v _ => exact Steps.FailsWith.bind v.elements_plain fun items _ => contentTypeFrom_plain items
  next => exact Steps.failsWith_ok _

theorem successOf_plain (answers : List Json) : Steps.FailsWith Plain (successOf answers) := by
  induction answers with
  | nil => exact Steps.failsWith_ok _
  | cons answer rest ih =>
      refine Steps.FailsWith.bind (answer.entriesFor_plain "get") fun es _ => ?_
      split
      · split
        · exact Steps.failsWith_ok _
        · exact ih
      · exact ih

/-- A response is read step by step: the examples, the one that succeeded, its body and the kind of
its content. -/
theorem responseOf_eq (item : Entries Json) : responseOf item = (do
    let examples ← (Json.valueOf item "response").itemsOf
    match ← successOf examples with
    | none => return { body := .str cannedBody }
    | some (status, es) =>
      return {
        status
        body := ((Json.valueOf es "body").given?).getD (.str cannedBody)
        contentType := ← contentType (Json.valueOf es "header") }) := by
  unfold responseOf Json.itemsOf
  cases (Json.valueOf item "response").given? <;> rfl

theorem responseOf_plain (item : Entries Json) : Steps.FailsWith Plain (responseOf item) := by
  rw [responseOf_eq]
  refine Steps.FailsWith.bind (Json.itemsOf_plain (Json.valueOf item "response")) fun examples _ => ?_
  refine Steps.FailsWith.bind (successOf_plain examples) fun success _ => ?_
  split
  · exact Steps.failsWith_ok _
  · exact Steps.FailsWith.bind (contentType_plain _) fun _ _ => Steps.failsWith_ok _

/-! ## Requests -/

theorem headersFrom_plain (environment : Json) (headers : List Json) :
    Steps.FailsWith Plain (headersFrom environment headers) := by
  induction headers with
  | nil => exact Steps.failsWith_ok _
  | cons header rest ih =>
      refine Steps.FailsWith.bind (header.entriesFor_plain "get") fun es _ => ?_
      split
      · exact ih
      · refine Steps.FailsWith.bind (replaceVariables_plain environment _) fun value _ => ?_
        exact Steps.FailsWith.bind ih fun headers _ => Steps.failsWith_ok _

theorem headersOf_plain (environment : Json) (request : Entries Json) :
    Steps.FailsWith Plain (headersOf environment request) := by
  rw [headersOf]
  split
  next v _ =>
    exact Steps.FailsWith.bind v.elements_plain fun items _ => headersFrom_plain environment items
  next => exact Steps.failsWith_ok _

theorem bodyOf_eq (request : Entries Json) : bodyOf request = (do
    let es ← (Json.valueOf request "body").partsOf
    match Json.valueOf es "mode", (Json.valueOf es "raw").given? with
    | .str "raw", some raw => return some { body := raw }
    | _, _ => return none) := by
  unfold bodyOf Json.partsOf
  cases (Json.valueOf request "body").given? <;> rfl

theorem bodyOf_plain (request : Entries Json) : Steps.FailsWith Plain (bodyOf request) := by
  rw [bodyOf_eq]
  refine Steps.FailsWith.bind (Json.partsOf_plain (Json.valueOf request "body")) fun es _ => ?_
  split
  · exact Steps.failsWith_ok _
  · exact Steps.failsWith_ok _

/-- A refusal that callers answer for. -/
def ImportError.Plain : ImportError → Prop
  | .shape cause => cause.Plain
  | _ => True

theorem plain_shape {α : Type} {x : Except ShapeError α} (h : Steps.FailsWith Plain x) :
    Steps.FailsWith ImportError.Plain (x.mapError .shape) :=
  Steps.FailsWith.mapError h

theorem textPath_plain (address : String) :
    Steps.FailsWith ImportError.Plain (textPath address) := by
  rw [textPath]
  split
  · exact Steps.failsWith_ok _
  · split
    · split
      · exact Steps.failsWith_ok _
      · exact Steps.failsWith_error trivial
    · exact Steps.failsWith_ok _

/-- An address is refused for its kind, or for a host that cannot stand in one. -/
theorem requestPath_plain (address : Json) :
    Steps.FailsWith ImportError.Plain (requestPath address) := by
  unfold requestPath
  split
  · split
    next v _ =>
      exact Steps.FailsWith.bind (plain_shape v.elements_plain) fun _ _ => Steps.failsWith_ok _
    next =>
      split
      · exact textPath_plain _
      · exact Steps.failsWith_ok _
  · exact textPath_plain _
  · exact Steps.failsWith_ok _

/-- So a request as a whole is refused in such a way only. -/
theorem draftOf_plain (environment : Json) (item request : Entries Json) :
    Steps.FailsWith ImportError.Plain (draftOf environment item request) := by
  refine Steps.FailsWith.bind (plain_shape (responseOf_plain item)) fun response _ => ?_
  refine Steps.FailsWith.bind (plain_shape (headersOf_plain environment request)) fun headers _ => ?_
  refine Steps.FailsWith.bind (plain_shape (bodyOf_plain request)) fun body _ => ?_
  refine Steps.FailsWith.bind (requestPath_plain _) fun address _ => ?_
  refine Steps.FailsWith.bind (plain_shape (replaceVariables_plain environment _)) fun path _ => ?_
  exact Steps.failsWith_ok _

/-! ## Items -/

theorem itemRefusal_plain (v : Json) : (itemRefusal v).Plain := by
  rw [itemRefusal]
  split
  next cause h => exact v.mentions_plain "item" cause h
  next => nofun

/-- The elements of what is no list are all refused. -/
theorem leavesAmong_other {v : Json} (h : ∀ items, v ≠ .list items) :
    ∀ leaf ∈ leavesAmong v, Steps.FailsWith Plain leaf := by
  rw [leavesAmong]
  · split
    · split
      · intro leaf hleaf
        obtain ⟨w, -, rfl⟩ := List.mem_map.mp hleaf
        exact Steps.failsWith_error (itemRefusal_plain w)
      · next cause hcause =>
        exact List.forall_mem_singleton.mpr (Steps.failsWith_error (v.elements_plain cause hcause))
    · exact List.forall_mem_nil _
  · exact h

mutual

/-- What is no item is refused in its place, so every leaf is an item or such a refusal. -/
theorem leaves_plain : ∀ v : Json, ∀ leaf ∈ leaves v, Steps.FailsWith Plain leaf
  | .object es => by
      rw [leaves]
      split
      · exact leavesUnder_plain es
      · exact List.forall_mem_singleton.mpr (Steps.failsWith_ok es)
  | .null | .bool _ | .int _ | .float _ | .str _ | .list _ => by
      rw [leaves]
      · exact List.forall_mem_singleton.mpr (Steps.failsWith_error (itemRefusal_plain _))
      · nofun

theorem leavesUnder_plain : ∀ es : List (RawText × Json), ∀ leaf ∈ leavesUnder es,
    Steps.FailsWith Plain leaf
  | [] => by
      rw [leavesUnder]
      nofun
  | (key, v) :: es => by
      rw [leavesUnder]
      split
      · exact leavesAmong_plain v
      · exact leavesUnder_plain es

theorem leavesAmong_plain : ∀ v : Json, ∀ leaf ∈ leavesAmong v, Steps.FailsWith Plain leaf
  | .list items => by
      rw [leavesAmong]
      exact leavesOf_plain items
  | .null | .bool _ | .int _ | .float _ | .str _ | .object _ => leavesAmong_other nofun

theorem leavesOf_plain : ∀ vs : List Json, ∀ leaf ∈ leavesOf vs, Steps.FailsWith Plain leaf
  | [] => by
      rw [leavesOf]
      nofun
  | v :: vs => by
      rw [leavesOf]
      intro leaf hleaf
      rcases List.mem_append.mp hleaf with hleaf | hleaf
      · exact leaves_plain v leaf hleaf
      · exact leavesOf_plain vs leaf hleaf

end

/-! ## Collections -/

/-- A draft gives an endpoint with a text for its path. -/
theorem Draft.endpoint_yields (d : Draft) :
    Steps.Yields Endpoint.HasTextPath ImportError.Plain d.endpoint := by
  refine freshId_yields.bind fun id _ => ?_
  split
  · exact Steps.yields_pure ⟨d.path, rfl⟩
  · exact Steps.yields_throw nofun

theorem endpointOf_yields (environment : Json) {leaf : Except ShapeError (Entries Json)}
    (hleaf : Steps.FailsWith Plain leaf) :
    Steps.Yields (fun e => ∀ e' ∈ e, Endpoint.HasTextPath e') ImportError.Plain
      (endpointOf environment leaf) := by
  cases leaf with
  | error cause => exact Steps.yields_throw (hleaf cause rfl)
  | ok item =>
      rw [endpointOf]
      split
      next request _ =>
        refine (Steps.yields_lift (draftOf_plain environment item request)).bind fun draft _ => ?_
        refine draft.endpoint_yields.bind fun e he => Steps.yields_pure ?_
        rintro _ ⟨⟩
        exact he
      next => exact Steps.yields_pure nofun

/-- **An import gives endpoints with texts for paths, or a refusal that callers answer for.** -/
theorem importCollection_yields (data environment : Json) :
    Steps.Yields (fun c => ∀ e ∈ c.endpoints, Endpoint.HasTextPath e) ImportError.Plain
      (importCollection data environment) := by
  rw [importCollection]
  split
  · refine (Steps.yields_mapM fun leaf hleaf =>
      endpointOf_yields environment (leavesOf_plain _ leaf hleaf)).bind fun found hfound => ?_
    refine freshId_yields.bind fun id _ => Steps.yields_pure ?_
    intro e he
    obtain ⟨e', he', rfl⟩ := List.mem_filterMap.mp he
    exact hfound _ he' e rfl
  · exact Steps.yields_throw trivial

end DtoForge.Postman
