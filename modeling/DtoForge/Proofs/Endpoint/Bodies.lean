import DtoForge.Proofs.Endpoint
import DtoForge.Proofs.Json.Entries
import DtoForge.Proofs.Json.RoundTrip

/-! # Bodies — given as values and as texts

Of a body nothing but its text goes into an endpoint. So a document with another body in the place of
one gives the same endpoint, with another text in the place of one (`ofJson_withBody`), and is refused
where the first is. The text of a value is read back as it. -/

namespace DtoForge

/-- A value that is neither missing nor a text is kept as the text that writes it. -/
theorem bodyText_eq_write {v : Json} (hnull : v.kind ≠ .null) (htext : v.kind ≠ .str) :
    bodyText v = .str (v.write .line) := by
  cases v with
  | null => exact absurd rfl hnull
  | str s => exact absurd rfl htext
  | _ => rfl

theorem Json.valueOf_put (es : Entries Json) (key : RawText) (v : Json) (key' : RawText) :
    Json.valueOf (es.put key v) key' = if key = key' then v else Json.valueOf es key' := by
  rw [Json.valueOf, Entries.get?_put]
  split <;> rfl

theorem Json.valueOr_put (es : Entries Json) (key : RawText) (v : Json) (key' : RawText)
    (default : Json) : Json.valueOr (es.put key v) key' default =
      if key = key' then v else Json.valueOr es key' default := by
  rw [Json.valueOr, Entries.get?_put]
  split <;> rfl

theorem Json.isGiven_object_of_has {es : Entries Json} {key : RawText} (h : es.has key) :
    (Json.object es).isGiven := by
  cases es with
  | nil => cases h
  | cons e es => rfl

namespace Endpoint

/-! ## Documents -/

/-- A document that gives a body for a role. -/
def GivesBody (data : Json) (role : Role) (v : Json) : Prop :=
  ∃ es parts : Entries Json, data = .object es ∧ es.get? role.word = some (.object parts) ∧
    parts.get? "body" = some v

/-- A document with another body for a role in the place of the one it gives. -/
def withBody (role : Role) (body : Json) (data : Json) : Json :=
  match data with
  | .object es =>
    match Entries.get? es role.word with
    | some (.object parts) =>
      .object (Entries.put es role.word (.object (Entries.put parts "body" body)))
    | _ => data
  | _ => data

/-- An endpoint with another body for a role, if it has one for it. -/
def setBody (role : Role) (body : Json) (e : Endpoint) : Endpoint :=
  match role with
  | .response => { e with response := { e.response with body } }
  | .request => { e with request := e.request.map fun r => { r with body } }

theorem withBody_of_get? {role : Role} {body : Json} {es parts : Entries Json}
    (h : es.get? role.word = some (.object parts)) :
    withBody role body (.object es) =
      .object (es.put role.word (.object (parts.put "body" body))) := by
  simp only [withBody, h]

/-- A document is the one with what it gives in the place of it. -/
theorem GivesBody.withBody_self {data : Json} {role : Role} {v : Json} (h : GivesBody data role v) :
    Endpoint.withBody role v data = data := by
  obtain ⟨es, parts, rfl, hparts, hbody⟩ := h
  rw [withBody_of_get? hparts, Entries.put_of_get? hbody, Entries.put_of_get? hparts]

/-! ## Parts of an endpoint -/

section Parts

variable {es parts : Entries Json}

theorem responseOf_of_parts (hparts : Json.valueOf es "response" = .object parts) :
    responseOf es = (Json.valueOr parts "status" (.int 200)).integer.map fun status => {
      status
      body := bodyText (Json.valueOr parts "body" (.str ""))
      contentType := Json.valueOr parts "contentType" (.str "application/json") } := by
  rw [responseOf_eq, hparts, Json.partsOf_eq_ok_iff.mpr (.object parts)]
  show (Json.valueOr parts "status" (.int 200)).integer >>= _ = _
  cases (Json.valueOr parts "status" (.int 200)).integer <;> rfl

theorem requestOf_of_parts (hparts : Json.valueOf es "request" = .object parts)
    (hbody : parts.has "body") :
    requestOf es = .ok (some {
      body := bodyText (Json.valueOf parts "body")
      contentType := Json.valueOr parts "contentType" (.str "application/json") }) := by
  rw [requestOf_eq, hparts, if_pos (Json.isGiven_object_of_has hbody),
    Json.partsOf_eq_ok_iff.mpr (.object parts)]
  rfl

theorem responseOf_put (hparts : Json.valueOf es "response" = .object parts) (body : Json) :
    responseOf (es.put "response" (.object (parts.put "body" body))) =
      (responseOf es).map fun r => { r with body := bodyText body } := by
  have hput : Json.valueOf (es.put "response" (.object (parts.put "body" body))) "response" =
      .object (parts.put "body" body) := by
    rw [Json.valueOf_put, if_pos rfl]
  rw [responseOf_of_parts hput, responseOf_of_parts hparts]
  simp only [Json.valueOr_put, RawText.whole.injEq, String.reduceEq, if_true, if_false]
  cases (Json.valueOr parts "status" (.int 200)).integer <;> rfl

theorem requestOf_put (hparts : Json.valueOf es "request" = .object parts)
    (hbody : parts.has "body") (body : Json) :
    requestOf (es.put "request" (.object (parts.put "body" body))) =
      (requestOf es).map fun r => r.map fun r => { r with body := bodyText body } := by
  have hput : Json.valueOf (es.put "request" (.object (parts.put "body" body))) "request" =
      .object (parts.put "body" body) := by
    rw [Json.valueOf_put, if_pos rfl]
  rw [requestOf_of_parts hput (Entries.has_put.mpr (.inl rfl)), requestOf_of_parts hparts hbody]
  simp only [Json.valueOf_put, Json.valueOr_put, RawText.whole.injEq, String.reduceEq, if_true,
    if_false]
  rfl

end Parts

/-! ## Endpoints -/

/-- The endpoint of the parts of a document, which are read one after the other. -/
def assemble (response : Except ShapeError Response) (request : Except ShapeError (Option Request))
    (headers : Except ShapeError (List Header)) (id : Issuing EndpointError String)
    (method : Except ShapeError String) (path description : Json) :
    Issuing EndpointError Endpoint := do
  let response ← response
  let request ← request
  let headers ← headers
  let id ← id
  let method ← method
  return { id, path, method := method.uppered, description, headers, response, request }

theorem ofJson_object (es : Entries Json) : ofJson (.object es) =
    if Entries.has es "path" then
      assemble (responseOf es) (requestOf es) (headersOf es) (idOf es)
        ((Json.valueOr es "method" (.str "GET")).textFor "upper") (Json.valueOf es "path")
        (Json.valueOr es "description" (.str ""))
    else throw .missingPath := by
  rw [ofJson, Json.mentions]
  cases Entries.has es "path" <;> rfl

section Assemble

variable (response : Except ShapeError Response) (request : Except ShapeError (Option Request))
  (headers : Except ShapeError (List Header)) (name : Issuing EndpointError String)
  (method : Except ShapeError String) (path description body : Json)

/-- Parts that are changed are changed in the endpoint. -/
theorem assemble_map (f : Response → Response) (g : Option Request → Option Request) :
    assemble (response.map f) (request.map g) headers name method path description =
      (fun e => { e with response := f e.response, request := g e.request }) <$>
        assemble response request headers name method path description := by
  cases response with
  | error cause => rfl
  | ok response =>
      cases request with
      | error cause => rfl
      | ok request =>
          cases headers with
          | error cause => rfl
          | ok headers =>
              show (name >>= _) = _ <$> (name >>= _)
              rw [map_bind]
              congr 1
              funext id
              cases method <;> rfl

theorem assemble_response :
    assemble (response.map fun r => { r with body }) request headers name method path description =
      setBody .response body <$> assemble response request headers name method path description := by
  have hsame : request.map (fun r => r) = request := congrFun Except.map_id request
  have h := assemble_map response request headers name method path description
    (fun r => { r with body }) fun r => r
  rw [hsame] at h
  exact h

theorem assemble_request :
    assemble response (request.map fun r => r.map fun r => { r with body }) headers name method
        path description =
      setBody .request body <$> assemble response request headers name method path description := by
  have hsame : response.map (fun r => r) = response := congrFun Except.map_id response
  have h := assemble_map response request headers name method path description (fun r => r)
    fun r => r.map fun r => { r with body }
  rw [hsame] at h
  exact h

end Assemble

/-- **Another body gives the same endpoint with another text**, and the same refusals. -/
theorem ofJson_withBody {data : Json} {role : Role} {v : Json} (h : GivesBody data role v)
    (body : Json) :
    ofJson (withBody role body data) = setBody role (bodyText body) <$> ofJson data := by
  obtain ⟨es, parts, rfl, hparts, hbody⟩ := h
  have hvalue : Json.valueOf es role.word = .object parts := by
    rw [Json.valueOf, hparts]
    rfl
  have hpath : Entries.has (es.put role.word (.object (parts.put "body" body))) "path" =
      Entries.has es "path" := by
    rw [Bool.eq_iff_iff, Entries.has_put]
    cases role <;> simp [Role.word]
  rw [withBody_of_get? hparts, ofJson_object, ofJson_object, hpath]
  cases Entries.has es "path" with
  | false => rfl
  | true =>
    cases role with
    | response =>
        simp only [if_true, ← assemble_response, Role.word, responseOf_put hvalue, requestOf,
          headersOf, idOf, Json.valueOf_put, Json.valueOr_put, RawText.whole.injEq, String.reduceEq,
          if_false]
    | request =>
        have hhas : parts.has "body" := Entries.has_iff_exists_get?.mpr ⟨v, hbody⟩
        simp only [if_true, ← assemble_request, Role.word, requestOf_put hvalue hhas, responseOf,
          headersOf, idOf, Json.valueOf_put, Json.valueOr_put, RawText.whole.injEq, String.reduceEq,
          if_false]

/-- The body of an endpoint is the text of what its document gives. -/
theorem bodyFor_of_ofJson {data : Json} {role : Role} {v : Json} (h : GivesBody data role v)
    {n n' : Nat} {e : Endpoint} (hrun : (ofJson data).run.run n = (.ok e, n')) :
    e.bodyFor role = bodyText v := by
  obtain ⟨es, parts, rfl, hparts, hbody⟩ := h
  have hvalue : Json.valueOf es role.word = .object parts := by
    rw [Json.valueOf, hparts]
    rfl
  obtain ⟨_, ⟨⟩, hread⟩ := exists_readAs_of_ofJson hrun
  cases role with
  | response =>
      have hresponse := hread.response
      rw [responseOf_of_parts hvalue] at hresponse
      obtain ⟨status, -, hresponse⟩ := Steps.exists_of_map_eq_ok hresponse
      rw [bodyFor, ← hresponse, Json.valueOr, hbody]
      rfl
  | request =>
      have hrequest := hread.request
      rw [requestOf_of_parts hvalue (Entries.has_iff_exists_get?.mpr ⟨v, hbody⟩)] at hrequest
      rw [bodyFor, ← Except.ok.inj hrequest, Json.valueOf, hbody]
      rfl

end Endpoint

end DtoForge
