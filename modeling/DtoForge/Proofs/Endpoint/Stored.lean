import DtoForge.Proofs.Endpoint
import DtoForge.Proofs.Json.Entries
import DtoForge.Proofs.Unicode.Upper

/-! # Stored endpoints — kept by their documents

Reading an endpoint brings its method into upper case and its bodies into texts, and hands out an
identifier where there is none. Endpoints on which all this changes nothing are normal: what is read
is normal, and a normal endpoint is what its document is read as. -/

namespace DtoForge

/-- A body that is kept is kept as it is. -/
@[simp] theorem bodyText_bodyText (v : Json) : bodyText (bodyText v) = bodyText v := by
  rcases Endpoint.bodyText_cases v with h | ⟨body, h⟩
  · rw [h]
    rfl
  · rw [h]
    rfl

namespace Endpoint

/-- An endpoint with its method in upper case and with bodies that are texts or missing. -/
structure Normal (e : Endpoint) : Prop where
  method : e.method.uppered = e.method
  response : bodyText e.response.body = e.response.body
  request : ∀ r, e.request = some r → bodyText r.body = r.body

/-! ## What is read is normal -/

theorem normal_of_ofJson {data : Json} {n n' : Nat} {e : Endpoint}
    (h : (ofJson data).run.run n = (.ok e, n')) : e.Normal := by
  obtain ⟨es, -, hread⟩ := exists_readAs_of_ofJson h
  refine ⟨?method, ?response, ?request⟩
  case method =>
    obtain ⟨method, -, hmethod⟩ := hread.method
    rw [hmethod, String.uppered_uppered]
  case response =>
    obtain ⟨v, hv⟩ := body_of_responseOf hread.response
    rw [hv, bodyText_bodyText]
  case request =>
    intro r hr
    obtain ⟨v, hv⟩ := body_of_requestOf (hr ▸ hread.request)
    rw [hv, bodyText_bodyText]

/-! ## Documents of endpoints -/

/-- The entries of the document of an endpoint. -/
def entries (e : Endpoint) : Entries Json :=
  e.toJson.object?.getD []

variable {e : Endpoint}

theorem responseOf_entries (h : bodyText e.response.body = e.response.body) :
    responseOf e.entries = .ok e.response := by
  have hparts : responseOf e.entries = .ok {
      status := e.response.status
      body := bodyText e.response.body
      contentType := e.response.contentType } := rfl
  rw [hparts, h]

theorem requestOf_entries (h : ∀ r, e.request = some r → bodyText r.body = r.body) :
    requestOf e.entries = .ok e.request := by
  cases hrequest : e.request with
  | none =>
      have hmissing : Json.valueOf e.entries "request" = .null := by
        rw [entries, toJson, hrequest]
        rfl
      rw [requestOf_eq, hmissing]
      rfl
  | some r =>
      have hgiven : Json.valueOf e.entries "request" =
          .object [("body", r.body), ("contentType", r.contentType)] := by
        rw [entries, toJson, hrequest]
        rfl
      have hparts : requestOf e.entries = .ok (some {
          body := bodyText r.body
          contentType := r.contentType }) := by
        rw [requestOf_eq, hgiven]
        rfl
      rw [hparts, h r hrequest]

theorem headerOf_headerJson (header : Header) : headerOf (headerJson header) = .ok header := rfl

theorem headersOf_entries (e : Endpoint) : headersOf e.entries = .ok e.headers := by
  have hitems : Json.valueOf e.entries "headers" = .list (e.headers.map headerJson) := rfl
  have hread : (e.headers.map headerJson).mapM headerOf = .ok e.headers := by
    induction e.headers with
    | nil => rfl
    | cons header headers ih =>
        rw [List.map_cons, List.mapM_cons, headerOf_headerJson, ih]
        rfl
  rw [headersOf_eq, hitems, Json.itemsOf_eq_ok_iff.mpr (.elements rfl)]
  exact hread

/-- A normal endpoint is what its document is read as, and no identifier is handed out for it. -/
theorem Normal.ofJson_toJson (h : e.Normal) (n : Nat) : (ofJson e.toJson).run.run n = (.ok e, n) := by
  have hread : ofJson e.toJson = (do
      let response ← (responseOf e.entries : Except ShapeError Response)
      let request ← (requestOf e.entries : Except ShapeError (Option Request))
      let headers ← (headersOf e.entries : Except ShapeError (List Header))
      return {
        id := e.id, path := e.path, method := e.method.uppered, description := e.description
        headers, response, request } : Issuing EndpointError Endpoint) := rfl
  rw [hread, responseOf_entries h.response, requestOf_entries h.request, headersOf_entries, h.method]
  rfl

/-- **What is read is what its document is read as**: whatever a document gave for the identifier,
the status, the method and the bodies, and whatever was missing in it, the document of the endpoint
gives the same endpoint in all its parts, without a fresh identifier. -/
theorem ofJson_toJson_of_ofJson {data : Json} {n n' : Nat}
    (h : (ofJson data).run.run n = (.ok e, n')) (m : Nat) :
    (ofJson e.toJson).run.run m = (.ok e, m) :=
  (normal_of_ofJson h).ofJson_toJson m

/-- A document with a number for its identifier, a fraction for its status, a value for a body, a
null for another, and a method that is longer in upper case. -/
def unsettled : Json :=
  .object [
    ("id", .int 7), ("path", .str "/users"), ("method", .str "straße"),
    ("headers", .list [.object [("key", .str "X-Trace")]]),
    ("response", .object [("status", .float (Number.Double.ofDecimal false 2015 (-1))),
      ("body", .object [("a", .list [.int 1, .null])])]),
    ("request", .object [("body", .null)])]

/-- What it gives is settled, and stays. -/
theorem ofJson_toJson_of_ofJson_unsettled :
    ∃ e n', (ofJson unsettled).run.run 0 = (.ok e, n') ∧ e.id = "7" ∧ e.method = "STRASSE" ∧
      e.response.status = 201 ∧ e.response.body = .str "\x7b\"a\": [1, null]\x7d" ∧
      e.request.map (·.body) = some .null ∧ (ofJson e.toJson).run.run 5 = (.ok e, 5) := by
  have hpasses : Steps.passes ((ofJson unsettled).run.run 0) (fun e _ =>
      e.id == "7" && e.method == "STRASSE" && e.response.status == 201 &&
        e.response.body == .str "\x7b\"a\": [1, null]\x7d" &&
        e.request.map (·.body) == some .null) = true := by
    decide +kernel
  obtain ⟨e, n', h, hcheck⟩ := Steps.exists_of_passes hpasses
  simp only [Bool.and_eq_true, beq_iff_eq] at hcheck
  obtain ⟨⟨⟨⟨hid, hmethod⟩, hstatus⟩, hbody⟩, hrequest⟩ := hcheck
  exact ⟨e, n', h, hid, hmethod, hstatus, hbody, hrequest, ofJson_toJson_of_ofJson h 5⟩

end Endpoint

end DtoForge
