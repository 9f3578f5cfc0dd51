import DtoForge.Endpoint
import DtoForge.Proofs.Json.Shape

/-! # Endpoints — which documents give one

Reading an endpoint hands out an identifier, and nothing else in it depends on the run: what a
document gives but for the identifier is `Endpoint.bare`. A document gives an endpoint exactly if it
has the shape of one (`IsEndpoint`), and the only refusal that callers do not answer for is that of
an infinite status (`InfiniteStatus`). -/

namespace DtoForge

theorem freshId_yields {ε : Type} {P : ε → Prop} :
    Steps.Yields (fun _ => True) P (freshId : Issuing ε String) :=
  fun _ => ⟨fun _ _ => trivial, nofun⟩

theorem freshId_follows {ε : Type} :
    Steps.Follows (fun _ _ => True) (freshId : Issuing ε String) freshId :=
  fun _ _ _ _ _ => ⟨_, _, rfl, trivial⟩

/-- A refusal that callers answer for. -/
abbrev EndpointError.Plain (cause : EndpointError) : Prop :=
  cause.errorClass ≠ .range

theorem EndpointError.eq_of_range {cause : EndpointError} (h : cause.errorClass = .range) :
    cause = .shape .infiniteNumber := by
  cases cause with
  | missingPath => cases h
  | shape cause =>
      by_contra hne
      exact ShapeError.plain_iff.mpr (fun hcause => hne (congrArg _ hcause)) h

namespace Endpoint

open EndpointError (Plain)

/-- An endpoint with a text for its path. -/
def HasTextPath (e : Endpoint) : Prop :=
  ∃ path, e.path = .str path

/-- What the entries of a document give but for the identifier. -/
def ofEntries (es : Entries Json) : Except EndpointError Endpoint := do
  let response ← (responseOf es).mapError .shape
  let request ← (requestOf es).mapError .shape
  let headers ← (headersOf es).mapError .shape
  let method ← ((Json.valueOr es "method" (.str "GET")).textFor "upper").mapError .shape
  return {
    id := ""
    path := Json.valueOf es "path"
    method := method.uppered
    description := Json.valueOr es "description" (.str "")
    headers, response, request }

/-- The endpoint of a document but for its identifier. -/
def bare (data : Json) : Except EndpointError Endpoint := do
  unless ← (data.mentions "path").mapError .shape do throw .missingPath
  let es ← (data.entriesFor "get").mapError .shape
  ofEntries es

/-! ## Runs -/

/-- Every run answers like a computation without identifiers, but for the identifier. -/
def Answers (x : Issuing EndpointError Endpoint) (y : Except EndpointError Endpoint) : Prop :=
  ∀ n, ∃ id n', x.run.run n = (y.map fun e => { e with id }, n')

theorem Answers.read {α : Type} {f : α → Issuing EndpointError Endpoint}
    {g : α → Except EndpointError Endpoint} (x : Except ShapeError α)
    (h : ∀ a, Answers (f a) (g a)) :
    Answers ((liftM x : Issuing EndpointError α) >>= f) (x.mapError .shape >>= g) := by
  intro n
  cases x with
  | error cause => exact ⟨"", n, rfl⟩
  | ok a => exact h a n

/-- An identifier is always there. -/
theorem exists_run_idOf (ε : Type) (es : Entries Json) (n : Nat) :
    ∃ id n', (idOf es : Issuing ε String).run.run n = (.ok id, n') := by
  unfold idOf
  split
  · exact ⟨_, _, rfl⟩
  · exact ⟨_, _, rfl⟩

theorem answers_bare (data : Json) : Answers (ofJson data) (bare data) := by
  unfold ofJson bare ofEntries
  refine Answers.read _ fun found => ?_
  cases found with
  | false => exact fun n => ⟨"", n, rfl⟩
  | true =>
      refine Answers.read _ fun es => ?_
      refine Answers.read _ fun response => ?_
      refine Answers.read _ fun request => ?_
      refine Answers.read _ fun headers => ?_
      -- the method is looked at behind the identifier, when the count may have moved on
      intro n
      obtain ⟨id, n', hid⟩ := exists_run_idOf _ es n
      rw [Steps.run_bind_of_ok hid]
      cases (Json.valueOr es "method" (.str "GET")).textFor "upper" with
      | error cause => exact ⟨id, n', rfl⟩
      | ok method => exact ⟨id, n', rfl⟩

/-! ## Shapes -/

/-- The entries of an endpoint document. -/
structure Shaped (es : Entries Json) : Prop where
  path : Entries.has es "path" = true
  /-- The status of the response stands for an integer. -/
  response : ∃ parts, (Json.valueOf es "response").HasParts parts ∧
    ∃ n, (Json.valueOr parts "status" (.int 200)).integer = .ok n
  request : ∃ parts, (Json.valueOf es "request").HasParts parts
  headers : ∃ items, (Json.valueOf es "headers").HasItems items ∧
    ∀ h ∈ items, ∃ parts, h = .object parts
  method : ∃ method, Json.valueOr es "method" (.str "GET") = .str method

/-- Entries whose status is infinite. -/
def HasInfiniteStatus (es : Entries Json) : Prop :=
  ∃ parts sign, Json.valueOf es "response" = .object parts ∧
    Json.valueOf parts "status" = .float (.infinite sign)

variable {es : Entries Json}

theorem responseOf_eq (es : Entries Json) : responseOf es = (do
    let parts ← (Json.valueOf es "response").partsOf
    let status ← (Json.valueOr parts "status" (.int 200)).integer
    return {
      status
      body := bodyText (Json.valueOr parts "body" (.str ""))
      contentType := Json.valueOr parts "contentType" (.str "application/json") }) := by
  unfold responseOf Json.partsOf
  cases (Json.valueOf es "response").given? <;> rfl

theorem requestOf_eq (es : Entries Json) : requestOf es =
    if (Json.valueOf es "request").isGiven then do
      let parts ← (Json.valueOf es "request").partsOf
      return some {
        body := bodyText (Json.valueOf parts "body")
        contentType := Json.valueOr parts "contentType" (.str "application/json") }
    else .ok none := by
  unfold requestOf Json.partsOf Json.given?
  cases (Json.valueOf es "request").isGiven <;> rfl

theorem headersOf_eq (es : Entries Json) :
    headersOf es = (Json.valueOf es "headers").itemsOf >>= fun items => items.mapM headerOf := by
  unfold headersOf Json.itemsOf
  cases (Json.valueOf es "headers").given? <;> rfl

theorem exists_responseOf_iff : (∃ r, responseOf es = .ok r) ↔
    ∃ parts, (Json.valueOf es "response").HasParts parts ∧
      ∃ n, (Json.valueOr parts "status" (.int 200)).integer = .ok n := by
  rw [responseOf_eq]
  simp only [Steps.exists_bind_eq_ok_iff, Json.partsOf_eq_ok_iff, Steps.exists_pure, and_true]

theorem exists_requestOf_iff : (∃ r, requestOf es = .ok r) ↔
    ∃ parts, (Json.valueOf es "request").HasParts parts := by
  rw [requestOf_eq]
  cases hgiven : (Json.valueOf es "request").isGiven with
  | true =>
      simp only [if_true, Steps.exists_bind_eq_ok_iff, Json.partsOf_eq_ok_iff, Steps.exists_pure,
        and_true]
  | false => exact iff_of_true ⟨none, rfl⟩ ⟨[], .absent hgiven⟩

theorem exists_headersOf_iff : (∃ hs, headersOf es = .ok hs) ↔
    ∃ items, (Json.valueOf es "headers").HasItems items ∧
      ∀ h ∈ items, ∃ parts, h = .object parts := by
  have hheader : ∀ h : Json, (∃ header, headerOf h = .ok header) ↔ ∃ parts, h = .object parts := by
    intro h
    rw [headerOf]
    simp only [Steps.exists_bind_eq_ok_iff, Json.entriesFor_eq_ok_iff, Steps.exists_pure, and_true]
  rw [headersOf_eq]
  simp only [Steps.exists_bind_eq_ok_iff, Json.itemsOf_eq_ok_iff, Steps.exists_mapM_eq_ok_iff,
    hheader]

theorem exists_methodOf_iff : (∃ method, (Json.valueOr es "method" (.str "GET")).textFor "upper" =
      .ok method) ↔ ∃ method, Json.valueOr es "method" (.str "GET") = .str method := by
  cases Json.valueOr es "method" (.str "GET") <;> simp [Json.textFor]

/-- Entries with a path give an endpoint exactly if they have the shape of one. -/
theorem exists_ofEntries_iff (hpath : Entries.has es "path" = true) :
    (∃ e, ofEntries es = .ok e) ↔ Shaped es := by
  rw [ofEntries]
  simp only [Steps.exists_bind_eq_ok_iff, Steps.mapError_eq_ok_iff, Steps.exists_pure, and_true,
    exists_and_right, exists_responseOf_iff, exists_requestOf_iff, exists_headersOf_iff,
    exists_methodOf_iff]
  constructor
  · rintro ⟨hresponse, hrequest, hheaders, hmethod⟩
    exact ⟨hpath, hresponse, hrequest, hheaders, hmethod⟩
  · intro h
    exact ⟨h.response, h.request, h.headers, h.method⟩

theorem bare_object (es : Entries Json) : bare (.object es) =
    if Entries.has es "path" then ofEntries es else .error .missingPath := by
  rw [bare, Json.mentions]
  cases Entries.has es "path" <;> rfl

/-- What is no object is refused in a way that callers answer for. -/
theorem bare_other {data : Json} (h : ∀ es, data ≠ .object es) :
    ∃ cause, bare data = .error cause ∧ cause.Plain := by
  cases hmentions : data.mentions "path" with
  | error cause =>
      refine ⟨.shape cause, ?_, data.mentions_plain _ cause hmentions⟩
      rw [bare, hmentions]
      rfl
  | ok found =>
      cases found with
      | false =>
          refine ⟨.missingPath, ?_, nofun⟩
          rw [bare, hmentions]
          rfl
      | true =>
          have hentries : data.entriesFor "get" = .error (.noMember data.kind "get") := by
            cases data with
            | object es => exact absurd rfl (h es)
            | _ => rfl
          refine ⟨.shape (.noMember data.kind "get"), ?_, nofun⟩
          rw [bare, hmentions, hentries]
          rfl

end Endpoint

/-- A document of an endpoint. -/
def IsEndpoint (data : Json) : Prop :=
  ∃ es, data = .object es ∧ Endpoint.Shaped es

/-- A document with a path and an infinite status. -/
def InfiniteStatus (data : Json) : Prop :=
  ∃ es, data = .object es ∧ Entries.has es "path" = true ∧ Endpoint.HasInfiniteStatus es

namespace Endpoint

open EndpointError (Plain)

variable {data : Json}

/-- **A document gives an endpoint exactly if it is the document of one.** -/
theorem exists_bare_iff : (∃ e, bare data = .ok e) ↔ IsEndpoint data := by
  by_cases hobject : ∃ es, data = .object es
  · obtain ⟨es, rfl⟩ := hobject
    have hshaped : IsEndpoint (.object es) ↔ Shaped es := by simp [IsEndpoint]
    rw [hshaped, bare_object]
    split
    next hpath => exact exists_ofEntries_iff hpath
    next hpath => exact iff_of_false nofun fun h => hpath h.path
  · obtain ⟨cause, hcause, -⟩ := bare_other fun es h => hobject ⟨es, h⟩
    rw [hcause]
    exact iff_of_false nofun fun ⟨es, h, _⟩ => hobject ⟨es, h⟩

/-! ## Refusals -/

theorem plain_shape {α : Type} {x : Except ShapeError α} (h : Steps.FailsWith ShapeError.Plain x) :
    Steps.FailsWith Plain (x.mapError .shape) :=
  Steps.FailsWith.mapError h

/-- Where there is no status, neither default is a number with a fraction. -/
theorem status_eq_float_iff {parts : Entries Json} {x : Number.Double} :
    Json.valueOr parts "status" (.int 200) = .float x ↔ Json.valueOf parts "status" = .float x := by
  unfold Json.valueOr Json.valueOf
  cases Entries.get? parts "status" <;> simp

theorem responseOf_infinite {es : Entries Json} (h : HasInfiniteStatus es) :
    responseOf es = .error .infiniteNumber := by
  obtain ⟨parts, sign, hparts, hstatus⟩ := h
  have hread : (Json.valueOf es "response").partsOf = .ok parts := by
    rw [hparts, Json.partsOf_eq_ok_iff]
    exact .object parts
  rw [responseOf_eq, hread]
  show (Json.valueOr parts "status" (.int 200)).integer >>= _ = _
  rw [status_eq_float_iff.mpr hstatus]
  rfl

theorem responseOf_plain {es : Entries Json} (h : ¬ HasInfiniteStatus es) :
    Steps.FailsWith ShapeError.Plain (responseOf es) := by
  rw [responseOf_eq]
  refine Steps.FailsWith.bind (Json.partsOf_plain _) fun parts hparts => ?_
  refine Steps.FailsWith.bind ?_ fun status _ => Steps.failsWith_ok _
  rw [Json.integer_plain_iff]
  intro sign hstatus
  generalize hresponse : Json.valueOf es "response" = v at hparts
  cases Json.partsOf_eq_ok_iff.mp hparts with
  | object => exact h ⟨parts, sign, hresponse, status_eq_float_iff.mp hstatus⟩
  | absent => cases hstatus

theorem requestOf_plain (es : Entries Json) :
    Steps.FailsWith ShapeError.Plain (requestOf es) := by
  rw [requestOf_eq]
  split
  · exact Steps.FailsWith.bind (Json.partsOf_plain _) fun parts _ => Steps.failsWith_ok _
  · exact Steps.failsWith_ok _

theorem headersOf_plain (es : Entries Json) :
    Steps.FailsWith ShapeError.Plain (headersOf es) := by
  rw [headersOf_eq]
  refine Steps.FailsWith.bind (Json.itemsOf_plain _) fun items _ => ?_
  refine Steps.failsWith_mapM fun header _ => ?_
  exact Steps.FailsWith.bind (Json.entriesFor_plain _ _) fun parts _ => Steps.failsWith_ok _

theorem ofEntries_plain {es : Entries Json} (h : ¬ HasInfiniteStatus es) :
    Steps.FailsWith Plain (ofEntries es) := by
  rw [ofEntries]
  refine Steps.FailsWith.bind (plain_shape (responseOf_plain h)) fun response _ => ?_
  refine Steps.FailsWith.bind (plain_shape (requestOf_plain es)) fun request _ => ?_
  refine Steps.FailsWith.bind (plain_shape (headersOf_plain es)) fun headers _ => ?_
  refine Steps.FailsWith.bind (plain_shape (Json.textFor_plain _ _)) fun method _ => ?_
  exact Steps.failsWith_ok _

theorem bare_infinite (h : InfiniteStatus data) : bare data = .error (.shape .infiniteNumber) := by
  obtain ⟨es, rfl, hpath, hstatus⟩ := h
  rw [bare_object, if_pos hpath, ofEntries, responseOf_infinite hstatus]
  rfl

/-- **Only an infinite status is refused for its range.** -/
theorem bare_plain (h : ¬ InfiniteStatus data) : Steps.FailsWith Plain (bare data) := by
  by_cases hobject : ∃ es, data = .object es
  · obtain ⟨es, rfl⟩ := hobject
    rw [bare_object]
    split
    next hpath => exact ofEntries_plain fun hstatus => h ⟨es, rfl, hpath, hstatus⟩
    next => exact Steps.failsWith_error nofun
  · obtain ⟨cause, hcause, hplain⟩ := bare_other fun es h => hobject ⟨es, h⟩
    rw [hcause]
    exact Steps.failsWith_error hplain

/-! ## Bodies -/

/-- A body that is kept is a text or missing. -/
theorem bodyText_cases (v : Json) : bodyText v = .null ∨ ∃ body, bodyText v = .str body := by
  cases v with
  | null => exact .inl rfl
  | _ => exact .inr ⟨_, rfl⟩

theorem body_of_responseOf {es : Entries Json} {r : Response} (h : responseOf es = .ok r) :
    ∃ v, r.body = bodyText v := by
  rw [responseOf_eq] at h
  obtain ⟨parts, -, h⟩ := Steps.exists_of_bind_eq_ok h
  obtain ⟨status, -, h⟩ := Steps.exists_of_bind_eq_ok h
  obtain rfl := Except.ok.inj h
  exact ⟨_, rfl⟩

theorem body_of_requestOf {es : Entries Json} {r : Request} (h : requestOf es = .ok (some r)) :
    ∃ v, r.body = bodyText v := by
  rw [requestOf_eq] at h
  split at h
  · obtain ⟨parts, -, h⟩ := Steps.exists_of_bind_eq_ok h
    obtain rfl := Option.some.inj (Except.ok.inj h)
    exact ⟨_, rfl⟩
  · cases h

/-- An endpoint has the parts that entries give. -/
structure ReadAs (es : Entries Json) (e : Endpoint) : Prop where
  path : e.path = Json.valueOf es "path"
  description : e.description = Json.valueOr es "description" (.str "")
  response : responseOf es = .ok e.response
  request : requestOf es = .ok e.request
  headers : headersOf es = .ok e.headers
  method : ∃ method, (Json.valueOr es "method" (.str "GET")).textFor "upper" = .ok method ∧
    e.method = method.uppered

theorem readAs_of_ofEntries {es : Entries Json} {e : Endpoint} (h : ofEntries es = .ok e) :
    ReadAs es e := by
  obtain ⟨response, hresponse, h⟩ := Steps.exists_of_bind_eq_ok h
  obtain ⟨request, hrequest, h⟩ := Steps.exists_of_bind_eq_ok h
  obtain ⟨headers, hheaders, h⟩ := Steps.exists_of_bind_eq_ok h
  obtain ⟨method, hmethod, h⟩ := Steps.exists_of_bind_eq_ok h
  obtain rfl := Except.ok.inj h
  rw [Steps.mapError_eq_ok_iff] at hresponse hrequest hheaders hmethod
  exact ⟨rfl, rfl, hresponse, hrequest, hheaders, method, hmethod, rfl⟩

/-- An endpoint has the parts that its document gives, whatever its identifier. -/
theorem exists_readAs_of_ofJson {n n' : Nat} {e : Endpoint}
    (h : (ofJson data).run.run n = (.ok e, n')) : ∃ es, data = .object es ∧ ReadAs es e := by
  obtain ⟨id, n₁, hrun⟩ := answers_bare data n
  rw [h] at hrun
  obtain ⟨b, hb, rfl⟩ := Steps.exists_of_map_eq_ok (Prod.mk.inj hrun).1.symm
  obtain ⟨es, rfl, hshaped⟩ := exists_bare_iff.mp ⟨b, hb⟩
  rw [bare_object, if_pos hshaped.path] at hb
  obtain ⟨hpath, hdescription, hresponse, hrequest, hheaders, hmethod⟩ := readAs_of_ofEntries hb
  exact ⟨es, rfl, hpath, hdescription, hresponse, hrequest, hheaders, hmethod⟩

theorem bodyFor_of_ofEntries {es : Entries Json} {e : Endpoint} (h : ofEntries es = .ok e)
    (role : Role) : e.bodyFor role = .null ∨ ∃ body, e.bodyFor role = .str body := by
  have hread := readAs_of_ofEntries h
  cases role with
  | response =>
      obtain ⟨v, hv⟩ := body_of_responseOf hread.response
      simpa only [bodyFor, hv] using bodyText_cases v
  | request =>
      cases hrequest : e.request with
      | none =>
          rw [bodyFor, hrequest]
          exact .inl rfl
      | some r =>
          obtain ⟨v, hv⟩ := body_of_requestOf (hrequest ▸ hread.request)
          simpa only [bodyFor, hrequest, Option.map_some, Option.getD_some, hv] using bodyText_cases v

/-- The bodies of an endpoint document are kept as texts. -/
theorem bodyFor_of_bare {e : Endpoint} (h : bare data = .ok e) (role : Role) :
    e.bodyFor role = .null ∨ ∃ body, e.bodyFor role = .str body := by
  obtain ⟨es, rfl, hshaped⟩ := exists_bare_iff.mp ⟨e, h⟩
  rw [bare_object, if_pos hshaped.path] at h
  exact bodyFor_of_ofEntries h role

end Endpoint

end DtoForge
