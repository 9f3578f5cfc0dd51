import Mathlib.Data.List.Forall2
import DtoForge.Loading.Collection
import DtoForge.Proofs.Loading.Documents
import DtoForge.Proofs.Postman.Import

/-! # Collections — what data that holds none is reported as

Stored data is a list of endpoint documents, whatever form it is stored in (`documents?`), and it is
read document by document up to the first that is refused. The loader answers for every refusal but
that of an infinite status. -/

namespace DtoForge.Loading

/-- The endpoint documents of stored data. Exported data has none, nor has what is not recognised. -/
def documents? (data : Json) : Option (List Json) :=
  if Postman.isCollection data then none
  else match data with
    | .list items => some items
    | .object es =>
      match Json.valueOf es "endpoints" with
      | .list items => some items
      | _ => if Entries.has es "path" then some [data] else none
    | _ => none

/-- The endpoint of a document under some identifier. -/
def ReadFrom (d : Json) (e : Endpoint) : Prop :=
  ∃ b id, Endpoint.bare d = .ok b ∧ e = { b with id }

/-- Every endpoint was read from a document. -/
theorem exists_document {docs : List Json} {endpoints : List Endpoint}
    (h : List.Forall₂ ReadFrom docs endpoints) :
    (∀ d ∈ docs, ∃ b, Endpoint.bare d = .ok b) ∧ ∀ e ∈ endpoints, ∃ d ∈ docs, ReadFrom d e := by
  induction h with
  | nil => exact ⟨nofun, nofun⟩
  | @cons d e docs endpoints hread _ ih =>
      obtain ⟨b, id, hb, he⟩ := hread
      refine ⟨List.forall_mem_cons.mpr ⟨⟨b, hb⟩, ih.1⟩, List.forall_mem_cons.mpr ⟨?_, ?_⟩⟩
      · exact ⟨d, List.mem_cons_self, b, id, hb, he⟩
      · intro e' he'
        obtain ⟨d', hd', hread'⟩ := ih.2 e' he'
        exact ⟨d', List.mem_cons_of_mem d hd', hread'⟩

/-- Documents are read up to the first that is refused. -/
theorem run_mapM_ofJson (docs : List Json) (n : Nat) :
    (∃ cause n', docs.mapM Endpoint.bare = .error cause ∧
        (docs.mapM Endpoint.ofJson).run.run n = (.error cause, n')) ∨
      ∃ endpoints n', (docs.mapM Endpoint.ofJson).run.run n = (.ok endpoints, n') ∧
        List.Forall₂ ReadFrom docs endpoints := by
  -- the count moves from document to document, so it is any count in the induction
  induction docs generalizing n with
  | nil => exact .inr ⟨[], n, rfl, .nil⟩
  | cons d docs ih =>
      obtain ⟨id, n₁, hd⟩ := Endpoint.answers_bare d n
      rw [List.mapM_cons, List.mapM_cons]
      cases hbare : Endpoint.bare d with
      | error cause =>
          rw [hbare] at hd
          exact .inl ⟨cause, n₁, rfl, Steps.run_bind_of_error hd⟩
      | ok b =>
          rw [hbare] at hd
          rw [Steps.run_bind_of_ok hd]
          obtain ⟨cause, n₂, hpure, hrun⟩ | ⟨endpoints, n₂, hrun, hread⟩ := ih n₁
          · refine .inl ⟨cause, n₂, ?_, Steps.run_bind_of_error hrun⟩
            rw [hpure]
            rfl
          · refine .inr ⟨_, n₂, Steps.run_bind_of_ok hrun, .cons ⟨b, id, hbare, rfl⟩ hread⟩

/-- What a run that reads documents answers: the first refusal, or a collection of all endpoints. -/
def Collects (docs : List Json) (x : Issuing LoadError Collection) : Prop :=
  ∀ n, (∃ cause, docs.mapM Endpoint.bare = .error cause ∧
      (x.run.run n).1 = .error (.malformed (.endpoint cause))) ∨
    ∃ c, (x.run.run n).1 = .ok c ∧ List.Forall₂ ReadFrom docs c.endpoints

/-- Whatever becomes of the endpoints, once they are read nothing is refused. -/
theorem collects_adapt {docs : List Json}
    {f : List Endpoint → Issuing EndpointError Collection}
    (hf : ∀ endpoints n, ∃ c, ((f endpoints).run.run n).1 = .ok c ∧ c.endpoints = endpoints) :
    Collects docs (ExceptT.adapt (fun cause => .malformed (.endpoint cause))
      (docs.mapM Endpoint.ofJson >>= f)) := by
  intro n
  rw [Steps.run_adapt]
  obtain ⟨cause, n', hpure, hrun⟩ | ⟨endpoints, n', hrun, hread⟩ := run_mapM_ofJson docs n
  · refine .inl ⟨cause, hpure, ?_⟩
    rw [Steps.run_bind_of_error hrun]
    rfl
  · obtain ⟨c, hc, rfl⟩ := hf endpoints n'
    refine .inr ⟨c, ?_, hread⟩
    rw [Steps.run_bind_of_ok hrun, hc]
    rfl

section Forms

variable {data : Json} (environment : Json)

theorem toCollection_exported (h : Postman.isCollection data = true) :
    toCollection data environment = ExceptT.adapt (fun cause => .malformed (.imported cause))
      (Postman.importCollection data environment) := by
  unfold toCollection
  exact if_pos h

/-- Data without documents is not recognised. -/
theorem toCollection_unrecognized (hexported : Postman.isCollection data = false)
    (h : documents? data = none) : toCollection data environment = throw .unrecognized := by
  unfold toCollection
  unfold documents? at h
  simp only [hexported, Bool.false_eq_true, if_false] at h ⊢
  cases data with
  | list items => cases h
  | object es =>
      cases hendpoints : Json.valueOf es "endpoints" with
      | list items => simp [hendpoints] at h
      | _ =>
          cases hpath : Entries.has es "path" with
          | true => simp [hendpoints, hpath] at h
          | false => simp [hendpoints, hpath]
  | _ => rfl

theorem collects_imported (docs : List Json) :
    Collects docs (ExceptT.adapt (fun cause => .malformed (.endpoint cause)) (do
      Collection.fresh (.str "Imported") (.str "") (← docs.mapM Endpoint.ofJson))) :=
  collects_adapt fun _ _ => ⟨_, rfl, rfl⟩

theorem collects_ofJson {es : Entries Json} {items : List Json}
    (h : Json.valueOf es "endpoints" = .list items) :
    Collects items (ExceptT.adapt (fun cause => .malformed (.endpoint cause))
      (Collection.ofJson (.object es))) := by
  have heq : Collection.ofJson (.object es) = items.mapM Endpoint.ofJson >>= fun endpoints => do
      return {
        id := ← Endpoint.idOf es
        endpoints
        name := Json.valueOr es "name" (.str "Untitled")
        description := Json.valueOr es "description" (.str "") } := by
    have hentries : (liftM ((Json.object es).entriesFor "get") :
        Issuing EndpointError (Entries Json)) = pure es := rfl
    unfold Collection.ofJson
    rw [hentries, pure_bind, h]
    cases items <;> rfl
  rw [heq]
  refine collects_adapt fun endpoints n => ?_
  obtain ⟨id, n', hid⟩ := Endpoint.exists_run_idOf EndpointError es n
  rw [Steps.run_bind_of_ok hid]
  exact ⟨_, rfl, rfl⟩

/-- Every form of stored data is read document by document. -/
theorem toCollection_stored {docs : List Json} (h : documents? data = some docs) :
    Collects docs (toCollection data environment) := by
  unfold toCollection
  unfold documents? at h
  cases hexported : Postman.isCollection data with
  | true => simp [hexported] at h
  | false =>
      simp only [hexported, Bool.false_eq_true, if_false] at h ⊢
      cases data with
      | list items =>
          obtain rfl := Option.some.inj h
          exact collects_imported items
      | object es =>
          cases hendpoints : Json.valueOf es "endpoints" with
          | list items =>
              simp only [hendpoints] at h ⊢
              obtain rfl := Option.some.inj h
              exact collects_ofJson hendpoints
          | _ =>
              cases hpath : Entries.has es "path" with
              | true =>
                  simp only [hendpoints, hpath, if_true] at h ⊢
                  obtain rfl := Option.some.inj h
                  have hsingle : [Json.object es].mapM Endpoint.ofJson =
                      (do return [← Endpoint.ofJson (.object es)]) := by
                    simp [List.mapM_cons]
                  rw [← hsingle]
                  exact collects_imported _
              | false => simp [hendpoints, hpath] at h
      | _ => cases h

end Forms

/-! ## Refusals -/

theorem documented_endpoint {cause : EndpointError} :
    Documented (.malformed (.endpoint cause)) ↔ cause.Plain := by
  simp [Documented, LoadError.isDocumented, LoadError.isExpected, MalformedData.errorClass,
    EndpointError.Plain]

theorem documented_imported {cause : Postman.ImportError} (h : cause.Plain) :
    Documented (.malformed (.imported cause)) := by
  cases cause with
  | shape cause => exact bne_iff_ne.mpr h
  | notCollection | url _ => rfl

/-- Data in which the first document that gives no endpoint has an infinite status. -/
def ReachesInfinity (data : Json) : Prop :=
  ∃ before d after, documents? data = some (before ++ d :: after) ∧ (∀ b ∈ before, IsEndpoint b) ∧
    InfiniteStatus d

/-- Documents are refused for the range of a status exactly if they are read up to such a status. -/
theorem mapM_bare_plain_iff {docs : List Json} :
    Steps.FailsWith EndpointError.Plain (docs.mapM Endpoint.bare) ↔
      ¬ ∃ before d after, docs = before ++ d :: after ∧ (∀ b ∈ before, IsEndpoint b) ∧
        InfiniteStatus d := by
  constructor
  · rintro h ⟨before, d, after, hdocs, hbefore, hd⟩
    have hrefused : docs.mapM Endpoint.bare = .error (.shape .infiniteNumber) :=
      Steps.mapM_eq_error_iff.mpr ⟨before, d, after, hdocs,
        fun b hb => Endpoint.exists_bare_iff.mpr (hbefore b hb), Endpoint.bare_infinite hd⟩
    exact h _ hrefused rfl
  · intro h cause hcause
    obtain ⟨before, d, after, hdocs, hbefore, hd⟩ := Steps.mapM_eq_error_iff.mp hcause
    by_contra hrange
    refine h ⟨before, d, after, hdocs, fun b hb => Endpoint.exists_bare_iff.mp (hbefore b hb), ?_⟩
    by_contra hfinite
    exact Endpoint.bare_plain hfinite cause hd hrange

/-- **Data gives a collection or a promised failure, unless the first document that gives no endpoint
has an infinite status**; and whatever else data is refused with, it is the refusal of that. -/
theorem toCollection_documented_iff (data environment : Json) (n : Nat) :
    let answer := ((toCollection data environment).run.run n).1
    (((∃ c, answer = .ok c) ∨ ∃ e, answer = .error e ∧ Documented e) ↔ ¬ ReachesInfinity data) ∧
      ∀ e, answer = .error e → ¬ Documented e →
        e = .malformed (.endpoint (.shape .infiniteNumber)) := by
  intro answer
  rw [← Steps.failsWith_iff]
  cases hdocs : documents? data with
  | none =>
      have hnone : ¬ ReachesInfinity data := by
        rintro ⟨before, d, after, h, -⟩
        cases hdocs.symm.trans h
      have hdocumented : Steps.FailsWith Documented answer := by
        cases hexported : Postman.isCollection data with
        | true =>
            show Steps.FailsWith Documented ((toCollection data environment).run.run n).1
            rw [toCollection_exported environment hexported, Steps.run_adapt]
            refine Steps.FailsWith.mapError fun cause hcause => documented_imported ?_
            exact (Postman.importCollection_yields data environment n).2 cause hcause
        | false =>
            show Steps.FailsWith Documented ((toCollection data environment).run.run n).1
            rw [toCollection_unrecognized environment hexported hdocs]
            exact Steps.failsWith_error rfl
      exact ⟨iff_of_true hdocumented hnone, fun e he h => absurd (hdocumented e he) h⟩
  | some docs =>
      have hreaches : ReachesInfinity data ↔ ∃ before d after, docs = before ++ d :: after ∧
          (∀ b ∈ before, IsEndpoint b) ∧ InfiniteStatus d := by
        simp [ReachesInfinity, hdocs]
      rw [hreaches, ← mapM_bare_plain_iff]
      obtain ⟨cause, hbare, hanswer⟩ | ⟨c, hanswer, hread⟩ :=
        toCollection_stored environment hdocs n
      · have hanswer : answer = .error (.malformed (.endpoint cause)) := hanswer
        rw [hanswer, hbare]
        refine ⟨?_, ?_⟩
        · rw [Steps.failsWith_error_iff, Steps.failsWith_error_iff, documented_endpoint]
        · rintro e ⟨⟩ hnot
          rw [documented_endpoint, not_not] at hnot
          rw [EndpointError.eq_of_range hnot]
      · have hanswer : answer = .ok c := hanswer
        obtain ⟨bs, hbs⟩ := Steps.exists_mapM_eq_ok (exists_document hread).1
        rw [hanswer, hbs]
        exact ⟨iff_of_true (Steps.failsWith_ok c) (Steps.failsWith_ok bs), nofun⟩

/-- An endpoint with a status that is no integer. -/
def statusDocument (status : Number.Double) : Json :=
  .list [.object [("path", .str "/pets"), ("response", .object [("status", .float status)])]]

/-- A number beyond all doubles is read as an infinite one, and as a status it is refused for its
range; what is no number is refused as promised in the same place. -/
theorem toCollection_number_beyond_range :
    Json.read "[\x7b\"path\": \"/pets\", \"response\": \x7b\"status\": 1e999\x7d\x7d]" =
        .ok (statusDocument (.infinite false)) ∧
      ((toCollection (statusDocument (.infinite false)) .null).run.run 0).1.map (·.id) =
        .error (.malformed (.endpoint (.shape .infiniteNumber))) ∧
      ¬ Documented (.malformed (.endpoint (.shape .infiniteNumber))) ∧
      ((toCollection (statusDocument .nan) .null).run.run 0).1.map (·.id) =
        .error (.malformed (.endpoint (.shape .undefinedNumber))) ∧
      Documented (.malformed (.endpoint (.shape .undefinedNumber))) := by
  decide +kernel

end DtoForge.Loading
