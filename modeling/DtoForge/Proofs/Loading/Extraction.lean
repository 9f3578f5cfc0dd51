import DtoForge.Proofs.Extraction.Independence
import DtoForge.Proofs.Loading.Collections

/-! # Loaded bodies — which collections can be extracted

A body that is no document is noted and skipped. What ends a run is a body that is neither a text
nor missing, an object under a path that is no text, or a body that is given up for an integer.
Stored endpoints have texts for bodies and exported ones texts for paths, so of the first two only
the other can happen from each kind of data; the third can happen from both. -/

namespace DtoForge.Extraction

/-! ## Bodies that can be read -/

/-- A body that is a text or missing. -/
def HasTextBody (b : Endpoint × Role) : Prop :=
  b.1.bodyFor b.2 = .null ∨ ∃ body, b.1.bodyFor b.2 = .str body

/-- A body that can be read: a text that is not given up, or missing, and, if it is an object, under
a path that is a text. -/
structure Readable (b : Endpoint × Role) : Prop where
  short : longInteger? b = none
  body : HasTextBody b
  path : HoldsObject b → b.1.HasTextPath

theorem Readable.exists_outcome {b : Endpoint × Role} (h : Readable b) :
    ∃ reading, readBody b.1 b.2 = .ok reading ∧ Outcome b reading :=
  Extraction.exists_outcome h.short h.path h.body

theorem readable_of_readBody {b : Endpoint × Role} {reading : Reading}
    (h : readBody b.1 b.2 = .ok reading) : Readable b where
  short := by
    cases hlong : longInteger? b with
    | none => rfl
    | some digits => cases h.symm.trans (readBody_longInteger hlong).1
  body := by
    cases hbody : b.1.bodyFor b.2 with
    | null => exact .inl hbody
    | str body => exact .inr ⟨body, hbody⟩
    | _ => simp [readBody, hbody] at h
  path := by
    rintro ⟨body, entries, hbody, hblank, hread⟩
    cases hpath : b.1.path with
    | str path => exact ⟨path, hpath⟩
    | _ =>
        simp only [readBody, hbody, hblank, hread, hpath, Schema.infer] at h
        cases h

/-! ## Runs -/

theorem readBodies_eq_ok_iff (bodies : List (Endpoint × Role)) (r : Run) :
    (readBodies bodies r).1 = .ok () ↔ ∀ b ∈ bodies, Readable b := by
  induction bodies generalizing r with
  | nil => exact iff_of_true rfl fun b hb => absurd hb List.not_mem_nil
  | cons b bodies ih =>
      rw [List.forall_mem_cons, readBodies]
      cases hreading : readBody b.1 b.2 with
      | error cause =>
          refine iff_of_false (fun hok => by cases hok) fun h => ?_
          obtain ⟨reading, hok, -⟩ := h.1.exists_outcome
          cases hreading.symm.trans hok
      | ok reading => exact (ih _).trans (and_iff_right (readable_of_readBody hreading)).symm

section Bad

variable {bodies : List (Endpoint × Role)}

/-- Bad bodies are noted in order. -/
theorem readBodies_refused (h : ∀ b ∈ bodies, Readable b) (r : Run) :
    (readBodies bodies r).2.refused = r.refused ++ bodies.filterMap refusal? := by
  induction bodies generalizing r with
  | nil => simp [readBodies]
  | cons b bodies ih =>
      obtain ⟨hb, hbodies⟩ := List.forall_mem_cons.mp h
      obtain ⟨reading, hreading, houtcome⟩ := hb.exists_outcome
      rw [readBodies, hreading]
      show (readBodies bodies (r.take reading)).2.refused = _
      rw [ih hbodies]
      cases houtcome with
      | nothing hnone => simp [Run.take, hnone]
      | refused hbad => simp [Run.take, hbad]
      | object hnone => simp [Run.take, hnone]

/-- Bad bodies have no roots. -/
theorem rootsOf_filter (h : ∀ b ∈ bodies, Readable b) :
    rootsOf (bodies.filter fun b => (refusal? b).isNone) = rootsOf bodies := by
  induction bodies with
  | nil => rfl
  | cons b bodies ih =>
      obtain ⟨hb, hbodies⟩ := List.forall_mem_cons.mp h
      obtain ⟨reading, hreading, houtcome⟩ := hb.exists_outcome
      cases houtcome with
      | nothing hnone | object hnone => simp [rootsOf, hreading, hnone, ih hbodies]
      | refused hbad => simp [rootsOf, hreading, hbad, ih hbodies, Reading.root?]

end Bad

/-- **A run goes through exactly if every wanted body can be read.** Then the bad bodies are noted in
order, and the objects are those that are found without them. -/
theorem run_eq_ok_iff (endpoints : List Endpoint) (roles : List Role) :
    let bodies := wantedBodies endpoints roles
    ((run endpoints roles).1 = .ok () ↔ ∀ b ∈ bodies, Readable b) ∧
      ((∀ b ∈ bodies, Readable b) → (run endpoints roles).2.refused = bodies.filterMap refusal? ∧
        (run endpoints roles).2.objects =
          (readBodies (bodies.filter fun b => (refusal? b).isNone) {}).2.objects) := by
  intro bodies
  refine ⟨readBodies_eq_ok_iff bodies {}, fun h => ⟨readBodies_refused h {}, ?_⟩⟩
  show (readBodies bodies {}).2.table.objects = (readBodies _ {}).2.table.objects
  rw [readBodies_table, readBodies_table, rootsOf_filter h]

end DtoForge.Extraction

namespace DtoForge.Loading

open Extraction (HasTextBody HoldsObject Readable longInteger? refusal? readBodies run wantedBodies)

section Loaded

variable {data environment : Json} {n n' : Nat} {c : Collection}

/-- The endpoints of exported data have texts for paths. -/
theorem hasTextPath_of_exported (h : (toCollection data environment).run.run n = (.ok c, n'))
    (hexported : Postman.isCollection data = true) : ∀ e ∈ c.endpoints, e.HasTextPath := by
  rw [toCollection_exported environment hexported, Steps.run_adapt] at h
  exact (Postman.importCollection_yields data environment n).1 c
    (Steps.eq_ok_of_mapError (Prod.mk.inj h).1)

/-- The endpoints of stored data have texts for bodies. -/
theorem hasTextBody_of_stored (h : (toCollection data environment).run.run n = (.ok c, n'))
    (hexported : Postman.isCollection data = false) :
    ∀ e ∈ c.endpoints, ∀ role, HasTextBody (e, role) := by
  cases hdocs : documents? data with
  | none =>
      rw [toCollection_unrecognized environment hexported hdocs] at h
      cases h
  | some docs =>
      obtain ⟨cause, -, hanswer⟩ | ⟨c', hanswer, hread⟩ := toCollection_stored environment hdocs n
      · rw [h] at hanswer
        cases hanswer
      · rw [h] at hanswer
        obtain rfl := Except.ok.inj hanswer
        intro e he role
        obtain ⟨d, -, b, id, hbare, rfl⟩ := (exists_document hread).2 e he
        cases role with
        | response => exact Endpoint.bodyFor_of_bare hbare .response
        | request => exact Endpoint.bodyFor_of_bare hbare .request

/-- **Which loaded collections can be extracted**: those of which no wanted body is given up for an
integer, exported ones if besides every wanted body is a text or missing, stored ones if every
wanted body that is an object stands under a path that is a text. Then the bad bodies are noted in
order, and the objects are those that are found without them. -/
theorem run_of_toCollection (h : (toCollection data environment).run.run n = (.ok c, n'))
    (roles : List Role) :
    let bodies := wantedBodies c.endpoints roles
    let extraction := run c.endpoints roles
    (extraction.1 = .ok () ↔ (∀ b ∈ bodies, longInteger? b = none) ∧
      if Postman.isCollection data then ∀ b ∈ bodies, HasTextBody b
      else ∀ b ∈ bodies, HoldsObject b → b.1.HasTextPath) ∧
    (extraction.1 = .ok () → extraction.2.refused = bodies.filterMap refusal? ∧
      extraction.2.objects =
        (readBodies (bodies.filter fun b => (refusal? b).isNone) {}).2.objects) := by
  intro bodies extraction
  obtain ⟨hok, hbad⟩ := Extraction.run_eq_ok_iff c.endpoints roles
  refine ⟨hok.trans ?_, fun h => hbad (hok.mp h)⟩
  cases hexported : Postman.isCollection data with
  | true =>
      have hpath := hasTextPath_of_exported h hexported
      refine ⟨fun h => ⟨fun b hb => (h b hb).short, fun b hb => (h b hb).body⟩, fun h b hb => ?_⟩
      have hmem := (Extraction.mem_wantedBodies.mp hb).1
      exact ⟨h.1 b hb, h.2 b hb, fun _ => hpath b.1 hmem⟩
  | false =>
      have hbody := hasTextBody_of_stored h hexported
      refine ⟨fun h => ⟨fun b hb => (h b hb).short, fun b hb => (h b hb).path⟩, fun h b hb => ?_⟩
      have hmem := (Extraction.mem_wantedBodies.mp hb).1
      exact ⟨h.1 b hb, hbody b.1 hmem b.2, h.2 b hb⟩

end Loaded

/-- Two stored endpoints, the first with a body that is no document. -/
def torn : Json :=
  .list [
    .object [("id", .str "torn"), ("path", .str "/a"),
      ("response", .object [("body", .str "\x7b\"x\":")])],
    .object [("id", .str "whole"), ("path", .str "/b"),
      ("response", .object [("body", .object [("x", .int 1)])])]]

/-- The bad body does not keep the other from being extracted. -/
theorem run_of_toCollection_torn :
    ∃ c n', (toCollection torn .null).run.run 0 = (.ok c, n') ∧
      (run c.endpoints [.response]).1 = .ok () ∧
      (run c.endpoints [.response]).2.refused.map (·.endpointId) = ["torn"] := by
  have hpasses : Steps.passes ((toCollection torn .null).run.run 0) (fun c _ =>
      c.endpoints.all (fun e => e.path.text?.isSome) &&
        (wantedBodies c.endpoints [.response]).all (fun b => (longInteger? b).isNone) &&
        ((wantedBodies c.endpoints [.response]).filterMap refusal?).map (·.endpointId) ==
          ["torn"]) = true := by
    decide +kernel
  obtain ⟨c, n', h, hcheck⟩ := Steps.exists_of_passes hpasses
  rw [Bool.and_eq_true, Bool.and_eq_true, List.all_eq_true, List.all_eq_true, beq_iff_eq] at hcheck
  obtain ⟨⟨hpaths, hshort⟩, hrefused⟩ := hcheck
  obtain ⟨hgoes, hbad⟩ := run_of_toCollection h [.response]
  have hok : (run c.endpoints [.response]).1 = .ok () := by
    refine hgoes.mpr ⟨fun b hb => Option.isNone_iff_eq_none.mp (hshort b hb), fun b hb _ => ?_⟩
    have hpath := hpaths b.1 (Extraction.mem_wantedBodies.mp hb).1
    cases htext : b.1.path with
    | str path => exact ⟨path, htext⟩
    | _ => simp [htext, Json.text?] at hpath
  exact ⟨c, n', h, hok, by rw [(hbad hok).1, hrefused]⟩

/-- An exported example whose body is a number. -/
def numberForBody : Json :=
  .object [
    ("info", .object [("name", .str "Shop"), ("schema", .str "https://schema.getpostman.com/")]),
    ("item", .list [.object [
      ("request", .object [("url", .str "/pets")]),
      ("response", .list [.object [("code", .int 200), ("body", .int 5)]])]])]

/-- A stored endpoint whose path is a number. -/
def numberForPath : Json :=
  .object [("path", .int 5), ("response", .object [("body", .object [("x", .int 1)])])]

/-- Both are loaded, and both end the extraction. -/
theorem run_number_for_text :
    (∃ c n', (toCollection numberForBody .null).run.run 0 = (.ok c, n') ∧
      (run c.endpoints).1 = .error (.noMember .int "strip")) ∧
    ∃ c n', (toCollection numberForPath .null).run.run 0 = (.ok c, n') ∧
      (run c.endpoints).1 = .error (.noMember .int "split") := by
  have hends : ∀ data member, Steps.passes ((toCollection data .null).run.run 0)
      (fun c _ => decide ((run c.endpoints).1 = .error (.noMember .int member))) = true →
      ∃ c n', (toCollection data .null).run.run 0 = (.ok c, n') ∧
        (run c.endpoints).1 = .error (.noMember .int member) := by
    intro data member hpasses
    obtain ⟨c, n', h, hcheck⟩ := Steps.exists_of_passes hpasses
    exact ⟨c, n', h, of_decide_eq_true hcheck⟩
  exact ⟨hends _ _ (by decide +kernel), hends _ _ (by decide +kernel)⟩

end DtoForge.Loading
