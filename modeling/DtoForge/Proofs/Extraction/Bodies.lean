import Mathlib.Data.List.Forall2
import DtoForge.Extraction
import DtoForge.Proofs.Endpoint.Bodies
import DtoForge.Proofs.Json.Remainder
import DtoForge.Proofs.Unicode.Ascii

/-! # Bodies in extraction — values and their texts are extracted alike

A run looks at nothing of an endpoint but what its bodies are read as (`takeReadings`), and two texts
that stand for one value are read as the same. So it does not matter whether documents give their
bodies as values or as texts that stand for these. -/

namespace DtoForge

/-! ## Blank texts -/

namespace Json

/-- Characters of which the first is not blank. -/
def StartsInk (cs : List Char) : Prop :=
  ∃ c tail, cs = c :: tail ∧ Unicode.isBlank c = false

theorem startsInk_of_readWhole {cs : List Char} {answer : List Char × List Char}
    (h : readWhole cs = some answer) : StartsInk cs := by
  unfold readWhole at h
  split at h
  next rest => exact ⟨'0', rest, rfl, by decide +kernel⟩
  next c tail _ =>
    split at h
    next hdigit =>
      have halnum : c.isAlphanum = true := by rw [Char.isAlphanum, hdigit, Bool.or_true]
      exact ⟨c, tail, rfl, Unicode.not_isBlank_of_isAlphanum halnum⟩
    next => cases h
  next => cases h

theorem startsInk_of_readNumber {cs : List Char} {answer : Json × List Char}
    (h : readNumber cs = .ok answer) : StartsInk cs := by
  unfold readNumber at h
  split at h
  next negative unsigned hsign =>
    split at h
    next => cases h
    next whole afterWhole hwhole =>
      split at hsign
      next rest => exact ⟨'-', rest, rfl, by decide +kernel⟩
      next =>
        cases hsign
        exact startsInk_of_readWhole hwhole

theorem startsInk_scalarChars {ps : List Point} {answer : Json × List Point}
    (h : readScalar ps = .ok answer) : StartsInk (scalarChars ps) := by
  have hwords : words.all (fun w => w.1.head?.any (!Unicode.isBlank ·)) = true := by decide +kernel
  unfold readScalar at h
  dsimp only at h
  split at h
  next word value hfound =>
    have hword := List.all_eq_true.mp hwords _ (List.mem_of_find?_eq_some hfound)
    obtain ⟨c, hhead, hblank⟩ := (Option.any_eq_true _ _).mp hword
    obtain ⟨tail, rfl⟩ := List.head?_eq_some_iff.mp hhead
    have hstart := List.find?_some hfound
    obtain ⟨rest, hrest⟩ := List.isPrefixOf_iff_prefix.mp hstart
    exact ⟨c, tail ++ rest, hrest.symm, (Bool.not_eq_true' _).mp hblank⟩
  next =>
    obtain ⟨_, hnumber, -⟩ := Steps.exists_of_map_eq_ok h
    exact startsInk_of_readNumber (Steps.eq_ok_of_mapError hnumber)

/-- What a value is read from holds a character that is not blank. -/
theorem exists_ink_of_readValue {fuel : Nat} {ps : List Point} {answer : Json × List Point}
    (h : readValue fuel ps = .ok answer) : ∃ c, .char c ∈ ps ∧ Unicode.isBlank c = false := by
  unfold readValue at h
  split at h
  next => cases h
  next rest => exact ⟨'"', List.mem_cons_self, by decide +kernel⟩
  next rest => exact ⟨'\x7b', List.mem_cons_self, by decide +kernel⟩
  next rest => exact ⟨'[', List.mem_cons_self, by decide +kernel⟩
  next =>
    obtain ⟨c, tail, hchars, hblank⟩ := startsInk_scalarChars h
    refine ⟨c, (scalarChars_isPrefix _).subset ?_, hblank⟩
    rw [hchars]
    exact List.mem_cons_self

/-- A text that stands for a value is not blank. -/
theorem not_isBlankText_of_read {text : RawText} {v : Json} (h : read text = .ok v) :
    Unicode.isBlankText text.legible = false := by
  have hall := Steps.eq_ok_of_mapError h
  unfold readAll at hall
  split at hall
  · cases hall
  · obtain ⟨⟨value, rest⟩, hvalue, -⟩ := Steps.exists_of_bind_eq_ok hall
    obtain ⟨c, hmem, hblank⟩ := exists_ink_of_readValue hvalue
    have hpoint : .char c ∈ text.points := (List.dropWhile_sublist isSpacing).subset hmem
    rw [Unicode.isBlankText, RawText.toList_legible, List.all_eq_false]
    exact ⟨c, List.mem_map_of_mem hpoint, by simp [hblank]⟩

end Json

namespace Extraction

open Endpoint (GivesBody setBody withBody)

/-! ## Readings -/

section Read

variable {e e' : Endpoint} {role : Role}

/-- Two texts for one value are read as the same. -/
theorem readBody_congr {text text' : RawText} {v : Json} (hbody : e.bodyFor role = .str text)
    (hbody' : e'.bodyFor role = .str text') (hread : Json.read text = .ok v)
    (hread' : Json.read text' = .ok v) (hid : e.id = e'.id) (hpath : e.path = e'.path)
    (hmethod : e.method = e'.method) : readBody e role = readBody e' role := by
  have hblank := Json.not_isBlankText_of_read hread
  have hblank' := Json.not_isBlankText_of_read hread'
  simp only [readBody, hbody, hbody', hblank, hblank', hread, hread', hid, hpath, hmethod]

/-- The text of one body is as good as another for the same value. -/
theorem readBody_setBody {text text' : RawText} {v : Json} (hread : Json.read text = .ok v)
    (hread' : Json.read text' = .ok v) (e : Endpoint) (role : Role) :
    readBody (setBody role (.str text) e) = readBody (setBody role (.str text') e) := by
  funext role'
  cases role with
  | response =>
      cases role' with
      | response => exact readBody_congr rfl rfl hread hread' rfl rfl rfl
      | request => rfl
  | request =>
      cases role' with
      | response => rfl
      | request =>
          cases hrequest : e.request with
          | none => simp only [setBody, hrequest, Option.map_none]
          | some r =>
              refine readBody_congr ?_ ?_ hread hread' rfl rfl rfl
              · simp only [setBody, Endpoint.bodyFor, hrequest, Option.map_some, Option.getD_some]
              · simp only [setBody, Endpoint.bodyFor, hrequest, Option.map_some, Option.getD_some]

end Read

/-- The run after readings in order, up to the first body that cannot be read. -/
def takeReadings : List (Except ShapeError Reading) → Run → Except ShapeError Unit × Run
  | [], r => (.ok (), r)
  | .ok reading :: rest, r => takeReadings rest (r.take reading)
  | .error cause :: _, r => (.error cause, r)

theorem readBodies_eq (bodies : List (Endpoint × Role)) (r : Run) :
    readBodies bodies r = takeReadings (bodies.map fun b => readBody b.1 b.2) r := by
  induction bodies generalizing r with
  | nil => rfl
  | cons b bodies ih =>
      rw [readBodies, List.map_cons]
      cases readBody b.1 b.2 with
      | error cause => rfl
      | ok reading => exact ih (r.take reading)

/-- A run goes by what the bodies of each endpoint are read as. -/
theorem run_eq (endpoints : List Endpoint) (roles : List Role) :
    run endpoints roles = takeReadings ((endpoints.map readBody).flatMap fun readings =>
      ([.response, .request].filter roles.contains).map readings) {} := by
  rw [run, readBodies_eq, wantedBodies, List.map_flatMap, List.flatMap_map]
  simp only [List.map_map]
  rfl

/-! ## Documents -/

/-- A document, and the same document with texts in the place of some bodies that it gives as values.
Any text that stands for the value will do. -/
inductive Retold (data : Json) : Json → Prop
  | refl : Retold data data
  | tell {data' : Json} {role : Role} {v : Json} {text : String} : Retold data data' →
      GivesBody data' role v → v.kind ≠ .null → v.kind ≠ .str → Json.read text = .ok v →
      Retold data (withBody role (.str text) data')

/-- A document that is told otherwise gives an endpoint whose bodies are read as the same, or it is
refused alike. -/
theorem Retold.readBody_ofJson {data data' : Json} (h : Retold data data') :
    readBody <$> Endpoint.ofJson data = readBody <$> Endpoint.ofJson data' := by
  induction h with
  | refl => rfl
  | @tell data' role v text _ hgives hnull htext hread ih =>
      have hwritten : Json.read (v.write .line) = .ok v :=
        Json.read_write rfl (Json.exists_read_iff.mp ⟨text, hread⟩)
      have hsame : (fun e => readBody (setBody role (.str text) e)) =
          fun e => readBody (setBody role (bodyText v) e) := by
        rw [bodyText_eq_write hnull htext]
        exact funext fun e => readBody_setBody hread hwritten e role
      calc readBody <$> Endpoint.ofJson data
        _ = readBody <$> Endpoint.ofJson (withBody role v data') := by rw [ih, hgives.withBody_self]
        _ = (fun e => readBody (setBody role (bodyText v) e)) <$> Endpoint.ofJson data' := by
            rw [Endpoint.ofJson_withBody hgives, Functor.map_map]
        _ = readBody <$> Endpoint.ofJson (withBody role (.str text) data') := by
            rw [← hsame, Endpoint.ofJson_withBody hgives, Functor.map_map]
            rfl

/-- Extraction from documents goes by what the bodies of each are read as. -/
theorem run_mapM_ofJson (docs : List Json) (roles : List Role) :
    (run · roles) <$> docs.mapM Endpoint.ofJson =
      (fun readings => takeReadings (readings.flatMap fun readings =>
        ([.response, .request].filter roles.contains).map readings) {}) <$>
        docs.mapM fun d => readBody <$> Endpoint.ofJson d := by
  rw [← Steps.map_mapM, Functor.map_map]
  simp only [run_eq]

/-- **Bodies given as values are bodies given as texts.** The body of a document that gives an object,
a list, a number or a truth value becomes a text from which the value is read and its schema inferred,
with all properties in order. And documents give the same objects, or fail alike, whether they give
such bodies as values or as texts that stand for them. -/
theorem infer_read_body_and_run_retold :
    (∀ data role v, IsEndpoint data → GivesBody data role v → v.Proper → v.kind ≠ .null →
      v.kind ≠ .str → ∀ n, ∃ e n' text, (Endpoint.ofJson data).run.run n = (.ok e, n') ∧
        e.bodyFor role = .str text ∧ Json.read text = .ok v ∧
        (Json.read text).map Schema.infer = .ok (Schema.infer v)) ∧
    ∀ docs docs', List.Forall₂ Retold docs docs' → ∀ roles,
      (run · roles) <$> docs.mapM Endpoint.ofJson = (run · roles) <$> docs'.mapM Endpoint.ofJson := by
  refine ⟨fun data role v hdata hgives hproper hnull htext n => ?_, fun docs docs' h roles => ?_⟩
  · obtain ⟨b, hb⟩ := Endpoint.exists_bare_iff.mpr hdata
    obtain ⟨id, n', hrun⟩ := Endpoint.answers_bare data n
    rw [hb] at hrun
    have hread : Json.read (v.write .line) = .ok v := Json.read_write rfl hproper
    refine ⟨_, n', v.write .line, hrun, ?_, hread, ?_⟩
    · rw [Endpoint.bodyFor_of_ofJson hgives hrun, bodyText_eq_write hnull htext]
    · rw [hread]
      rfl
  · rw [run_mapM_ofJson, run_mapM_ofJson]
    congr 1
    induction h with
    | nil => rfl
    | cons hd _ ih => rw [List.mapM_cons, List.mapM_cons, hd.readBody_ofJson, ih]

/-- A value with texts to escape, a large number and one without end. -/
def richValue : Json :=
  .object [("b", .list [.int (10 ^ 30), .float (.infinite true), .null]),
    ("a", .str "\"\\\n\u00e9😀"), ("c", .object [("z", .bool false), ("y", .list [])])]

/-- The value in a layout of its own. -/
def richText : String :=
  "\x7b\n \"b\" : [1000000000000000000000000000000, -Infinity , null],\t\"a\":" ++
    "\"\\\"\\\\\\n\\u00e9\\uD83D\\ude00\", \"c\": \x7b\"z\":false,\"y\":[ ]\x7d\x7d "

/-- An endpoint that answers with the value, and whose request is a list. -/
def richDocument : Json :=
  .object [("path", .str "/orders"), ("response", .object [("body", richValue)]),
    ("request", .object [("body", .list [richValue])])]

/-- A rich body is read back in order, and it is extracted as its text is. -/
theorem infer_read_body_and_run_retold_rich :
    (∃ e n' text, (Endpoint.ofJson richDocument).run.run 0 = (.ok e, n') ∧
      e.bodyFor .response = .str text ∧ Json.read text = .ok richValue ∧
      (Json.read text).map Schema.infer = .ok (Schema.infer richValue)) ∧
    richText ≠ richValue.write .line ∧
    (run · [.response]) <$> [richDocument].mapM Endpoint.ofJson =
      (run · [.response]) <$>
        [withBody .response (.str richText) richDocument].mapM Endpoint.ofJson := by
  have hread : Json.read richText = .ok richValue := by decide +kernel
  have hgives : GivesBody richDocument .response richValue := ⟨_, _, rfl, rfl, rfl⟩
  have hendpoint : IsEndpoint richDocument :=
    Endpoint.exists_bare_iff.mp ⟨_, rfl⟩
  exact ⟨infer_read_body_and_run_retold.1 _ _ _ hendpoint hgives
      (Json.exists_read_iff.mp ⟨_, hread⟩) nofun nofun 0, by decide +kernel,
    infer_read_body_and_run_retold.2 _ _
      (.cons (.tell .refl hgives nofun nofun hread) .nil) [.response]⟩

end Extraction

end DtoForge
