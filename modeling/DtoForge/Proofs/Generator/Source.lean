import DtoForge.Generator.Generate
import DtoForge.Proofs.Steps

/-! # Sources — what the code of a type is written from

Generation goes in two steps. The first makes the source of a type from a schema and a name: its
identifier, its fields and what they refer to. The second writes the source in the language of the
target and cannot fail. So two generations agree when their sources and what is written for them do
(`generateNamed_eq`), and code that is generated is what is written for a source. -/

namespace DtoForge.Generator

variable (g : Generator)

/-- What the code of a schema under a type name is written from. -/
def source (schema : Schema) (name : RawText) : Except GenerationError TypeSource := do
  let className := g.writer.typeName name.legible
  let fields ← (g.writer.fields className schema).mapError (GenerationError.invalid name.legible)
  let references ←
    (g.writer.references (.str name) schema).mapError (GenerationError.invalid name.legible)
  return { className, stem := name.legible, doc := g.writer.docOf className, fields, references }

/-- The code of a source. -/
def written (t : TypeSource) : String :=
  g.writer.format (Source.text (g.codeOf t))

/-- Refuses a package clause that is no text. -/
def checkPackage : Except GenerationError Unit :=
  match g.packageClause? with
  | none | some (.str _) => .ok ()
  | some v => .error (.packageKind v.kind)

theorem generateNamed_eq (schema : Schema) (name : RawText) :
    g.generateNamed schema name =
      g.checkPackage >>= fun _ => (g.source schema name).map g.written := by
  -- where the clause is in order, both go through the same two steps
  have hsteps : ∀ (fields : Except GenerationError (List Field))
      (references : Except GenerationError (List (RawText × String)))
      (make : List Field → List (RawText × String) → TypeSource),
      (fields >>= fun fs => references >>= fun rs => .ok (g.written (make fs rs))) =
        Except.map g.written (fields >>= fun fs => references >>= fun rs => .ok (make fs rs)) := by
    intro fields references make
    cases fields with
    | error e => rfl
    | ok fs =>
        cases references with
        | error e => rfl
        | ok rs => rfl
  unfold generateNamed checkPackage
  extract_lets w className steps
  have hsource : steps () = (g.source schema name).map g.written := hsteps _ _ _
  cases g.packageClause? with
  | none => exact hsource
  | some v =>
      cases v with
      | str text => exact hsource
      | _ => rfl

/-! ## Generated code -/

variable {g : Generator} {schema : Schema} {t : TypeSource}

theorem source_eq_ok_iff {name : RawText} :
    g.source schema name = .ok t ↔
      ∃ fields references, g.writer.fields (g.writer.typeName name.legible) schema = .ok fields ∧
        g.writer.references (.str name) schema = .ok references ∧
        t = { className := g.writer.typeName name.legible, stem := name.legible,
              doc := g.writer.docOf (g.writer.typeName name.legible), fields, references } := by
  rw [source]
  constructor
  · intro h
    obtain ⟨fields, hfields, h⟩ := Steps.exists_of_bind_eq_ok h
    obtain ⟨references, hreferences, h⟩ := Steps.exists_of_bind_eq_ok h
    exact ⟨fields, references, Steps.eq_ok_of_mapError hfields,
      Steps.eq_ok_of_mapError hreferences, (Except.ok.inj h).symm⟩
  · rintro ⟨fields, references, hfields, hreferences, rfl⟩
    rw [hfields, hreferences]
    rfl

/-- Code that was generated was written for a source. -/
theorem exists_source_of_generate_eq_ok {name : Json} {code : String}
    (h : g.generate schema name = .ok code) :
    ∃ stem t, name = .str stem ∧ g.source schema stem = .ok t ∧ code = g.written t := by
  rw [generate] at h
  split at h
  · cases name with
    | str stem =>
        have hnamed : g.generateNamed schema stem = .ok code := h
        rw [generateNamed_eq] at hnamed
        obtain ⟨-, -, hwritten⟩ := Steps.exists_of_bind_eq_ok hnamed
        obtain ⟨t, hsource, hcode⟩ := Steps.exists_of_map_eq_ok hwritten
        exact ⟨stem, t, rfl, hsource, hcode.symm⟩
    | _ => cases h
  · cases h

section

variable {name : RawText}

/-- The code of an object is what is written for its source, unless the package clause is no text:
what is refused then is what the source is refused for. -/
theorem generate_eq_source (hclause : ∀ v, g.packageClause? = some v → ∃ text, v = .str text)
    (hobject : schema.isObject = true) :
    g.generate schema (.str name) = (g.source schema name).map g.written := by
  have hpackage : g.checkPackage = .ok () := by
    rw [checkPackage]
    cases hv : g.packageClause? with
    | none => rfl
    | some v =>
        obtain ⟨text, rfl⟩ := hclause v hv
        rfl
  rw [generate, if_pos hobject]
  dsimp only [Json.matched]
  rw [generateNamed_eq, hpackage]
  rfl

theorem generate_of_source
    (hclause : ∀ v, g.packageClause? = some v → ∃ text, v = .str text)
    (hobject : schema.isObject = true) (h : g.source schema name = .ok t) :
    g.generate schema (.str name) = .ok (g.written t) := by
  rw [generate_eq_source hclause hobject, h]
  rfl

/-- A package clause that is no text ends the generation of every object. -/
theorem generate_of_packageClause {v : Json} (h : g.packageClause? = some v)
    (hv : ∀ text, v ≠ .str text) (hobject : schema.isObject = true) :
    g.generate schema (.str name) = .error (.packageKind v.kind) := by
  have hpackage : g.checkPackage = .error (.packageKind v.kind) := by
    rw [checkPackage, h]
    cases v with
    | str text => exact absurd rfl (hv text)
    | _ => rfl
  rw [generate, if_pos hobject]
  dsimp only [Json.matched]
  rw [generateNamed_eq, hpackage]
  rfl

end

end DtoForge.Generator
