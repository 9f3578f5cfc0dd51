import DtoForge.Options.Loading
import DtoForge.Proofs.Generator.Mentions
import DtoForge.Proofs.Options.Layers

/-! # Previews — which of them answer

A preview is to answer for every type: with code, or with what was wrong with the type. Generation
ends in one of four ways, which `generate_cases` tells apart by the schema and by the package clause.
The values of options keep whatever type they were given, and three of the four ways are fine with
that. The fourth is a package that is no text where a file has to start with one. -/

namespace DtoForge

/-- What is no object is refused with the name of the type first. -/
theorem GenerationError.exists_message_notObject (name : String) (kind : SchemaKind) :
    ∃ why, (notObject name kind).message = "Failed to generate '" ++ name ++ "': " ++ why := by
  have hliteral : "': expected an object schema, got " =
      "': " ++ "expected an object schema, got " := by simp
  refine ⟨"expected an object schema, got " ++ kind.word, ?_⟩
  calc (notObject name kind).message
      = "Failed to generate '" ++ name ++ ("': " ++ "expected an object schema, got ") ++
          kind.word :=
        congrArg (fun text => "Failed to generate '" ++ name ++ text ++ kind.word) hliteral
    _ = _ := by simp only [String.append_assoc]

namespace Generator

/-- The package that files of Go start with is given in the options, and it is no text. -/
structure BreaksClause (g : Generator) : Prop where
  target : g.target = .go
  given : g.options.packageName.isGiven = true
  no_text : ∀ text, g.options.packageName ≠ .str text

/-- The preview of a type gives code, or a refusal that callers answer for. -/
def Answers (g : Generator) (schema : Schema) (name : RawText) : Prop :=
  (∃ p, g.preview schema (.str name) = .ok p) ∨
    ∃ e, g.preview schema (.str name) = .error e ∧ e.isExpected = true

variable {g : Generator} {schema : Schema} {name : RawText}

/-! ## Package clauses -/

theorem BreaksClause.packageClause? (h : g.BreaksClause) :
    g.packageClause? = some g.options.packageName := by
  rw [Generator.packageClause?, h.target]
  show some (Go.packageName g.options) = _
  rw [Go.packageName, Json.given?, if_pos h.given]
  rfl

/-- The clause is the default one or a text of the options where it is not broken. -/
theorem exists_str_of_packageClause? (h : ¬ g.BreaksClause) {v : Json}
    (hv : g.packageClause? = some v) : ∃ text, v = .str text := by
  rw [packageClause?] at hv
  split at hv
  next htarget =>
    rw [Go.packageName, Json.given?] at hv
    split at hv
    next hgiven =>
      obtain rfl : g.options.packageName = v := Option.some.inj hv
      by_contra hno_text
      exact h ⟨htarget, hgiven, not_exists.mp hno_text⟩
    next => exact ⟨"models", (Option.some.inj hv).symm⟩
  next => cases hv

/-! ## Generation -/

/-- Every step to a source answers for the type. -/
theorem failsWith_source :
    Steps.FailsWith (fun e => ∃ cause, e = .invalid name.legible cause) (g.source schema name) := by
  have hworded : ∀ {α : Type} (x : Except ShapeError α),
      Steps.FailsWith (fun e => ∃ cause, e = .invalid name.legible cause)
        (x.mapError (GenerationError.invalid name.legible)) := by
    intro α x
    exact Steps.FailsWith.mapError fun cause _ => ⟨cause, rfl⟩
  refine (hworded _).bind fun fields _ => ?_
  refine (hworded _).bind fun references _ => ?_
  exact Steps.failsWith_ok _

/-- An object has a source exactly if it refers to texts. -/
theorem exists_source_iff (hobject : schema.isObject = true) (name : RawText) :
    (∃ t, g.source schema name = .ok t) ↔ schema.MentionsTexts := by
  constructor
  · rintro ⟨t, ht⟩ p hp ref href
    exact exists_str_of_source ht p hp ref (Schema.refOf_eq_some_iff.mpr href)
  · intro htexts
    refine g.exists_source_of_refOf hobject (fun p hp ref href => ?_) name
    exact htexts p hp ref (Schema.refOf_eq_some_iff.mp href)

/-- Generation refuses what is no object, then a package clause that is broken, and then references
that are no texts. Otherwise there is code. -/
theorem generate_cases (g : Generator) (schema : Schema) (name : RawText) :
    (schema.isObject = false ∧
      g.generate schema (.str name) = .error (.notObject name.legible schema.kind)) ∨
    (schema.isObject = true ∧ g.BreaksClause ∧
      g.generate schema (.str name) = .error (.packageKind g.options.packageName.kind)) ∨
    (schema.isObject = true ∧ ¬ g.BreaksClause ∧ ¬ schema.MentionsTexts ∧
      ∃ cause, g.generate schema (.str name) = .error (.invalid name.legible cause)) ∨
    (schema.isObject = true ∧ ¬ g.BreaksClause ∧ schema.MentionsTexts ∧
      ∃ code, g.generate schema (.str name) = .ok code) := by
  cases hobject : schema.isObject with
  | false =>
      left
      refine ⟨rfl, ?_⟩
      rw [generate, if_neg (by simp [hobject])]
      rfl
  | true =>
      right
      by_cases hbreaks : g.BreaksClause
      · exact .inl ⟨rfl, hbreaks,
          generate_of_packageClause hbreaks.packageClause? hbreaks.no_text hobject⟩
      · right
        have hclause : ∀ v, g.packageClause? = some v → ∃ text, v = .str text :=
          fun v => exists_str_of_packageClause? hbreaks
        rw [generate_eq_source hclause hobject, ← exists_source_iff hobject name]
        cases hsource : g.source schema name with
        | error e =>
            obtain ⟨cause, rfl⟩ := failsWith_source e hsource
            refine .inl ⟨rfl, hbreaks, ?_, cause, rfl⟩
            rintro ⟨t, ht⟩
            cases ht
        | ok t => exact .inr ⟨rfl, hbreaks, ⟨t, rfl⟩, g.written t, rfl⟩

/-- A preview answers unless an object is to be written under a clause that is broken. -/
theorem answers_iff : g.Answers schema name ↔ (schema.isObject = true → ¬ g.BreaksClause) := by
  rw [Answers, ← Steps.failsWith_iff, preview]
  obtain ⟨hobject, h⟩ | ⟨hobject, hbreaks, h⟩ | ⟨-, hbreaks, -, cause, h⟩ |
    ⟨-, hbreaks, -, code, h⟩ := generate_cases g schema name
  · rw [h]
    exact iff_of_true (Steps.failsWith_error rfl) (by simp [hobject])
  · rw [h]
    exact iff_of_false (fun hanswers => nomatch hanswers _ rfl) fun hfine => hfine hobject hbreaks
  · rw [h]
    exact iff_of_true (Steps.failsWith_error rfl) fun _ => hbreaks
  · rw [h]
    exact iff_of_true (Steps.failsWith_ok _) fun _ => hbreaks

/-! ## Main result -/

/-- **Which previews answer**: those of whatever is no object, and those of objects unless the package
clause is broken. They answer with code for objects that mention texts only, and otherwise with a
refusal that starts with the name of the type. The refusal that nobody answers for is that of a package
which is no text. -/
theorem preview_answers_iff (g : Generator) (schema : Schema) (name : RawText) :
    (g.Answers schema name ↔ (schema.isObject = true → ¬ g.BreaksClause)) ∧
    ((∃ p, g.preview schema (.str name) = .ok p) ↔
      schema.isObject = true ∧ ¬ g.BreaksClause ∧ schema.MentionsTexts) ∧
    ∀ e, g.preview schema (.str name) = .error e →
      (e.isExpected = true →
        ∃ why, e.message = "Failed to generate '" ++ name.legible ++ "': " ++ why) ∧
      (e.isExpected = false → e = .packageKind g.options.packageName.kind) := by
  refine ⟨answers_iff, ?_⟩
  simp only [preview, Steps.exists_map_eq_ok_iff, Steps.map_eq_error_iff]
  obtain ⟨hobject, h⟩ | ⟨-, hbreaks, h⟩ | ⟨-, -, htexts, cause, h⟩ |
    ⟨hobject, hbreaks, htexts, code, h⟩ := generate_cases g schema name
  · refine ⟨by simp [h, hobject], fun e he => ?_⟩
    obtain rfl := Except.error.inj (h.symm.trans he)
    exact ⟨fun _ => GenerationError.exists_message_notObject name.legible schema.kind, nofun⟩
  · refine ⟨by simp [h, hbreaks], fun e he => ?_⟩
    obtain rfl := Except.error.inj (h.symm.trans he)
    exact ⟨nofun, fun _ => rfl⟩
  · refine ⟨by simp [h, htexts], fun e he => ?_⟩
    obtain rfl := Except.error.inj (h.symm.trans he)
    exact ⟨fun _ => ⟨_, rfl⟩, nofun⟩
  · refine ⟨by simp [h, hobject, hbreaks, htexts], fun e he => ?_⟩
    cases h.symm.trans he

/-- With a number as the package in Go, an object is left without an answer and an array is refused. -/
theorem preview_answers_iff_number :
    let g : Generator := ⟨.go, { packageName := .int 5 }⟩
    let point := Schema.object [] [] none
    (g.preview point (.str "Point") = .error (.packageKind .int) ∧ ¬ g.Answers point "Point") ∧
      g.preview (.array point none) (.str "Points") = .error (.notObject "Points" .array) ∧
      g.Answers (.array point none) "Points" ∧
      ∃ why, (GenerationError.notObject "Points" .array).message =
        "Failed to generate '" ++ "Points" ++ "': " ++ why := by
  intro g point
  have hpoints : g.preview (.array point none) (.str "Points") = .error (.notObject "Points" .array) :=
    rfl
  obtain ⟨hanswers, -, herrors⟩ := preview_answers_iff g (.array point none) "Points"
  refine ⟨⟨rfl, fun hpoint => ?_⟩, hpoints, hanswers.mpr nofun, (herrors _ hpoints).1 rfl⟩
  exact (preview_answers_iff g point "Point").1.mp hpoint rfl ⟨rfl, rfl, nofun⟩

/-- Options with a number as the package can be loaded. With them the preview of a type in Go gives no
answer, and that of the same type in Java gives code. -/
theorem exists_preview_unanswered :
    ∃ o, Options.load (Options.fileTree "\x7b\"package_name\": 5\x7d") "go" (.object [])
        "options.json" = .ok o ∧
      ¬ (Generator.mk .go o).Answers (.object [] [] none) "Point" ∧
      ∃ p, (Generator.mk .java o).preview (.object [] [] none) (.str "Point") = .ok p := by
  have hloaded : (Options.load (Options.fileTree "\x7b\"package_name\": 5\x7d") "go" (.object [])
      "options.json").map (·.packageName) = .ok (.int 5) := by decide +kernel
  obtain ⟨o, ho, hpackage⟩ := Steps.exists_of_map_eq_ok hloaded
  have hbreaks : (Generator.mk .go o).BreaksClause := by
    refine ⟨rfl, ?_, ?_⟩ <;> rw [hpackage]
    · rfl
    · exact nofun
  refine ⟨o, ho, fun hanswers => answers_iff.mp hanswers rfl hbreaks, ?_⟩
  obtain ⟨code, hcode⟩ := (Generator.mk .java o).exists_generate_of_ne_go
    (s := .object [] [] none) nofun rfl nofun "Point"
  exact Steps.exists_map_eq_ok_iff.mpr ⟨code, hcode⟩

end Generator

end DtoForge
