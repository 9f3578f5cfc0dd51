import DtoForge.Proofs.Generator.Names
import DtoForge.Proofs.Generator.Source
import DtoForge.Proofs.Generator.Types
import DtoForge.Proofs.Steps

/-! # References — what the code of an object imports

Where the references of an object are texts, they can be read, each with the type of its name, and
code is generated unless the package clause is in the way. Where every property is linked, the texts
name listed objects. -/

namespace DtoForge

namespace Schema

theorem refOf_eq_none {s : Schema} (hs : s.Unreferenced) : Writer.refOf s = none := by
  induction s using Schema.induct with
  | object ps required ref => exact hs.self
  | array items ref ih => exact ih hs.2
  | leaf l ref => rfl

namespace Linked

variable {names : List String} {s : Schema}

/-- What a linked property refers to is a listed name. -/
theorem exists_name_of_refOf (h : s.Linked names) {ref : Json}
    (href : Writer.refOf s = some ref) : ∃ name, name ∈ names ∧ ref = .str name := by
  cases h with
  | object hname =>
      obtain rfl := Option.some.inj href
      exact ⟨_, hname, rfl⟩
  | items hname =>
      obtain rfl := Option.some.inj href
      exact ⟨_, hname, rfl⟩
  | plain hs _ =>
      rw [refOf_eq_none hs] at href
      cases href

end Linked

end Schema

namespace Writer

variable {names : List String} (w : Writer)

section

variable {P : RawText → Prop}

/-- Adding a property adds at most the name it refers to, with its type. -/
theorem addReference_of_refOf (self : Json) (refs : List (RawText × String)) {s : Schema}
    (h : ∀ ref, refOf s = some ref → ∃ name : RawText, P name ∧ ref = .str name) :
    ∃ refs', w.addReference self refs s = .ok refs' ∧
      ∀ r ∈ refs', r ∈ refs ∨ ∃ name, P name ∧ r = (name, w.typeName name.legible) := by
  rw [addReference]
  cases hs : refOf s with
  | none => exact ⟨refs, rfl, fun r hr => Or.inl hr⟩
  | some ref =>
      obtain ⟨name, hname, rfl⟩ := h ref hs
      dsimp only
      split
      · exact ⟨refs, rfl, fun r hr => Or.inl hr⟩
      · refine ⟨_, rfl, ?_⟩
        intro r hr
        split at hr
        · exact Or.inl hr
        · rcases List.mem_append.mp hr with hr | hr
          · exact Or.inl hr
          · exact Or.inr ⟨name, hname, List.mem_singleton.mp hr⟩

theorem foldlM_addReference_of_refOf (self : Json) (ss : List Schema)
    (h : ∀ s ∈ ss, ∀ ref, refOf s = some ref → ∃ name : RawText, P name ∧ ref = .str name)
    (refs : List (RawText × String)) :
    ∃ refs', ss.foldlM (w.addReference self) refs = .ok refs' ∧
      ∀ r ∈ refs', r ∈ refs ∨
        ∃ name : RawText, P name ∧ r = (name, w.typeName name.legible) := by
  induction ss generalizing refs with
  | nil => exact ⟨refs, rfl, fun r hr => Or.inl hr⟩
  | cons s ss ih =>
      obtain ⟨hs, hss⟩ := List.forall_mem_cons.mp h
      obtain ⟨refs', hrefs', hfirst⟩ := w.addReference_of_refOf self refs hs
      obtain ⟨refs'', hrefs'', hrest⟩ := ih hss refs'
      refine ⟨refs'', ?_, ?_⟩
      · rw [List.foldlM_cons, hrefs']
        exact hrefs''
      · intro r hr
        rcases hrest r hr with hr | hr
        · exact hfirst r hr
        · exact Or.inr hr

/-- The references of an object can be read where they are texts, each with the type of its name. -/
theorem references_of_refOf (self : Json) {s : Schema} (hs : s.isObject = true)
    (h : ∀ p ∈ s.properties, ∀ ref, refOf p.2 = some ref →
      ∃ name : RawText, P name ∧ ref = .str name) :
    ∃ refs, w.references self s = .ok refs ∧
      ∀ r ∈ refs, ∃ name : RawText, P name ∧ r = (name, w.typeName name.legible) := by
  cases s with
  | object ps required ref =>
      have hps : ∀ s ∈ ps.map (·.2), ∀ ref, refOf s = some ref →
          ∃ name : RawText, P name ∧ ref = .str name := List.forall_mem_map.mpr h
      obtain ⟨refs, hrefs, hnames⟩ := w.foldlM_addReference_of_refOf self (ps.map (·.2)) hps []
      exact ⟨refs, hrefs, fun r hr => (hnames r hr).resolve_left List.not_mem_nil⟩
  | array items ref => cases hs
  | leaf l ref => cases hs

end

/-- The references of an object with linked properties are listed names, each with its type. -/
theorem references_of_linked (self : Json) {s : Schema} (hs : s.isObject = true)
    (h : ∀ p ∈ s.properties, p.2.Linked names) :
    ∃ refs, w.references self s = .ok refs ∧
      ∀ r ∈ refs, ∃ name ∈ names, r = (.whole name, w.typeName name) := by
  obtain ⟨refs, hrefs, hnames⟩ :=
    w.references_of_refOf (P := fun text => ∃ name ∈ names, text = .whole name) self hs
      fun p hp ref href => by
        obtain ⟨name, hname, rfl⟩ := (h p hp).exists_name_of_refOf href
        exact ⟨name, ⟨name, hname, rfl⟩, rfl⟩
  refine ⟨refs, hrefs, fun r hr => ?_⟩
  obtain ⟨_, ⟨name, hname, rfl⟩, rfl⟩ := hnames r hr
  exact ⟨name, hname, rfl⟩

end Writer

namespace Generator

/-- Code that was generated declares the type of the name it was generated for. -/
theorem exists_source_of_generate {g : Generator} {s : Schema} {name code : String}
    (h : g.generate s (.str name) = .ok code) :
    ∃ source : TypeSource, source.className = g.writer.typeName name ∧ source.stem = name ∧
      code = g.writer.format (Source.text (g.codeOf source)) := by
  obtain ⟨stem, t, hname, ht, rfl⟩ := exists_source_of_generate_eq_ok h
  cases hname
  obtain ⟨fields, references, -, -, rfl⟩ := source_eq_ok_iff.mp ht
  exact ⟨_, rfl, rfl, rfl⟩

section

variable {g : Generator} {schema : Schema} {name : RawText} {t : TypeSource}

/-- The fields of a source are those of the properties, named by a fresh table. -/
theorem fieldsFrom_of_source (h : g.source schema name = .ok t) :
    t.className = g.writer.typeName name.legible ∧
      g.writer.fieldsFrom t.className schema.isRequired {} schema.properties = .ok t.fields := by
  obtain ⟨fields, references, hfields, -, rfl⟩ := source_eq_ok_iff.mp h
  refine ⟨rfl, ?_⟩
  cases schema with
  | object ps required ref => exact hfields
  | array items ref => cases hfields
  | leaf l ref => cases hfields

/-- Where there is a source, properties refer to texts. -/
theorem exists_str_of_source (h : g.source schema name = .ok t) :
    ∀ p ∈ schema.properties, ∀ ref, Writer.refOf p.2 = some ref → ∃ stem, ref = .str stem := by
  obtain ⟨-, hfields⟩ := fieldsFrom_of_source h
  intro p hp
  obtain ⟨f, hf, hschema⟩ := g.writer.exists_field_of_mem hfields hp
  rw [← hschema]
  exact g.writer.exists_str_of_typeOf (g.writer.typeOf_of_mem_fieldsFrom hfields f hf)

/-- A source refers to what its properties do, each with its type. -/
theorem references_of_source (h : g.source schema name = .ok t) :
    ∀ r ∈ t.references, ∃ p ∈ schema.properties, ∃ stem : RawText,
      Writer.refOf p.2 = some (.str stem) ∧ r = (stem, g.writer.typeName stem.legible) := by
  have htexts : ∀ p ∈ schema.properties, ∀ ref, Writer.refOf p.2 = some ref →
      ∃ stem : RawText,
        (∃ p ∈ schema.properties, Writer.refOf p.2 = some (.str stem)) ∧ ref = .str stem := by
    intro p hp ref href
    obtain ⟨stem, rfl⟩ := exists_str_of_source h p hp ref href
    exact ⟨stem, ⟨p, hp, href⟩, rfl⟩
  obtain ⟨fields, references, -, hreferences, rfl⟩ := source_eq_ok_iff.mp h
  have hobject : schema.isObject = true := by
    cases schema with
    | object ps required ref => rfl
    | _ => cases hreferences
  obtain ⟨refs, hrefs, hstems⟩ := g.writer.references_of_refOf (.str name) hobject htexts
  rw [hreferences] at hrefs
  obtain rfl := Except.ok.inj hrefs
  intro r hr
  obtain ⟨stem, ⟨p, hp, href⟩, rfl⟩ := hstems r hr
  exact ⟨p, hp, stem, href, rfl⟩

end

variable (g : Generator)

/-- An object whose references are texts has a source. -/
theorem exists_source_of_refOf {s : Schema} (hs : s.isObject = true)
    (h : ∀ p ∈ s.properties, ∀ ref, Writer.refOf p.2 = some ref → ∃ stem, ref = .str stem)
    (name : RawText) : ∃ t, g.source s name = .ok t := by
  obtain ⟨refs, hrefs, -⟩ := g.writer.references_of_refOf (P := fun _ => True) (.str name) hs
    fun p hp ref href => (h p hp ref href).imp fun _ hstem => ⟨trivial, hstem⟩
  cases s with
  | object ps required ref =>
      obtain ⟨fields, hfields, -⟩ := g.writer.exists_fieldsFrom_of_refOf h {}
      exact ⟨_, source_eq_ok_iff.mpr ⟨fields, refs, hfields, hrefs, rfl⟩⟩
  | array items ref => cases hs
  | leaf l ref => cases hs

/-- Code is generated for an object whose references are texts unless the package clause is no
text. -/
theorem exists_generate_of_refOf {s : Schema}
    (hclause : ∀ v, g.packageClause? = some v → ∃ text, v = .str text) (hs : s.isObject = true)
    (h : ∀ p ∈ s.properties, ∀ ref, Writer.refOf p.2 = some ref → ∃ stem, ref = .str stem)
    (name : RawText) : ∃ code, g.generate s (.str name) = .ok code := by
  obtain ⟨t, ht⟩ := g.exists_source_of_refOf hs h name
  exact ⟨_, generate_of_source hclause hs ht⟩

/-- Only files of Go start with a package clause that has to be a text. -/
theorem exists_generate_of_ne_go {s : Schema} (hgo : g.target ≠ .go) (hs : s.isObject = true)
    (h : ∀ p ∈ s.properties, ∀ ref, Writer.refOf p.2 = some ref → ∃ stem, ref = .str stem)
    (name : RawText) : ∃ code, g.generate s (.str name) = .ok code := by
  refine g.exists_generate_of_refOf (fun v hv => ?_) hs h name
  rw [packageClause?] at hv
  split at hv
  next htarget => exact absurd htarget hgo
  next => cases hv

/-- Code is generated for an object with linked properties unless the package clause is no text. -/
theorem exists_generate_of_linked {names : List String} (d : ObjectDefinition)
    (hclause : ∀ v, g.packageClause? = some v → ∃ text, v = .str text)
    (h : ∀ p ∈ d.schema.properties, p.2.Linked names) :
    ∃ code, g.generate d.schema (.str d.name) = .ok code :=
  g.exists_generate_of_refOf hclause d.isObject
    (fun p hp _ href => ((h p hp).exists_name_of_refOf href).imp' _ fun _ hname => hname.2) d.name

end Generator

end DtoForge
