import Mathlib.Data.List.Induction
import DtoForge.Proofs.Json.Entries
import DtoForge.Proofs.Schema.Identity

/-! # Round trip — a schema is read back from its document

`Schema.Same` is equality of schemas whose required names are sets: the same kind, the same
properties in the same order, the same required names and the same reference, at every depth. A
document keeps a schema whose required names are texts, whose references are names, and of which no
leaf refers to anything (`Schema.Documented`): reading what was written gives the same schema. -/

namespace DtoForge

/-! ## Sets of texts -/

namespace Json

theorem sameElement_str (s t : RawText) : sameElement (.str s) (.str t) = (s == t) := by
  simp [sameElement, countValue?]

/-- A set with one more element. -/
def addElement (acc : List Json) (v : Json) : List Json :=
  if acc.any (sameElement v) then acc else acc ++ [v]

/-- Elements of which each can be one make a set. -/
theorem setOf_of_checkElement {vs : List Json} (h : ∀ v ∈ vs, v.checkElement = .ok ()) :
    setOf vs = .ok (vs.foldl addElement []) := by
  induction vs using List.reverseRecOn with
  | nil => rfl
  | append_singleton vs v ih =>
      rw [List.forall_mem_append, List.forall_mem_singleton] at h
      have hvs := ih h.1
      rw [setOf] at hvs
      rw [setOf, List.foldlM_append, hvs, List.foldl_append]
      show (v.checkElement >>= fun _ => .ok (addElement _ v)) >>= pure = _
      rw [h.2]
      rfl

/-- Texts are the same element of a set exactly if they are the same. -/
theorem mem_addElement {acc : List Json} (hacc : AllTexts acc) (s : RawText) (v : Json) :
    v ∈ addElement acc (.str s) ↔ v ∈ acc ∨ v = .str s := by
  have hany : acc.any (sameElement (.str s)) = true ↔ Json.str s ∈ acc := by
    rw [List.any_eq_true]
    constructor
    · rintro ⟨w, hw, hsame⟩
      obtain ⟨t, rfl⟩ := hacc w hw
      rw [sameElement_str, beq_iff_eq] at hsame
      rwa [hsame]
    · intro hmem
      exact ⟨_, hmem, by rw [sameElement_str, beq_self_eq_true]⟩
  rw [addElement]
  split
  · next hsame =>
      refine ⟨Or.inl, ?_⟩
      rintro (hv | rfl)
      · exact hv
      · exact hany.mp hsame
  · rw [List.mem_append, List.mem_singleton]

theorem mem_foldl_addElement {vs : List Json} (h : AllTexts vs) (v : Json) :
    v ∈ vs.foldl addElement [] ↔ v ∈ vs := by
  induction vs using List.reverseRecOn generalizing v with
  | nil => rfl
  | append_singleton vs w ih =>
      obtain ⟨hvs, ⟨s, rfl⟩⟩ := (List.forall_mem_append.mp h).imp_right List.forall_mem_singleton.mp
      have htexts : AllTexts (vs.foldl addElement []) := fun w hw => hvs w ((ih hvs w).mp hw)
      rw [List.foldl_append, List.foldl_cons, List.foldl_nil, mem_addElement htexts, ih hvs,
        List.mem_append, List.mem_singleton]

/-- The set of some texts has these and no others. -/
theorem exists_setOf_of_allTexts {vs : List Json} (h : AllTexts vs) :
    ∃ ws, setOf vs = .ok ws ∧ ∀ v, v ∈ ws ↔ v ∈ vs := by
  refine ⟨vs.foldl addElement [], setOf_of_checkElement ?_, mem_foldl_addElement h⟩
  intro v hv
  obtain ⟨s, rfl⟩ := h v hv
  rfl

/-- Texts have a common order. -/
theorem checkOrder_of_allTexts {vs : List Json} (h : AllTexts vs) : checkOrder vs = .ok () := by
  induction vs with
  | nil => rfl
  | cons v vs ih =>
      obtain ⟨⟨s, rfl⟩, hvs⟩ := List.forall_mem_cons.mp h
      have hnone : vs.find? (fun w => !comparable (.str s) w) = none := by
        rw [List.find?_eq_none]
        intro w hw
        obtain ⟨t, rfl⟩ := hvs w hw
        simp [comparable]
      rw [checkOrder, hnone]
      exact ih hvs

end Json

namespace Schema

/-! ## Equality of schemas -/

mutual

/-- Whether two schemas are the same, when required names are compared as sets. -/
def Same : Schema → Schema → Prop
  | .object ps required ref, .object qs required' ref' =>
    SameAll ps qs ∧ (∀ v, v ∈ required ↔ v ∈ required') ∧ ref = ref'
  | .array items ref, .array items' ref' => Same items items' ∧ ref = ref'
  | .leaf l ref, .leaf l' ref' => l = l' ∧ ref = ref'
  | _, _ => False

/-- Whether properties are the same, one by one. -/
def SameAll : List (RawText × Schema) → List (RawText × Schema) → Prop
  | [], [] => True
  | (name, s) :: ps, (name', t) :: qs => name = name' ∧ Same s t ∧ SameAll ps qs
  | _, _ => False

end

/-- What a document keeps as a reference: none, or a name. -/
def IsReference (ref : Option Json) : Prop :=
  ∀ r, ref = some r → ∃ name : RawText, name ≠ "" ∧ r = .str name

theorem isReference_none : IsReference none := nofun

theorem isReference_str {name : RawText} (h : name ≠ "") : IsReference (some (.str name)) := by
  rintro r ⟨⟩
  exact ⟨name, h, rfl⟩

/-- What a document keeps of a schema: required names that are texts and references by name. A leaf
is kept without what it refers to. -/
def Documented (s : Schema) : Prop :=
  s.Everywhere fun s => Json.AllTexts s.required ∧ IsReference s.ref ∧
    (s.isObject = false → s.isArray = false → s.ref = none)

theorem documented_object_iff {ps : List (RawText × Schema)} {required : List Json}
    {ref : Option Json} : Documented (.object ps required ref) ↔
      Json.AllTexts required ∧ IsReference ref ∧ ∀ p ∈ ps, p.2.Documented := by
  rw [Documented, everywhere_object_iff]
  constructor
  · rintro ⟨⟨hrequired, href, -⟩, hps⟩
    exact ⟨hrequired, href, hps⟩
  · rintro ⟨hrequired, href, hps⟩
    exact ⟨⟨hrequired, href, nofun⟩, hps⟩

theorem documented_array_iff {items : Schema} {ref : Option Json} :
    Documented (.array items ref) ↔ IsReference ref ∧ items.Documented := by
  rw [Documented, Everywhere]
  constructor
  · rintro ⟨⟨-, href, -⟩, hitems⟩
    exact ⟨href, hitems⟩
  · rintro ⟨href, hitems⟩
    exact ⟨⟨by simp [Json.AllTexts, required], href, fun _ h => by cases h⟩, hitems⟩

theorem documented_leaf_iff {l : Leaf} {ref : Option Json} :
    Documented (.leaf l ref) ↔ ref = none := by
  rw [Documented, Everywhere]
  constructor
  · exact fun h => h.2.2 rfl rfl
  · rintro rfl
    exact ⟨by simp [Json.AllTexts, required], isReference_none, fun _ _ => rfl⟩

/-! ## Documents -/

theorem valueOf_type (kind : String) (es : Entries Json) :
    Json.valueOf (("type", .str kind) :: es) "type" = .str kind := by
  rw [Json.valueOf, Entries.get?_cons, if_pos rfl, Option.getD_some]

/-- A document is never empty, so it counts as given. -/
theorem isGiven_toJson (withRefs : Bool) (s : Schema) : (s.toJson withRefs).isGiven = true := by
  cases s <;> simp [toJson, Json.isGiven]

/-- A reference by name is found in a document. -/
theorem given?_valueOf_ref {es : Entries Json} (hes : es.get? "ref" = none) {ref : Option Json}
    (href : IsReference ref) : (Json.valueOf (es ++ refEntry true ref) "ref").given? = ref := by
  have hget : Entries.get? (es ++ refEntry true ref) "ref" = ref := by
    rw [Entries.get?_append, hes, Option.none_or]
    cases ref <;> rfl
  rw [Json.valueOf, hget]
  cases ref with
  | none => rfl
  | some r =>
      obtain ⟨name, hname, rfl⟩ := href r rfl
      have hgiven : name.isEmpty = false := by
        rw [Bool.eq_false_iff]
        exact fun hempty => hname (RawText.isEmpty_iff.mp hempty)
      simp [Json.given?, Json.isGiven, hgiven]

/-- The required names of a document are those that were written. -/
theorem exists_requiredOf (es : Entries Json) {required : List Json}
    (hes : es.get? "required" = some (.list (Json.sorted required)))
    (h : Json.AllTexts required) :
    ∃ names, requiredOf es = .ok names ∧ ∀ v, v ∈ names ↔ v ∈ required := by
  have hperm := sorted_perm required
  rw [requiredOf, Json.valueOf, hes, Option.getD_some]
  cases hsorted : Json.sorted required with
  | nil =>
      rw [hsorted] at hperm
      exact ⟨[], rfl, by simp [hperm.symm.eq_nil]⟩
  | cons v vs =>
      rw [hsorted] at hperm
      obtain ⟨names, hnames, hmem⟩ :=
        Json.exists_setOf_of_allTexts fun w hw => h w (hperm.subset hw)
      exact ⟨names, hnames, fun w => (hmem w).trans hperm.mem_iff⟩

theorem exists_ofJsonAll {ps : List (RawText × Schema)}
    (h : ∀ p ∈ ps, ∃ t, ofJson (p.2.toJson true) = .ok t ∧ t.Same p.2) :
    ∃ qs, ofJsonAll (toJsonAll true ps) = .ok qs ∧ SameAll qs ps := by
  induction ps with
  | nil => exact ⟨[], rfl, trivial⟩
  | cons p ps ih =>
      obtain ⟨name, s⟩ := p
      obtain ⟨⟨t, hread, hsame⟩, hps⟩ := List.forall_mem_cons.mp h
      obtain ⟨qs, hreads, hsames⟩ := ih hps
      refine ⟨(name, t) :: qs, ?_, rfl, hsame, hsames⟩
      rw [toJsonAll, ofJsonAll, hread, hreads]
      rfl

theorem checkRequiredAll_of_forall {ps : List (RawText × Schema)}
    (h : ∀ p ∈ ps, p.2.checkRequired = .ok ()) : checkRequiredAll ps = .ok () := by
  induction ps with
  | nil => rfl
  | cons p ps ih =>
      obtain ⟨name, s⟩ := p
      obtain ⟨hp, hps⟩ := List.forall_mem_cons.mp h
      rw [checkRequiredAll, hp]
      exact ih hps

/-- **What a document keeps can be written and is read back.** -/
theorem Documented.exists_ofJson {s : Schema} (h : s.Documented) :
    s.checkRequired = .ok () ∧ ∃ t, ofJson (s.toJson true) = .ok t ∧ t.Same s := by
  induction s with
  | object ps required ref ih =>
      obtain ⟨htexts, href, hps⟩ := documented_object_iff.mp h
      have hparts := fun p hp => ih p hp (hps p hp)
      constructor
      · rw [checkRequired, checkRequiredAll_of_forall fun p hp => (hparts p hp).1]
        exact Json.checkOrder_of_allTexts htexts
      · obtain ⟨qs, hqs, hsame⟩ := exists_ofJsonAll fun p hp => (hparts p hp).2
        obtain ⟨names, hnames, hmem⟩ := exists_requiredOf (([("type", .str "object"),
          ("properties", .object (toJsonAll true ps)),
          ("required", .list (Json.sorted required))] : Entries Json) ++ refEntry true ref)
          (by simp [Entries.get?]) htexts
        refine ⟨.object qs names ref, ?_, hsame, hmem, rfl⟩
        have htype : SchemaKind.ofJson? (.str "object") = some .object := by decide
        rw [toJson, ofJson, hnames, given?_valueOf_ref (by simp [Entries.get?]) href]
        simp only [List.cons_append, valueOf_type, htype, propertiesOf, hqs]
        rfl
  | array items ref ih =>
      obtain ⟨href, hitems⟩ := documented_array_iff.mp h
      obtain ⟨hcheck, t, hread, hsame⟩ := ih hitems
      refine ⟨hcheck, .array t ref, ?_, hsame, rfl⟩
      have htype : SchemaKind.ofJson? (.str "array") = some .array := by decide
      rw [toJson, ofJson, given?_valueOf_ref (by simp [Entries.get?]) href]
      simp only [List.cons_append, valueOf_type, htype, itemsOf, isGiven_toJson, hread]
      rfl
  | leaf l ref =>
      obtain rfl := documented_leaf_iff.mp h
      refine ⟨rfl, .leaf l none, ?_, rfl, rfl⟩
      cases l <;> rfl

end Schema

end DtoForge
