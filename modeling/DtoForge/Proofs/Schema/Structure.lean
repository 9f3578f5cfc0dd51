import DtoForge.Proofs.Json.Entries
import DtoForge.Schema.Infer

/-! # Structure — schemas up to references and order

`Schema.Alike` is equality of structure: the same kind, items alike, and for objects the same
property names with schemas that are alike and the same required names. References and the order of
properties take no part. `Schema.Named` and `Schema.Unreferenced` say what schemas inferred from
examples have: required names that are texts, and no references. -/

namespace DtoForge.Schema

/-- Induction over schemas: the parts of an object are its properties, that of an array its
items. -/
@[induction_eliminator] theorem induct {motive : Schema → Prop}
    (object : ∀ ps required ref, (∀ p ∈ ps, motive p.2) → motive (.object ps required ref))
    (array : ∀ items ref, motive items → motive (.array items ref))
    (leaf : ∀ l ref, motive (.leaf l ref)) (s : Schema) : motive s := by
  induction hn : sizeOf s using Nat.strongRecOn generalizing s with
  | _ n ih =>
      subst hn
      cases s with
      | object ps required ref =>
          apply object
          rintro ⟨name, s⟩ hp
          have hsize := List.sizeOf_lt_of_mem hp
          apply ih (sizeOf s) _ s rfl
          simp only [Prod.mk.sizeOf_spec] at hsize
          simp only [Schema.object.sizeOf_spec]
          omega
      | array items ref =>
          apply array
          apply ih (sizeOf items) _ items rfl
          simp only [Schema.array.sizeOf_spec]
          omega
      | leaf l ref => exact leaf l ref

/-! ## Equality of structure -/

mutual

/-- Whether two schemas describe the same structure, whatever they refer to. -/
def Alike : Schema → Schema → Prop
  | .object ps required _, .object qs required' _ =>
    AllFound ps qs ∧ (∀ q ∈ qs, ∃ p ∈ ps, p.1 = q.1) ∧ ∀ v, v ∈ required ↔ v ∈ required'
  | .array items _, .array items' _ => Alike items items'
  | .leaf l _, .leaf l' _ => l = l'
  | _, _ => False

/-- Whether all properties are found among others, under the same name and with a schema of the
same structure. -/
def AllFound : List (RawText × Schema) → List (RawText × Schema) → Prop
  | [], _ => True
  | (name, s) :: ps, qs => (∃ t, (name, t) ∈ qs ∧ Alike s t) ∧ AllFound ps qs

end

theorem allFound_iff {ps qs : List (RawText × Schema)} :
    AllFound ps qs ↔ ∀ p ∈ ps, ∃ t, (p.1, t) ∈ qs ∧ Alike p.2 t := by
  induction ps with
  | nil => simp [AllFound]
  | cons p ps ih =>
      obtain ⟨name, s⟩ := p
      rw [AllFound, ih, List.forall_mem_cons]

theorem alike_object_iff {ps qs : List (RawText × Schema)} {required required' : List Json}
    {ref ref' : Option Json} :
    Alike (.object ps required ref) (.object qs required' ref') ↔
      (∀ p ∈ ps, ∃ t, (p.1, t) ∈ qs ∧ Alike p.2 t) ∧ (∀ q ∈ qs, ∃ p ∈ ps, p.1 = q.1) ∧
        ∀ v, v ∈ required ↔ v ∈ required' := by
  rw [Alike, allFound_iff]

/-! ## Inferred schemas -/

mutual

/-- Whether something holds of a schema and of all its parts. -/
def Everywhere (holds : Schema → Prop) : Schema → Prop
  | .object ps required ref => holds (.object ps required ref) ∧ EverywhereIn holds ps
  | .array items ref => holds (.array items ref) ∧ Everywhere holds items
  | .leaf l ref => holds (.leaf l ref)

/-- Whether something holds of the schemas of properties and of all their parts. -/
def EverywhereIn (holds : Schema → Prop) : List (RawText × Schema) → Prop
  | [] => True
  | (_, s) :: ps => Everywhere holds s ∧ EverywhereIn holds ps

end

/-- Whether all required names are texts. -/
def Named (s : Schema) : Prop :=
  s.Everywhere fun s => ∀ v ∈ s.required, ∃ name, v = .str name

/-- Whether a schema refers to nothing. -/
def Unreferenced (s : Schema) : Prop :=
  s.Everywhere fun s => s.ref = none

section Everywhere

variable {holds : Schema → Prop}

theorem everywhereIn_iff {ps : List (RawText × Schema)} :
    EverywhereIn holds ps ↔ ∀ p ∈ ps, Everywhere holds p.2 := by
  induction ps with
  | nil => simp [EverywhereIn]
  | cons p ps ih =>
      obtain ⟨name, s⟩ := p
      rw [EverywhereIn, ih, List.forall_mem_cons]

theorem everywhere_object_iff {ps : List (RawText × Schema)} {required : List Json}
    {ref : Option Json} :
    Everywhere holds (.object ps required ref) ↔
      holds (.object ps required ref) ∧ ∀ p ∈ ps, Everywhere holds p.2 := by
  rw [Everywhere, everywhereIn_iff]

theorem Everywhere.self {s : Schema} (h : Everywhere holds s) : holds s := by
  cases s with
  | object ps required ref => exact h.1
  | array items ref => exact h.1
  | leaf l ref => exact h

mutual

/-- What holds of the schema of every example holds of all parts of one. -/
theorem infer_everywhere (hinfer : ∀ v, holds (infer v)) (hunknown : holds (.leaf .unknown none)) :
    ∀ v, Everywhere holds (infer v)
  | .null => hinfer .null
  | .bool b => hinfer (.bool b)
  | .int n => hinfer (.int n)
  | .float x => hinfer (.float x)
  | .str s => hinfer (.str s)
  | .list [] => ⟨hinfer (.list []), hunknown⟩
  | .list (v :: vs) => ⟨hinfer (.list (v :: vs)), infer_everywhere hinfer hunknown v⟩
  | .object entries =>
    ⟨hinfer (.object entries), inferAll_everywhereIn hinfer hunknown entries⟩

/-- What holds of the schema of every example holds of all parts of the entries of one. -/
theorem inferAll_everywhereIn (hinfer : ∀ v, holds (infer v))
    (hunknown : holds (.leaf .unknown none)) : ∀ entries, EverywhereIn holds (inferAll entries)
  | [] => trivial
  | (_, v) :: es =>
    ⟨infer_everywhere hinfer hunknown v, inferAll_everywhereIn hinfer hunknown es⟩

end

end Everywhere

/-- The required names of an example are texts. -/
theorem infer_named (v : Json) : Named (infer v) := by
  apply infer_everywhere
  · intro v name hname
    rcases v with _ | _ | _ | _ | _ | (_ | _) | entries
    -- only objects require anything, and these the names of their entries
    all_goals
      simp only [infer, required, List.not_mem_nil] at hname
    obtain ⟨e, -, rfl⟩ := List.mem_map.mp hname
    exact ⟨e.1, rfl⟩
  · simp [required]

/-- The schema of an example refers to nothing. -/
theorem infer_unreferenced (v : Json) : Unreferenced (infer v) := by
  apply infer_everywhere
  · intro v
    rcases v with _ | _ | _ | _ | _ | (_ | _) | entries
    all_goals rfl
  · rfl

/-! ## Examples -/

/-- The kind of a value in documents. -/
def kindOf : Json → SchemaKind
  | .null => .leaf .null
  | .bool _ => .leaf .boolean
  | .int _ | .float _ => .leaf .number
  | .str _ => .leaf .string
  | .list _ => .array
  | .object _ => .object

theorem kind_infer (v : Json) : (infer v).kind = kindOf v := by
  rcases v with _ | _ | _ | _ | _ | (_ | _) | entries <;> rfl

/-- The schema of an example object, entry by entry. -/
theorem inferAll_eq_map (entries : Entries Json) :
    inferAll entries = entries.map fun e => (e.1, infer e.2) := by
  induction entries with
  | nil => rfl
  | cons e entries ih =>
      obtain ⟨key, v⟩ := e
      rw [inferAll, ih]
      rfl

/-- A property of an example is required if it is not null. -/
theorem contains_requiredNames_iff {entries : Entries Json} (hkeys : entries.keys.Nodup)
    {e : RawText × Json} (he : e ∈ entries) :
    (requiredNames entries).contains (.str e.1) ↔ e.2 ≠ .null := by
  have hnull : ∀ v : Json, (v.kind != .null) = true ↔ v ≠ .null := by
    intro v
    cases v <;> simp [Json.kind]
  rw [List.contains_iff_mem, requiredNames, List.mem_map]
  constructor
  · rintro ⟨e', he', heq⟩
    obtain ⟨hmem, hkind⟩ := List.mem_filter.mp he'
    have hkey : e'.1 = e.1 := Json.str.inj heq
    have hvalue := (Entries.mem_iff_get? hkeys).mp he
    rw [← hkey, (Entries.mem_iff_get? hkeys).mp hmem] at hvalue
    rw [← Option.some.inj hvalue]
    exact (hnull _).mp hkind
  · intro hne
    exact ⟨e, List.mem_filter.mpr ⟨he, (hnull _).mpr hne⟩, rfl⟩

end DtoForge.Schema
