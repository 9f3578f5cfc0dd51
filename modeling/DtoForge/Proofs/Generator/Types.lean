import Mathlib.Logic.Function.Iterate
import DtoForge.Generator.Basic
import DtoForge.Proofs.Extraction.Linking

/-! # Types — what the properties of extracted objects are written as

The enclosing type stands in for an object that refers to nothing. `typeOf_of_within` says what is
written when such an object stands behind layers of arrays. An extracted object holds none within
one layer: there every object with properties refers to a listed one. Behind two layers no object is
hoisted, and the enclosing type is written. -/

namespace DtoForge

namespace Schema

/-- The schema behind a number of array layers. -/
def within : Nat → Schema → Option Schema
  | 0, s => some s
  | layers + 1, .array items _ => items.within layers
  | _ + 1, _ => none

/-- Whether an object with properties stands behind two or more layers of arrays. -/
def Buried (s : Schema) : Prop :=
  ∃ layers p ps required ref, 2 ≤ layers ∧ s.within layers = some (.object (p :: ps) required ref)

theorem ref_eq_none_of_within {s t : Schema} {layers : Nat} (hs : s.Unreferenced)
    (h : s.within layers = some t) : t.ref = none := by
  induction layers generalizing s with
  | zero =>
      obtain rfl : s = t := by simpa [within] using h
      exact hs.self
  | succ layers ih =>
      cases s with
      | array items ref => exact ih hs.2 h
      | object ps required ref => cases h
      | leaf l ref => cases h

end Schema

namespace Writer

variable (w : Writer) (enclosing : String)

/-- Every layer of an array is written as one list type. -/
theorem typeOf_of_within {s t : Schema} {layers : Nat} (h : s.within layers = some t) :
    w.typeOf enclosing s = (w.typeOf enclosing t).map (w.dialect.listOf^[layers]) := by
  induction layers generalizing s with
  | zero =>
      obtain rfl : s = t := by simpa [Schema.within] using h
      cases w.typeOf enclosing s <;> rfl
  | succ layers ih =>
      cases s with
      | array items ref =>
          rw [typeOf, ih h]
          cases w.typeOf enclosing t with
          | error cause => rfl
          | ok type =>
              show Except.ok (w.dialect.listOf (w.dialect.listOf^[layers] type)) = Except.ok _
              rw [← Function.iterate_succ_apply' w.dialect.listOf layers type]
      | object ps required ref => cases h
      | leaf l ref => cases h

/-- A schema without references has a type, and where no object with properties stands behind
layers of arrays the type does not hang on the enclosing one. -/
theorem exists_typeOf_of_unreferenced {s : Schema} (hs : s.Unreferenced)
    (hnone : ∀ layers p ps required ref, s.within layers ≠ some (.object (p :: ps) required ref)) :
    ∃ type, ∀ enclosing, w.typeOf enclosing s = .ok type := by
  induction s using Schema.induct with
  | object ps required ref =>
      obtain rfl : ref = none := hs.self
      cases ps with
      | nil => exact ⟨w.dialect.mapType, fun _ => rfl⟩
      | cons p ps => exact absurd rfl (hnone 0 p ps required none)
  | array items ref ih =>
      obtain ⟨type, htype⟩ := ih hs.2 fun layers => hnone (layers + 1)
      exact ⟨w.dialect.listOf type, fun enclosing => by rw [typeOf, htype]; rfl⟩
  | leaf l ref => exact ⟨w.leafType l, fun _ => rfl⟩

end Writer

namespace Schema.Linked

variable {names : List String} {s : Schema}

/-- Within one layer of arrays every object with properties refers to a listed one, and behind more
layers none does. -/
theorem ref_of_within (h : s.Linked names) {layers : Nat} {p : RawText × Schema}
    {ps : List (RawText × Schema)} {required : List Json} {ref : Option Json}
    (hwithin : s.within layers = some (.object (p :: ps) required ref)) :
    (layers < 2 → ∃ name ∈ names, ref = some (.str name)) ∧ (2 ≤ layers → ref = none) := by
  cases h with
  | object hname =>
      cases layers with
      | zero =>
          cases hwithin
          exact ⟨fun _ => ⟨_, hname, rfl⟩, fun hlayers => by omega⟩
      | succ layers => cases hwithin
  | items hname =>
      match layers, hwithin with
      | 1, hwithin =>
          cases hwithin
          exact ⟨fun _ => ⟨_, hname, rfl⟩, fun hlayers => by omega⟩
  | plain hs hunder =>
      refine ⟨?_, fun _ => ref_eq_none_of_within hs hwithin⟩
      -- an object that stands so near is hoisted
      intro hlayers
      have hnone := hunder { endpointId := "", path := "", method := "", role := .response } ""
      match layers, s, hwithin with
      | 0, _, rfl => cases hnone
      | 1, .array _ _, rfl => cases hnone
      | layers + 2, _, _ => omega

/-- The type of a property of an extracted object hangs on the enclosing type only where an object
is buried. -/
theorem exists_typeOf (h : s.Linked names) (hs : ¬ s.Buried) (w : Writer) :
    ∃ type, ∀ enclosing, w.typeOf enclosing s = .ok type := by
  cases h with
  | @object _ _ _ name hname => exact ⟨w.typeName name, fun _ => rfl⟩
  | @items _ _ _ name hname => exact ⟨w.dialect.listOf (w.typeName name), fun _ => rfl⟩
  | plain hplain hunder =>
      apply w.exists_typeOf_of_unreferenced hplain
      intro layers p ps required ref hwithin
      by_cases hlayers : layers < 2
      · have hunlinked : s.Linked [] := .plain hplain hunder
        obtain ⟨name, hname, -⟩ := (hunlinked.ref_of_within hwithin).1 hlayers
        cases hname
      · exact hs ⟨layers, p, ps, required, ref, by omega, hwithin⟩

end Schema.Linked

namespace Extraction

/-- **Nested objects are hoisted within one layer of arrays, and there only.** Of the objects with
properties at a property of an extracted object, those behind at most one layer refer to a listed
object, and no others do. The type of the property hangs on the enclosing type exactly where one of
the others stands: it is then the enclosing type in as many lists. -/
theorem ofValue_hoisted_unless_buried (value : Json) (base : String) (role : Role) :
    let objects := ofValue value base role
    ∀ d ∈ objects, ∀ p ∈ d.schema.properties,
      (∀ layers q qs required ref, p.2.within layers = some (.object (q :: qs) required ref) →
        ((∃ n ∈ objects, ref = some (.str n.name)) ↔ layers < 2)) ∧
      (¬ p.2.Buried → ∀ w : Writer, ∃ type, ∀ enclosing, w.typeOf enclosing p.2 = .ok type) ∧
      (p.2.Buried → ∀ w : Writer, ∃ layers, 2 ≤ layers ∧ ∀ enclosing,
        w.typeOf enclosing p.2 = .ok (w.dialect.listOf^[layers] enclosing)) := by
  intro objects d hd p hp
  have hlinked : p.2.Linked (objects.map (·.name)) := ofValue_linked value base role d hd p hp
  refine ⟨?_, fun hburied w => hlinked.exists_typeOf hburied w, ?_⟩
  · intro layers q qs required ref hwithin
    obtain ⟨hnear, hfar⟩ := hlinked.ref_of_within hwithin
    constructor
    · rintro ⟨n, -, hn⟩
      by_contra hlayers
      rw [hfar (by omega)] at hn
      cases hn
    · intro hlayers
      obtain ⟨name, hname, href⟩ := hnear hlayers
      obtain ⟨n, hn, rfl⟩ := List.mem_map.mp hname
      exact ⟨n, hn, href⟩
  · rintro ⟨layers, q, qs, required, ref, hlayers, hwithin⟩ w
    obtain rfl := (hlinked.ref_of_within hwithin).2 hlayers
    refine ⟨layers, hlayers, ?_⟩
    intro enclosing
    rw [w.typeOf_of_within enclosing hwithin]
    rfl

/-- A point on its own, and points in rows. -/
def points : Json :=
  .object [("at", .object [("x", .int 1)]), ("grid", .list [.list [.object [("x", .int 1)]]])]

/-- The point on its own is hoisted, and its type does not hang on the enclosing one. -/
theorem ofValue_hoisted_unless_buried_points :
    ∃ d ∈ ofValue points "Root", ∃ p ∈ d.schema.properties, p.1 = "at" ∧ ¬ p.2.Buried ∧
      ∀ w : Writer, ∃ type, ∀ enclosing, w.typeOf enclosing p.2 = .ok type := by
  obtain ⟨d, hd, p, hp, hname, hp2⟩ : ∃ d ∈ ofValue points "Root", ∃ p ∈ d.schema.properties,
      p.1 = "at" ∧ ∃ ref, p.2 = .object [("x", .leaf .number none)] [.str "x"] ref :=
    ⟨_, List.mem_cons_self, _, List.mem_cons_self, rfl, _, rfl⟩
  have hburied : ¬ p.2.Buried := by
    obtain ⟨ref, hp2⟩ := hp2
    rintro ⟨layers, q, qs, required, ref', hlayers, hwithin⟩
    rw [hp2] at hwithin
    match layers, hwithin with
    | 0, _ => omega
  exact ⟨d, hd, p, hp, hname, hburied,
    (ofValue_hoisted_unless_buried points "Root" .response d hd p hp).2.1 hburied⟩

/-- The points in rows refer to nothing, and are written as the enclosing type. -/
theorem exists_not_hoisted_points :
    ∃ d ∈ ofValue points "Root", ∃ p ∈ d.schema.properties,
      p.2.within 2 = some (.object [("x", .leaf .number none)] [.str "x"] none) ∧
      ∀ (w : Writer) enclosing,
        w.typeOf enclosing p.2 = .ok (w.dialect.listOf (w.dialect.listOf enclosing)) :=
  ⟨_, List.mem_cons_self, _, List.mem_cons_of_mem _ List.mem_cons_self, rfl, fun _ _ => rfl⟩

end Extraction

end DtoForge
