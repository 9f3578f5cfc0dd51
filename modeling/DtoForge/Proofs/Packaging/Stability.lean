import DtoForge.Proofs.Packaging.Cycles
import DtoForge.Proofs.Packaging.Exploration

/-! # Stability — objects that are in order stay as they are

When everything that an object depends on stands before it, its visit finds all dependencies visited
and lists the object next. So the visit lists the objects as they were given, and what was put in
order once is not changed by doing so again. -/

namespace DtoForge.Packaging

open scoped List
open Relation (TransGen)

variable {objects : List ObjectDefinition}

/-- What stands before an object stands in front of the place of the object. -/
theorem mem_of_before {α : Type} {front behind : List α} {a b : α}
    (hnodup : (front ++ a :: behind).Nodup) (h : [b, a] <+ front ++ a :: behind) : b ∈ front := by
  obtain ⟨-, hrest, -⟩ := List.nodup_append.mp hnodup
  obtain ⟨ha, -⟩ := List.nodup_cons.mp hrest
  obtain ⟨early, late, hsplit, hearly, hlate⟩ := List.sublist_append_iff.mp h
  cases early with
  | cons x early =>
      obtain rfl : b = x := (List.cons.inj hsplit).1
      exact hearly.subset List.mem_cons_self
  | nil =>
      obtain rfl : [b, a] = late := hsplit
      -- both stand behind the front, so the object stands a second time
      rcases List.sublist_cons_iff.mp hlate with hlate | ⟨_, htail, hlate⟩
      · exact absurd (hlate.subset (by simp)) ha
      · obtain rfl := (List.cons.inj htail).2
        exact absurd (List.singleton_sublist.mp hlate) ha

namespace Traversal

/-- The visit of an object whose dependencies stand before it lists the object next. -/
theorem visit_of_before {front behind : List ObjectDefinition} {d : ObjectDefinition}
    (hobjects : objects = front ++ d :: behind) (hids : (objects.map (·.id)).Nodup)
    (hfirst : ∀ b, DependsOn objects d b → [b, d] <+ objects) (depth : Nat) :
    visit objects (depth + 1) (list {} front) d = list {} (front ++ [d]) := by
  have hnodup := hids.of_map
  rw [hobjects, List.map_append, List.map_cons] at hids
  obtain ⟨-, -, hapart⟩ := List.nodup_append.mp hids
  have hne : ∀ b ∈ front, b.id ≠ d.id := fun b hb =>
    hapart b.id (List.mem_map_of_mem hb) d.id List.mem_cons_self
  have hvisited : ∀ {id}, id ∈ (list {} front).visited ↔ id ∈ front.map (·.id) := by
    simp [list]
  rw [← list_list]
  refine visit_of_follow ?_ List.not_mem_nil ((foldl_follow_of_visited ?_).trans (list_nil _).symm)
  · rw [hvisited]
    intro hmem
    obtain ⟨b, hb, hid⟩ := List.mem_map.mp hmem
    exact hne b hb hid
  · intro id hid hknown
    obtain ⟨b, hb, rfl⟩ := List.mem_map.mp hknown
    have hfront : b ∈ front := mem_of_before (hobjects ▸ hnodup) (hobjects ▸ hfirst b ⟨hb, hid⟩)
    exact ⟨hvisited.mpr (List.mem_map_of_mem hfront),
      fun hvisiting => hne b hfront (List.mem_singleton.mp hvisiting)⟩

theorem foldl_visit_of_before {front behind : List ObjectDefinition}
    (hobjects : objects = front ++ behind) (hids : (objects.map (·.id)).Nodup)
    (hfirst : ∀ a ∈ objects, ∀ b, DependsOn objects a b → [b, a] <+ objects) (depth : Nat) :
    behind.foldl (visit objects (depth + 1)) (list {} front) = list {} objects := by
  induction behind generalizing front with
  | nil => rw [hobjects, List.append_nil, List.foldl_nil]
  | cons d behind ih =>
      have hd : d ∈ objects := hobjects ▸ List.mem_append_right _ List.mem_cons_self
      rw [List.foldl_cons, visit_of_before hobjects hids (hfirst d hd)]
      exact ih (by rw [hobjects, List.append_assoc, List.singleton_append])

end Traversal

/-- Objects whose dependencies stand before them stay in their order. -/
theorem orderByDependency_of_before (hids : (objects.map (·.id)).Nodup)
    (hfirst : ∀ a ∈ objects, ∀ b, DependsOn objects a b → [b, a] <+ objects) :
    orderByDependency objects = objects := by
  have hall := Traversal.foldl_visit_of_before (List.nil_append objects).symm hids hfirst
    objects.length
  rw [Traversal.list_nil] at hall
  rw [orderByDependency, traverse, hall]
  rfl

/-- Objects that depend on none of each other stay in their order. -/
theorem orderByDependency_of_missing (hids : (objects.map (·.id)).Nodup)
    (h : ∀ d ∈ objects, ∀ id ∈ d.dependencies, id ∉ objects.map (·.id)) :
    orderByDependency objects = objects :=
  orderByDependency_of_before hids fun a ha _ hedge =>
    absurd (List.mem_map_of_mem hedge.1) (h a ha _ hedge.2)

theorem dependsOn_orderByDependency (hids : (objects.map (·.id)).Nodup) :
    DependsOn (orderByDependency objects) = DependsOn objects := by
  funext a b
  rw [DependsOn, DependsOn, mem_orderByDependency hids]

/-- **Objects whose known dependencies all stand before them are listed as they stand.** So without
cycles what was put in order is left alone when it is put in order again. -/
theorem orderByDependency_eq_self_and_idempotent (objects : List ObjectDefinition)
    (hids : (objects.map (·.id)).Nodup) :
    ((∀ a ∈ objects, ∀ b, DependsOn objects a b → [b, a] <+ objects) →
        orderByDependency objects = objects) ∧
      ((∀ a ∈ objects, ¬ TransGen (DependsOn objects) a a) →
        orderByDependency (orderByDependency objects) = orderByDependency objects) := by
  refine ⟨orderByDependency_of_before hids, fun hacyclic => ?_⟩
  have hperm := orderByDependency_perm_of_nodup hids
  have hnone := cycles_eq_nil_of_acyclic hids hacyclic
  apply orderByDependency_of_before ((hperm.map _).nodup_iff.mpr hids)
  intro a ha b hedge
  rw [dependsOn_orderByDependency hids] at hedge
  exact before_of_cycles_eq_nil hids hnone ((mem_orderByDependency hids).mp ha) hedge

/-- A shared dependency and an identifier of no object, in order and out of it. -/
theorem orderByDependency_eq_self_and_idempotent_shared :
    let sorted := [bareObject "d" [], bareObject "b" ["d", "x"], bareObject "a" ["b", "d"]]
    let mixed := [bareObject "a" ["b", "d"], bareObject "d" [], bareObject "b" ["d", "x"]]
    (sorted.map (·.id)).Nodup ∧ (mixed.map (·.id)).Nodup ∧ orderByDependency sorted = sorted ∧
      orderByDependency mixed ≠ mixed ∧
      orderByDependency (orderByDependency mixed) = orderByDependency mixed := by
  intro sorted mixed
  have hsorted : (sorted.map (·.id)).Nodup := by decide
  have hmixed : (mixed.map (·.id)).Nodup := by decide
  have hfirst : ∀ a ∈ sorted, ∀ b, DependsOn sorted a b → [b, a] <+ sorted := by
    rintro a ha b ⟨hb, hid⟩
    simp only [sorted, List.mem_cons, List.not_mem_nil, or_false] at ha hb
    rcases ha with rfl | rfl | rfl <;> rcases hb with rfl | rfl | rfl <;>
      simp [bareObject] at hid <;> simp [sorted]
  have hacyclic : ∀ a ∈ mixed, ¬ TransGen (DependsOn mixed) a a :=
    (cycles_eq_nil_iff hmixed).mp (by decide)
  refine ⟨hsorted, hmixed, (orderByDependency_eq_self_and_idempotent sorted hsorted).1 hfirst, ?_,
    (orderByDependency_eq_self_and_idempotent mixed hmixed).2 hacyclic⟩
  intro h
  exact absurd (congrArg (List.map (·.id)) h) (by decide)

end DtoForge.Packaging
