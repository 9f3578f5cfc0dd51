import DtoForge.Proofs.Packaging.Order

/-! # Cycles — what the noted edges tell about the dependencies

An edge is noted when it leads back to an object under visit, so it closes a cycle. Conversely the
objects are put in some order in any case, and without a noted edge every dependency stands before its
dependents there. Standing before leads nowhere round, so there was no cycle. -/

namespace DtoForge.Packaging

open scoped List
open Relation (ReflTransGen TransGen)

/-- Standing before is transitive in a list without doubles. -/
theorem before_trans {α : Type} {l : List α} (hnodup : l.Nodup) {a b c : α} (hab : [a, b] <+ l)
    (hbc : [b, c] <+ l) : [a, c] <+ l := by
  induction l with
  | nil => cases hab
  | cons x l ih =>
      obtain ⟨hx, hnodup⟩ := List.nodup_cons.mp hnodup
      rcases List.sublist_cons_iff.mp hbc with hbc | ⟨_, hb, -⟩
      · have hc : c ∈ l := hbc.subset (by simp)
        rcases List.sublist_cons_iff.mp hab with hab | ⟨_, ha, -⟩
        · exact (ih hnodup hab hbc).cons x
        · obtain rfl : a = x := (List.cons.inj ha).1
          exact (List.singleton_sublist.mpr hc).cons_cons a
      · -- `b` stands first, so nothing stands before it
        obtain rfl : b = x := (List.cons.inj hb).1
        rcases List.sublist_cons_iff.mp hab with hab | ⟨_, ha, htail⟩
        · exact absurd (hab.subset (by simp)) hx
        · obtain rfl := (List.cons.inj ha).2
          exact absurd (List.singleton_sublist.mp htail) hx

variable {objects order : List ObjectDefinition} {a b : ObjectDefinition}

theorem mem_of_transGen (h : TransGen (DependsOn objects) a b) : b ∈ objects := by
  cases h with
  | single hedge => exact hedge.1
  | tail _ hedge => exact hedge.1

/-- When dependencies stand before their dependents, so does whatever they lead to. -/
theorem before_of_transGen (hnodup : order.Nodup)
    (hfirst : ∀ a ∈ objects, ∀ b, DependsOn objects a b → [b, a] <+ order) (ha : a ∈ objects)
    (h : TransGen (DependsOn objects) a b) : [b, a] <+ order := by
  induction h with
  | single hedge => exact hfirst a ha _ hedge
  | tail hpath hedge ih => exact before_trans hnodup (hfirst _ (mem_of_transGen hpath) _ hedge) ih

/-- **Among objects whose dependencies all stand before them nothing leads back to itself.** -/
theorem acyclic_of_before (hnodup : order.Nodup)
    (hfirst : ∀ a ∈ objects, ∀ b, DependsOn objects a b → [b, a] <+ order) :
    ∀ a ∈ objects, ¬ TransGen (DependsOn objects) a a :=
  fun a ha hcycle => List.nodup_iff_sublist.mp hnodup a (before_of_transGen hnodup hfirst ha hcycle)

theorem orderByDependency_nodup (hids : (objects.map (·.id)).Nodup) :
    (orderByDependency objects).Nodup :=
  (orderByDependency_perm_of_nodup hids).nodup_iff.mpr (hids.of_map _)

theorem cycles_eq_nil_iff (hids : (objects.map (·.id)).Nodup) :
    (traverse objects).cycles = [] ↔ ∀ a ∈ objects, ¬ TransGen (DependsOn objects) a a := by
  refine ⟨fun hnone => ?_, cycles_eq_nil_of_acyclic hids⟩
  exact acyclic_of_before (orderByDependency_nodup hids) fun a ha b hedge =>
    before_of_cycles_eq_nil hids hnone ha hedge

/-- **A cycle is recorded exactly if some object depends on itself, however many objects lie between,
and every record is that of a dependency from which a path leads back to its dependent.** -/
theorem cycleRecords_ne_nil_iff_and_closing (objects : List ObjectDefinition)
    (hids : (objects.map (·.id)).Nodup) :
    (cycleRecords objects ≠ [] ↔ ∃ a ∈ objects, TransGen (DependsOn objects) a a) ∧
      ∀ r ∈ cycleRecords objects, ∃ a ∈ objects, ∃ b ∈ objects,
        r = CycleEdge.record ⟨a.name, b.name⟩ ∧ DependsOn objects a b ∧
          ReflTransGen (DependsOn objects) b a := by
  constructor
  · rw [cycleRecords, Ne, List.map_eq_nil_iff, cycles_eq_nil_iff hids]
    push Not
    rfl
  · intro r hr
    obtain ⟨e, he, rfl⟩ := List.mem_map.mp hr
    obtain ⟨a, ha, b, rfl, hedge, hback⟩ := (traverse_sound hids).closing e he
    exact ⟨a, ha, b, hedge.1, rfl, hedge, hback⟩

/-- Two ways to one object are no cycle, and a cycle is found also from the side. -/
theorem cycleRecords_ne_nil_iff_and_closing_diamond :
    let diamond := [bareObject "a" ["b", "c"], bareObject "b" ["d"], bareObject "c" ["d"],
      bareObject "d" []]
    let side := [bareObject "a" ["b"], bareObject "c" ["b"], bareObject "b" ["c"]]
    (diamond.map (·.id)).Nodup ∧ (side.map (·.id)).Nodup ∧
      (¬ ∃ a ∈ diamond, TransGen (DependsOn diamond) a a) ∧
      (∃ a ∈ side, TransGen (DependsOn side) a a) ∧
      ∃ a ∈ side, ∃ b ∈ side, CycleEdge.record ⟨"c", "b"⟩ = CycleEdge.record ⟨a.name, b.name⟩ ∧
        DependsOn side a b ∧ ReflTransGen (DependsOn side) b a := by
  intro diamond side
  have hdiamond : (diamond.map (·.id)).Nodup := by decide
  have hside : (side.map (·.id)).Nodup := by decide
  have hnone : cycleRecords diamond = [] := by decide
  have hfound : cycleRecords side = [CycleEdge.record ⟨"c", "b"⟩] := by decide
  obtain ⟨hcycle, hclosing⟩ := cycleRecords_ne_nil_iff_and_closing side hside
  refine ⟨hdiamond, hside, ?_, hcycle.mp (by rw [hfound]; exact List.cons_ne_nil _ _),
    hclosing _ (by rw [hfound]; exact List.mem_singleton_self _)⟩
  rw [← (cycleRecords_ne_nil_iff_and_closing diamond hdiamond).1]
  exact not_not.mpr hnone

end DtoForge.Packaging
