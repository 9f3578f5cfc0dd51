import Mathlib.Data.List.Nodup
import Mathlib.Logic.Relation
import DtoForge.Packaging.Order

/-! # Order — what the depth-first visit lists, and in which order

`Traversal.Sound` is what holds of the visit between any two steps: what is listed has ended,
what is under visit has not, and every dependency of a listed object is listed before it or was
noted as an edge that closes a cycle. A visit keeps it (`visit_advances`), and from the empty
state it gives the two halves of the order:

* every object is listed once (`orderByDependency_perm_of_nodup`);
* a dependency is misplaced only inside a cycle (`Traversal.Sound.placed`).

Identifiers are taken to be different throughout; dependencies may be anything. Objects that can be
laid out with every dependency behind its dependents (`Grounded`) have no cycle, so none is noted
among them and all dependencies stand first. -/

namespace DtoForge.Packaging

open scoped List
open Relation (ReflTransGen TransGen)

/-- An object depends on another one of the given objects. -/
def DependsOn (objects : List ObjectDefinition) (a b : ObjectDefinition) : Prop :=
  b ∈ objects ∧ b.id ∈ a.dependencies

/-! ## Looking up identifiers -/

section Lookup

variable {objects : List ObjectDefinition}

/-- Objects of one identifier are one object. -/
theorem eq_of_id_eq (hids : (objects.map (·.id)).Nodup) {a b : ObjectDefinition}
    (ha : a ∈ objects) (hb : b ∈ objects) (h : a.id = b.id) : a = b :=
  List.inj_on_of_nodup_map hids ha hb h

theorem lookup?_eq_some_iff (hids : (objects.map (·.id)).Nodup) {id : String}
    {d : ObjectDefinition} :
    Traversal.lookup? objects id = some d ↔ d ∈ objects ∧ d.id = id := by
  constructor
  · intro h
    have hmem := List.mem_of_find?_eq_some h
    have hid := List.find?_some h
    exact ⟨List.mem_reverse.mp hmem, by simpa using hid⟩
  · rintro ⟨hd, rfl⟩
    cases h : Traversal.lookup? objects d.id with
    | none =>
        have hnone := List.find?_eq_none.mp h d (List.mem_reverse.mpr hd)
        exact absurd hnone (by simp)
    | some e =>
        have hmem := List.mem_reverse.mp (List.mem_of_find?_eq_some h)
        have hid : e.id = d.id := by simpa using List.find?_some h
        rw [eq_of_id_eq hids hmem hd hid]

theorem lookup?_eq_none {id : String} (h : Traversal.lookup? objects id = none) :
    ∀ d ∈ objects, d.id ≠ id := by
  intro d hd
  simpa using List.find?_eq_none.mp h d (List.mem_reverse.mpr hd)

end Lookup

/-! ## The invariant -/

namespace Traversal

/-- A dependency of an object is listed before it, or its edge was noted and closes a cycle. -/
def Placed (objects : List ObjectDefinition) (t : Traversal) (a b : ObjectDefinition) : Prop :=
  [b, a] <+ t.ordered ∨
    (⟨a.name, b.name⟩ ∈ t.cycles ∧ ReflTransGen (DependsOn objects) b a)

/-- What holds of the visit between any two steps. -/
structure Sound (objects : List ObjectDefinition) (t : Traversal) : Prop where
  visited_iff : ∀ id, id ∈ t.visited ↔ id ∈ t.ordered.map (·.id)
  listed : ∀ d ∈ t.ordered, d ∈ objects
  nodup : (t.ordered.map (·.id)).Nodup
  known : t.visiting ⊆ objects.map (·.id)
  visiting_nodup : t.visiting.Nodup
  apart : ∀ id ∈ t.visiting, id ∉ t.visited
  placed : ∀ a ∈ t.ordered, ∀ b, DependsOn objects a b → Placed objects t a b
  closing : ∀ e ∈ t.cycles, ∃ a ∈ objects, ∃ b, e = ⟨a.name, b.name⟩ ∧
    DependsOn objects a b ∧ ReflTransGen (DependsOn objects) b a

/-- A later state of the visit with the same objects under visit. -/
structure Advances (objects : List ObjectDefinition) (t t' : Traversal) : Prop where
  sound : Sound objects t'
  visiting : t'.visiting = t.visiting
  ordered : t.ordered <+: t'.ordered
  cycles : t.cycles <+: t'.cycles

/-- Everything under visit leads to an object. -/
def LeadsTo (objects : List ObjectDefinition) (t : Traversal) (d : ObjectDefinition) : Prop :=
  ∀ s ∈ objects, s.id ∈ t.visiting → ReflTransGen (DependsOn objects) s d

variable {objects : List ObjectDefinition} {t t' : Traversal} {d : ObjectDefinition}

theorem Advances.refl (h : Sound objects t) : Advances objects t t :=
  ⟨h, rfl, List.prefix_rfl, List.prefix_rfl⟩

theorem Advances.trans {t'' : Traversal} (h : Advances objects t t')
    (h' : Advances objects t' t'') : Advances objects t t'' :=
  ⟨h'.sound, h'.visiting.trans h.visiting, h.ordered.trans h'.ordered, h.cycles.trans h'.cycles⟩

theorem LeadsTo.advance (hs : LeadsTo objects t d) (h : Advances objects t t') :
    LeadsTo objects t' d := by
  intro s hmem hvisiting
  exact hs s hmem (h.visiting ▸ hvisiting)

theorem Placed.mono {a b : ObjectDefinition} (hp : Placed objects t a b)
    (hordered : t.ordered <+: t'.ordered) (hcycles : t.cycles <+: t'.cycles) :
    Placed objects t' a b := by
  rcases hp with hbefore | ⟨hnoted, hback⟩
  · exact Or.inl (hbefore.trans hordered.sublist)
  · exact Or.inr ⟨hcycles.subset hnoted, hback⟩

theorem sound_empty : Sound objects {} where
  visited_iff := by simp
  listed := by simp
  nodup := List.nodup_nil
  known := List.nil_subset _
  visiting_nodup := List.nodup_nil
  apart := by simp
  placed := by simp
  closing := by simp

/-! ### Steps of a visit -/

theorem Sound.enter (h : Sound objects t) (hd : d ∈ objects) (hnew : d.id ∉ t.visited)
    (hout : d.id ∉ t.visiting) : Sound objects (t.enter d) where
  visited_iff := h.visited_iff
  listed := h.listed
  nodup := h.nodup
  known := List.cons_subset.mpr ⟨List.mem_map_of_mem hd, h.known⟩
  visiting_nodup := List.nodup_cons.mpr ⟨hout, h.visiting_nodup⟩
  apart := by
    intro id hid
    rcases List.mem_cons.mp hid with rfl | hid
    · exact hnew
    · exact h.apart id hid
  placed := h.placed
  closing := h.closing

theorem Sound.note (h : Sound objects t) {b : ObjectDefinition} (hd : d ∈ objects)
    (hedge : DependsOn objects d b) (hback : ReflTransGen (DependsOn objects) b d) :
    Sound objects { t with cycles := t.cycles ++ [⟨d.name, b.name⟩] } where
  visited_iff := h.visited_iff
  listed := h.listed
  nodup := h.nodup
  known := h.known
  visiting_nodup := h.visiting_nodup
  apart := h.apart
  placed := fun a ha b' hb' =>
    (h.placed a ha b' hb').mono List.prefix_rfl (List.prefix_append _ _)
  closing := by
    intro e he
    rcases List.mem_append.mp he with he | he
    · exact h.closing e he
    · rw [List.mem_singleton.mp he]
      exact ⟨d, hd, b, rfl, hedge, hback⟩

/-- Ending the visit of the object under visit last, when all its dependencies have been
followed. -/
theorem Sound.leave (h : Sound objects t) {outer : List String} (hd : d ∈ objects)
    (hvisiting : t.visiting = d.id :: outer)
    (hdeps : ∀ b, DependsOn objects d b → b ∈ t.ordered ∨
      (⟨d.name, b.name⟩ ∈ t.cycles ∧ ReflTransGen (DependsOn objects) b d)) :
    Sound objects (t.leave d) ∧ (t.leave d).visiting = outer := by
  have hnodup := h.visiting_nodup
  rw [hvisiting] at hnodup
  obtain ⟨hout, houter⟩ := List.nodup_cons.mp hnodup
  have hleft : (t.leave d).visiting = outer := by
    have hkeep : outer.filter (· != d.id) = outer := by
      rw [List.filter_eq_self]
      intro id hid
      simpa using ne_of_mem_of_not_mem hid hout
    simp [Traversal.leave, hvisiting, hkeep]
  have hnew : d.id ∉ t.ordered.map (·.id) := by
    rw [← h.visited_iff]
    exact h.apart d.id (hvisiting ▸ List.mem_cons_self)
  refine ⟨?_, hleft⟩
  exact {
    visited_iff := by
      intro id
      simp [Traversal.leave, h.visited_iff, or_comm]
    listed := by
      intro a ha
      rcases List.mem_append.mp ha with ha | ha
      · exact h.listed a ha
      · exact List.mem_singleton.mp ha ▸ hd
    nodup := by
      have hlast : (t.ordered.map (·.id) ++ [d.id]).Nodup :=
        List.nodup_append_comm.mp (List.nodup_cons.mpr ⟨hnew, h.nodup⟩)
      simpa [Traversal.leave] using hlast
    known := by
      rw [hleft]
      exact fun id hid => h.known (hvisiting ▸ List.mem_cons_of_mem _ hid)
    visiting_nodup := hleft ▸ houter
    apart := by
      rw [hleft]
      intro id hid hmem
      rcases List.mem_cons.mp hmem with rfl | hmem
      · exact hout hid
      · exact h.apart id (hvisiting ▸ List.mem_cons_of_mem _ hid) hmem
    placed := by
      intro a ha b hb
      rcases List.mem_append.mp ha with ha | ha
      · exact (h.placed a ha b hb).mono (List.prefix_append _ _) List.prefix_rfl
      · -- the object that is listed now stands behind everything listed before
        obtain rfl := List.mem_singleton.mp ha
        rcases hdeps b hb with hlisted | hnoted
        · exact Or.inl ((List.singleton_sublist.mpr hlisted).append (List.Sublist.refl [a]))
        · exact Or.inr hnoted
    closing := h.closing }

/-- What following a dependency leaves behind: it is listed, or noted as closing a cycle. -/
def Followed (objects : List ObjectDefinition) (t : Traversal) (d : ObjectDefinition)
    (id : String) : Prop :=
  ∀ b ∈ objects, b.id = id → b ∈ t.ordered ∨
    (⟨d.name, b.name⟩ ∈ t.cycles ∧ ReflTransGen (DependsOn objects) b d)

theorem Followed.advance {id : String} (hf : Followed objects t d id)
    (h : Advances objects t t') : Followed objects t' d id := by
  intro b hb hid
  rcases hf b hb hid with hlisted | ⟨hnoted, hback⟩
  · exact Or.inl (h.ordered.subset hlisted)
  · exact Or.inr ⟨h.cycles.subset hnoted, hback⟩

/-- What a function that visits one object has to do, as far as `visit` goes deeper by it. -/
def Visits (objects : List ObjectDefinition) (depth : Nat)
    (visit : Traversal → ObjectDefinition → Traversal) : Prop :=
  ∀ t d, Sound objects t → d ∈ objects → d.id ∉ t.visiting → LeadsTo objects t d →
    objects.length < depth + t.visiting.length →
    Advances objects t (visit t d) ∧ d ∈ (visit t d).ordered

theorem follow_advances (hids : (objects.map (·.id)).Nodup) {depth : Nat}
    {visit : Traversal → ObjectDefinition → Traversal} (hvisit : Visits objects depth visit)
    (h : Sound objects t) (hd : d ∈ objects) (hlead : LeadsTo objects t d)
    (hdepth : objects.length < depth + t.visiting.length) {id : String}
    (hid : id ∈ d.dependencies) :
    Advances objects t (follow objects visit d t id) ∧
      Followed objects (follow objects visit d t id) d id := by
  unfold follow
  cases hlook : lookup? objects id with
  | none => exact ⟨Advances.refl h, fun b hb hbid => absurd hbid (lookup?_eq_none hlook b hb)⟩
  | some b =>
      obtain ⟨hb, rfl⟩ := (lookup?_eq_some_iff hids).mp hlook
      have hedge : DependsOn objects d b := ⟨hb, hid⟩
      by_cases hopen : b.id ∈ t.visiting
      · -- an edge back: the target is under visit, so it leads to `d`
        have hback := hlead b hb hopen
        simp only [List.contains_iff_mem, hopen, if_true]
        refine ⟨⟨h.note hd hedge hback, rfl, List.prefix_rfl, List.prefix_append _ _⟩, ?_⟩
        intro b' hb' hid'
        obtain rfl := eq_of_id_eq hids hb' hb hid'
        exact Or.inr ⟨by simp, hback⟩
      · -- not under visit: whatever leads to `d` leads on to the target
        have hlead' : LeadsTo objects t b := fun s hs hvis => (hlead s hs hvis).tail hedge
        obtain ⟨hadv, hlisted⟩ := hvisit t b h hb hopen hlead' hdepth
        simp only [List.contains_iff_mem, hopen, if_false]
        refine ⟨hadv, ?_⟩
        intro b' hb' hid'
        obtain rfl := eq_of_id_eq hids hb' hb hid'
        exact Or.inl hlisted

theorem foldl_follow_advances (hids : (objects.map (·.id)).Nodup) {depth : Nat}
    {visit : Traversal → ObjectDefinition → Traversal} (hvisit : Visits objects depth visit)
    (hd : d ∈ objects) {ids : List String} (hsub : ids ⊆ d.dependencies)
    (h : Sound objects t) (hlead : LeadsTo objects t d)
    (hdepth : objects.length < depth + t.visiting.length) :
    Advances objects t (ids.foldl (follow objects visit d) t) ∧
      ∀ id ∈ ids, Followed objects (ids.foldl (follow objects visit d) t) d id := by
  induction ids generalizing t with
  | nil => exact ⟨Advances.refl h, by simp⟩
  | cons id ids ih =>
      obtain ⟨hhead, htail⟩ := List.cons_subset.mp hsub
      obtain ⟨hone, hfollowed⟩ := follow_advances hids hvisit h hd hlead hdepth hhead
      obtain ⟨hrest, hall⟩ :=
        ih htail hone.sound (hlead.advance hone) (hone.visiting ▸ hdepth)
      refine ⟨hone.trans hrest, ?_⟩
      intro id' hid'
      rcases List.mem_cons.mp hid' with rfl | hid'
      · exact hfollowed.advance hrest
      · exact hall id' hid'

/-- **A visit keeps the invariant and lists its object.** The depth suffices because the objects
under visit are different ones of the given objects. -/
theorem visit_advances (hids : (objects.map (·.id)).Nodup) :
    ∀ depth, Visits objects depth (visit objects depth)
  | 0 => by
      -- out of depth: more objects would be under visit than there are
      intro t d h _ _ _ hdepth
      have hle : t.visiting.length ≤ objects.length := by
        simpa using h.visiting_nodup.length_le_of_subset h.known
      omega
  | depth + 1 => by
      intro t d h hd hout hlead hdepth
      rw [visit]
      by_cases hvisited : d.id ∈ t.visited
      · obtain ⟨e, he, hid⟩ := List.mem_map.mp ((h.visited_iff d.id).mp hvisited)
        obtain rfl := eq_of_id_eq hids (h.listed e he) hd hid
        simp only [List.contains_iff_mem, hvisited, if_true]
        exact ⟨Advances.refl h, he⟩
      · simp only [List.contains_iff_mem, hvisited, if_false]
        have hentered := h.enter hd hvisited hout
        have hlead' : LeadsTo objects (t.enter d) d := by
          intro s hs hvis
          rcases List.mem_cons.mp hvis with hid | hvis
          · exact eq_of_id_eq hids hs hd hid ▸ ReflTransGen.refl
          · exact hlead s hs hvis
        obtain ⟨hadv, hfollowed⟩ := foldl_follow_advances hids (visit_advances hids depth) hd
          (List.Subset.refl d.dependencies) hentered hlead'
          (by simp only [Traversal.enter, List.length_cons]; omega)
        obtain ⟨hsound, hvisiting⟩ := hadv.sound.leave hd hadv.visiting
          (fun b hb => hfollowed b.id hb.2 b hb.1 rfl)
        exact ⟨⟨hsound, hvisiting, hadv.ordered.trans (List.prefix_append _ _), hadv.cycles⟩,
          List.mem_append_right _ List.mem_cons_self⟩

/-- Visiting several objects, one after the other, when none is under visit. -/
theorem foldl_visit_advances (hids : (objects.map (·.id)).Nodup) {ds : List ObjectDefinition}
    (hsub : ds ⊆ objects) (h : Sound objects t) (hnone : t.visiting = []) :
    Advances objects t (ds.foldl (visit objects (objects.length + 1)) t) ∧
      ∀ d ∈ ds, d ∈ (ds.foldl (visit objects (objects.length + 1)) t).ordered := by
  induction ds generalizing t with
  | nil => exact ⟨Advances.refl h, by simp⟩
  | cons d ds ih =>
      obtain ⟨hd, hds⟩ := List.cons_subset.mp hsub
      obtain ⟨hone, hlisted⟩ := visit_advances hids (objects.length + 1) t d h hd
        (by simp [hnone]) (by simp [LeadsTo, hnone]) (by omega)
      obtain ⟨hrest, hall⟩ := ih hds hone.sound (hone.visiting.trans hnone)
      refine ⟨hone.trans hrest, ?_⟩
      intro d' hd'
      rcases List.mem_cons.mp hd' with rfl | hd'
      · exact hrest.ordered.subset hlisted
      · exact hall d' hd'

end Traversal

/-! ## The order of all objects -/

variable {objects : List ObjectDefinition}

/-- The visit of all objects is sound. -/
theorem traverse_sound (hids : (objects.map (·.id)).Nodup) :
    Traversal.Sound objects (traverse objects) :=
  (Traversal.foldl_visit_advances hids (List.Subset.refl _) Traversal.sound_empty rfl).1.sound

theorem mem_orderByDependency (hids : (objects.map (·.id)).Nodup) {d : ObjectDefinition} :
    d ∈ orderByDependency objects ↔ d ∈ objects := by
  constructor
  · exact (traverse_sound hids).listed d
  · exact (Traversal.foldl_visit_advances hids (List.Subset.refl _) Traversal.sound_empty rfl).2 d

/-- Every object is listed exactly once. -/
theorem orderByDependency_perm_of_nodup (hids : (objects.map (·.id)).Nodup) :
    (orderByDependency objects).Perm objects :=
  (List.perm_ext_iff_of_nodup (List.Nodup.of_map _ (traverse_sound hids).nodup)
    (List.Nodup.of_map _ hids)).mpr fun _ => mem_orderByDependency hids

/-- **Every object is listed exactly once, and a dependency stands before its dependent unless the
dependent is in turn reached from it.** -/
theorem orderByDependency_perm_and_placed (objects : List ObjectDefinition)
    (hids : (objects.map (·.id)).Nodup) :
    (orderByDependency objects).Perm objects ∧
      ∀ a ∈ objects, ∀ b, DependsOn objects a b →
        [b, a] <+ orderByDependency objects ∨ TransGen (DependsOn objects) b a := by
  refine ⟨orderByDependency_perm_of_nodup hids, ?_⟩
  intro a ha b hedge
  have hlisted : a ∈ orderByDependency objects := (mem_orderByDependency hids).mpr ha
  rcases (traverse_sound hids).placed a hlisted b hedge with hbefore | ⟨-, hback⟩
  · exact Or.inl hbefore
  · right
    -- going back in no steps means that the object depends on itself
    rcases Relation.reflTransGen_iff_eq_or_transGen.mp hback with rfl | hback
    · exact TransGen.single hedge
    · exact hback

/-- An object for examples: an identifier and what it depends on. -/
def bareObject (id : String) (dependencies : List String) : ObjectDefinition :=
  { id, name := id, schema := .object [] [] none
    source := { endpointId := "ep", path := "/x", method := "GET", role := .response }
    dependencies }

/-- Two objects that need each other, one that needs itself, and an identifier of no object. -/
theorem orderByDependency_perm_and_placed_entangled :
    let objects := [bareObject "a" ["b", "b", "x"], bareObject "b" ["c", "a"], bareObject "c" ["c"]]
    (objects.map (·.id)).Nodup ∧ (orderByDependency objects).Perm objects ∧
      ∀ a ∈ objects, ∀ b, DependsOn objects a b →
        [b, a] <+ orderByDependency objects ∨ TransGen (DependsOn objects) b a := by
  intro objects
  have hids : (objects.map (·.id)).Nodup := by decide
  exact ⟨hids, orderByDependency_perm_and_placed objects hids⟩

/-! ## Objects without cycles -/

/-- Every object of the list depends only on objects behind it. -/
def Grounded : List ObjectDefinition → Prop
  | [] => True
  | d :: behind => (∀ id ∈ d.dependencies, id ∈ behind.map (·.id)) ∧ Grounded behind

/-- Whatever an object of a grounded list depends on is in the list. -/
theorem Grounded.dependencies_known : ∀ {ds : List ObjectDefinition}, Grounded ds →
    ∀ {a : ObjectDefinition}, a ∈ ds → ∀ {id : String}, id ∈ a.dependencies → id ∈ ds.map (·.id)
  | d :: behind, hg, a, ha, id, hid => by
      rcases List.mem_cons.mp ha with rfl | ha
      · exact List.mem_cons_of_mem _ (hg.1 id hid)
      · exact List.mem_cons_of_mem _ (hg.2.dependencies_known ha hid)

/-- Dependencies never lead out of a grounded list. -/
theorem Grounded.closed (hids : (objects.map (·.id)).Nodup) {ds : List ObjectDefinition}
    (hg : Grounded ds) (hsub : ds ⊆ objects) {a b : ObjectDefinition} (ha : a ∈ ds)
    (hedge : DependsOn objects a b) : b ∈ ds := by
  obtain ⟨e, he, hid⟩ := List.mem_map.mp (hg.dependencies_known ha hedge.2)
  obtain rfl := eq_of_id_eq hids (hsub he) hedge.1 hid
  exact he

/-- No object of a grounded list depends on itself, however many objects lie between. -/
theorem Grounded.acyclic (hids : (objects.map (·.id)).Nodup) :
    ∀ {ds : List ObjectDefinition}, Grounded ds → ds ⊆ objects → ds.Nodup →
      ∀ a ∈ ds, ¬ TransGen (DependsOn objects) a a
  | d :: behind, hg, hsub, hnodup, a, ha => by
      obtain ⟨hd, hbehind⟩ := List.cons_subset.mp hsub
      obtain ⟨hfresh, hnodup⟩ := List.nodup_cons.mp hnodup
      have hstays : ∀ {x y}, x ∈ behind → ReflTransGen (DependsOn objects) x y → y ∈ behind := by
        intro x y hx hpath
        induction hpath with
        | refl => exact hx
        | tail _ hedge ih => exact hg.2.closed hids hbehind ih hedge
      rcases List.mem_cons.mp ha with rfl | ha
      · -- the first step leads behind the object, and from there no path comes back
        intro hcycle
        obtain ⟨b, hedge, hpath⟩ := TransGen.head'_iff.mp hcycle
        obtain ⟨e, he, hid⟩ := List.mem_map.mp (hg.1 b.id hedge.2)
        obtain rfl := eq_of_id_eq hids (hbehind he) hedge.1 hid
        exact hfresh (hstays he hpath)
      · exact hg.2.acyclic hids hbehind hnodup a ha

/-- Without cycles none is noted. -/
theorem cycles_eq_nil_of_acyclic (hids : (objects.map (·.id)).Nodup)
    (hacyclic : ∀ a ∈ objects, ¬ TransGen (DependsOn objects) a a) :
    (traverse objects).cycles = [] := by
  rw [List.eq_nil_iff_forall_not_mem]
  intro e he
  obtain ⟨a, ha, b, -, hedge, hback⟩ := (traverse_sound hids).closing e he
  exact hacyclic a ha (TransGen.head' hedge hback)

/-- Without noted cycles every dependency stands before its dependents. -/
theorem before_of_cycles_eq_nil (hids : (objects.map (·.id)).Nodup)
    (hnone : (traverse objects).cycles = []) {a b : ObjectDefinition} (ha : a ∈ objects)
    (hedge : DependsOn objects a b) : [b, a] <+ orderByDependency objects := by
  have hlisted : a ∈ orderByDependency objects := (mem_orderByDependency hids).mpr ha
  rcases (traverse_sound hids).placed a hlisted b hedge with hbefore | ⟨hnoted, -⟩
  · exact hbefore
  · rw [hnone] at hnoted
    cases hnoted

end DtoForge.Packaging
