import DtoForge.Proofs.Packaging.Order

/-! # Exploration — objects that were listed depth first

Extraction finds an object, then what the object depends on, and completes it last. A list of objects
found in this way, visited from the left, is ordered as its objects were completed. So are some of
its objects on their own, as long as no path between two of them leads through one that is left out
(`orderByDependency_filter`). A path that does so may put them in another order. -/

namespace DtoForge.Packaging

open scoped List
open Relation (ReflTransGen)

/-- Objects are explored from identifiers: `found` lists them as they are found and `completed` as
they are completed, when `done` are complete already. -/
inductive Explored : List ObjectDefinition → List String → List ObjectDefinition →
    List ObjectDefinition → Prop
  | nil (done) : Explored done [] [] []
  | known {done id ids found completed} : id ∈ done.map (·.id) →
      Explored done ids found completed → Explored done (id :: ids) found completed
  | new {done d ids inner innerDone found completed} : d.id ∉ done.map (·.id) →
      Explored done d.dependencies inner innerDone →
      Explored (d :: (innerDone.reverse ++ done)) ids found completed →
      Explored done (d.id :: ids) (d :: (inner ++ found)) (innerDone ++ d :: completed)

namespace Explored

variable {done found completed objects : List ObjectDefinition} {ids : List String}

theorem perm (h : Explored done ids found completed) : found.Perm completed := by
  induction h with
  | nil => exact List.Perm.nil
  | known _ _ ih => exact ih
  | new _ _ _ ihinner ih => exact ((ihinner.append ih).cons _).trans List.perm_middle.symm

/-- One object is explored with all that is found below it. -/
theorem single {d : ObjectDefinition} {inner innerDone : List ObjectDefinition}
    (h : Explored [] d.dependencies inner innerDone) :
    Explored [] [d.id] (d :: inner) (innerDone ++ [d]) := by
  simpa using Explored.new List.not_mem_nil h (.nil _)

/-- Objects of which each depends on the next one alone are explored from the first. -/
theorem chain {d : ObjectDefinition} {ds : List ObjectDefinition}
    (h : (d :: ds).IsChain fun d e => d.dependencies = [e.id])
    (hlast : ((d :: ds).getLast (List.cons_ne_nil d ds)).dependencies = []) :
    Explored [] [d.id] (d :: ds) (d :: ds).reverse := by
  induction ds generalizing d with
  | nil =>
      rw [List.getLast_singleton] at hlast
      have hnone : Explored [] d.dependencies [] [] := by rw [hlast]; exact .nil []
      exact hnone.single
  | cons e ds ih =>
      obtain ⟨hnext, h⟩ := List.isChain_cons_cons.mp h
      rw [List.getLast_cons (List.cons_ne_nil e ds)] at hlast
      have hbelow : Explored [] d.dependencies (e :: ds) (e :: ds).reverse := by
        rw [hnext]
        exact ih h hlast
      rw [List.reverse_cons]
      exact hbelow.single

theorem append {ids' : List String} {found' completed' : List ObjectDefinition}
    (h : Explored done ids found completed)
    (h' : Explored (completed.reverse ++ done) ids' found' completed') :
    Explored done (ids ++ ids') (found ++ found') (completed ++ completed') := by
  induction h with
  | nil => exact h'
  | known hid _ ih => exact .known hid (ih h')
  | new hid hinner _ _ ih =>
      simp only [List.cons_append, List.append_assoc]
      exact .new hid hinner (ih (by simpa using h'))

theorem ids_done (h : Explored done ids found completed) :
    ∀ id ∈ ids, id ∈ (completed.reverse ++ done).map (·.id) := by
  induction h with
  | nil => simp
  | known hid _ ih =>
      refine List.forall_mem_cons.mpr ⟨?_, ih⟩
      rw [List.map_append]
      exact List.mem_append_right _ hid
  | new _ _ _ _ ih =>
      refine List.forall_mem_cons.mpr ⟨by simp, ?_⟩
      simpa using ih

/-- Nothing is found from an identifier that is complete. -/
theorem eq_nil_of_known {id : String} (h : Explored done [id] found completed)
    (hid : id ∈ done.map (·.id)) : found = [] ∧ completed = [] := by
  cases h with
  | known _ h => cases h; exact ⟨rfl, rfl⟩
  | new hnew _ _ => exact absurd hid hnew

/-- Whatever is found is reached from one of the identifiers. -/
theorem exists_reaches (h : Explored done ids found completed) (hsub : found ⊆ objects)
    {x : ObjectDefinition} (hx : x ∈ found) :
    ∃ y ∈ found, y.id ∈ ids ∧ ReflTransGen (DependsOn objects) y x := by
  induction h with
  | nil => cases hx
  | known _ _ ih =>
      obtain ⟨y, hy, hid, hpath⟩ := ih hsub hx
      exact ⟨y, hy, List.mem_cons_of_mem _ hid, hpath⟩
  | @new _ d _ inner _ found _ _ _ _ ihinner ih =>
      obtain ⟨-, hsub⟩ := List.cons_subset.mp hsub
      obtain ⟨hinner, hfound⟩ := List.append_subset.mp hsub
      rcases List.mem_cons.mp hx with rfl | hx
      · exact ⟨x, List.mem_cons_self, List.mem_cons_self, .refl⟩
      · rcases List.mem_append.mp hx with hx | hx
        · obtain ⟨y, hy, hid, hpath⟩ := ihinner hinner hx
          exact ⟨d, List.mem_cons_self, List.mem_cons_self, .head ⟨hinner hy, hid⟩ hpath⟩
        · obtain ⟨y, hy, hid, hpath⟩ := ih hfound hx
          exact ⟨y, List.mem_cons_of_mem d (List.mem_append_right _ hy),
            List.mem_cons_of_mem _ hid, hpath⟩

end Explored

/-! ## Visits -/

namespace Traversal

/-- The visit after several objects were listed. -/
def list (t : Traversal) (ds : List ObjectDefinition) : Traversal :=
  { t with visited := (ds.map (·.id)).reverse ++ t.visited, ordered := t.ordered ++ ds }

variable {objects : List ObjectDefinition} {t : Traversal} {d : ObjectDefinition}

@[simp] theorem list_nil (t : Traversal) : t.list [] = t := by
  simp [list]

theorem list_list (t : Traversal) (ds es : List ObjectDefinition) :
    (t.list ds).list es = t.list (ds ++ es) := by
  simp [list]

theorem visit_of_visited (h : d.id ∈ t.visited) : ∀ depth, visit objects depth t d = t
  | 0 => rfl
  | depth + 1 => by rw [visit, if_pos (by simpa using h)]

theorem foldl_visit_of_visited {depth : Nat} {ds : List ObjectDefinition}
    (h : ∀ d ∈ ds, d.id ∈ t.visited) : ds.foldl (visit objects depth) t = t := by
  induction ds with
  | nil => rfl
  | cons d ds ih =>
      obtain ⟨hd, hds⟩ := List.forall_mem_cons.mp h
      rw [List.foldl_cons, visit_of_visited hd, ih hds]

/-- An object is listed behind what following its dependencies listed. -/
theorem visit_of_follow {depth : Nat} {ds : List ObjectDefinition} (hnew : d.id ∉ t.visited)
    (hout : d.id ∉ t.visiting)
    (h : d.dependencies.foldl (follow objects (visit objects depth) d) (t.enter d) =
      (t.enter d).list ds) :
    visit objects (depth + 1) t d = t.list (ds ++ [d]) := by
  have hkeep : t.visiting.filter (· != d.id) = t.visiting := by
    rw [List.filter_eq_self]
    intro id hid
    simpa using ne_of_mem_of_not_mem hid hout
  rw [visit, if_neg (by simpa using hnew), h]
  simp [leave, list, enter, hkeep]

/-- Dependencies that have been visited, or are those of no object, list nothing. -/
theorem foldl_follow_of_visited {depth : Nat} {ids : List String}
    (h : ∀ id ∈ ids, id ∈ objects.map (·.id) → id ∈ t.visited ∧ id ∉ t.visiting) :
    ids.foldl (follow objects (visit objects depth) d) t = t := by
  induction ids with
  | nil => rfl
  | cons id ids ih =>
      obtain ⟨hid, hids⟩ := List.forall_mem_cons.mp h
      have hone : follow objects (visit objects depth) d t id = t := by
        unfold follow
        split
        next => rfl
        next b hb =>
          have hthere := List.find?_some hb
          obtain rfl : b.id = id := by simpa using hthere
          have hmem : b ∈ objects := List.mem_reverse.mp (List.mem_of_find?_eq_some hb)
          obtain ⟨hvisited, hvisiting⟩ := hid (List.mem_map_of_mem hmem)
          rw [if_neg (by simpa using hvisiting), visit_of_visited hvisited]
      rw [List.foldl_cons, hone, ih hids]

end Traversal

section Selection

variable {objects : List ObjectDefinition} {p : ObjectDefinition → Bool}

theorem filter_ids_nodup (hids : (objects.map (·.id)).Nodup) (p : ObjectDefinition → Bool) :
    ((objects.filter p).map (·.id)).Nodup :=
  hids.sublist (List.filter_sublist.map _)

/-- No path between two selected objects leads through one that is left out. -/
def Unbroken (objects : List ObjectDefinition) (p : ObjectDefinition → Bool) : Prop :=
  ∀ a u b, p a → ReflTransGen (DependsOn objects) a u → ReflTransGen (DependsOn objects) u b →
    p b → p u

theorem unbroken_of_forall (h : ∀ d ∈ objects, p d) :
    Unbroken objects p := by
  intro a u b ha hau _ _
  cases hau with
  | refl => exact ha
  | tail _ hstep => exact h u hstep.1

/-- What is visited of the selected objects is what is complete, and nothing of it is under
visit. -/
structure Keeps (objects : List ObjectDefinition) (p : ObjectDefinition → Bool) (t : Traversal)
    (done : List ObjectDefinition) : Prop where
  visited_iff : ∀ b ∈ objects, p b → (b.id ∈ t.visited ↔ b.id ∈ done.map (·.id))
  apart : ∀ id ∈ t.visiting, id ∉ done.map (·.id)

variable {t : Traversal} {done ds : List ObjectDefinition}

theorem Keeps.list (hids : (objects.map (·.id)).Nodup) (h : Keeps objects p t done)
    (hsub : ds ⊆ objects) (hout : ∀ d ∈ ds, d.id ∉ t.visiting) :
    Keeps objects p (t.list (ds.filter p)) (ds.reverse ++ done) where
  visited_iff := by
    intro b hb hpb
    have hlisted : b.id ∈ (ds.filter p).map (·.id) ↔ b.id ∈ ds.map (·.id) := by
      refine ⟨fun hmem => (List.filter_sublist.map _).subset hmem, fun hmem => ?_⟩
      obtain ⟨d, hd, hid⟩ := List.mem_map.mp hmem
      obtain rfl := eq_of_id_eq hids (hsub hd) hb hid
      exact List.mem_map_of_mem (List.mem_filter.mpr ⟨hd, hpb⟩)
    rw [Traversal.list, List.mem_append, List.mem_reverse, hlisted, h.visited_iff b hb hpb,
      List.map_append, List.mem_append, List.map_reverse, List.mem_reverse]
  apart := by
    intro id hid hmem
    rw [List.map_append, List.mem_append, List.map_reverse, List.mem_reverse] at hmem
    rcases hmem with hmem | hmem
    · obtain ⟨d, hd, rfl⟩ := List.mem_map.mp hmem
      exact hout d hd hid
    · exact h.apart id hid hmem

theorem lookup?_filter_of_neg (hids : (objects.map (·.id)).Nodup) {d : ObjectDefinition}
    (hd : d ∈ objects) (hp : p d = false) :
    Traversal.lookup? (objects.filter p) d.id = none := by
  cases h : Traversal.lookup? (objects.filter p) d.id with
  | none => rfl
  | some b =>
      obtain ⟨hb, hid⟩ := (lookup?_eq_some_iff (filter_ids_nodup hids p)).mp h
      obtain ⟨hb, hpb⟩ := List.mem_filter.mp hb
      obtain rfl := eq_of_id_eq hids hb hd hid
      rw [hp] at hpb
      cases hpb

theorem Keeps.enter {d : ObjectDefinition} (h : Keeps objects p t done)
    (hd : d.id ∉ done.map (·.id)) : Keeps objects p (t.enter d) done where
  visited_iff := h.visited_iff
  apart := by
    intro id hid
    rcases List.mem_cons.mp hid with rfl | hid
    · exact hd
    · exact h.apart id hid

/-- What is still to be found: different objects, none of which is under visit. -/
structure Ahead (objects : List ObjectDefinition) (t : Traversal)
    (found : List ObjectDefinition) : Prop where
  subset : found ⊆ objects
  nodup : (found.map (·.id)).Nodup
  apart : ∀ x ∈ found, x.id ∉ t.visiting

section New

variable {d : ObjectDefinition} {inner innerDone found : List ObjectDefinition}

theorem Ahead.below (h : Ahead objects t (d :: (inner ++ found))) :
    Ahead objects (t.enter d) inner where
  subset := (List.append_subset.mp (List.cons_subset.mp h.subset).2).1
  nodup := (List.nodup_append.mp (List.map_append ▸ (List.nodup_cons.mp h.nodup).2)).1
  apart := by
    intro x hx hvisiting
    rcases List.mem_cons.mp hvisiting with hid | hvisiting
    · apply (List.nodup_cons.mp h.nodup).1
      exact List.mem_map.mpr ⟨x, List.mem_append_left _ hx, hid⟩
    · exact h.apart x (List.mem_cons_of_mem d (List.mem_append_left _ hx)) hvisiting

theorem Ahead.rest (h : Ahead objects t (d :: (inner ++ found))) (ds : List ObjectDefinition) :
    Ahead objects (t.list ds) found where
  subset := (List.append_subset.mp (List.cons_subset.mp h.subset).2).2
  nodup := (List.nodup_append.mp (List.map_append ▸ (List.nodup_cons.mp h.nodup).2)).2.1
  apart := fun x hx => h.apart x (List.mem_cons_of_mem d (List.mem_append_right _ hx))

theorem Ahead.of_enter (h : Ahead objects (t.enter d) found) : Ahead objects t found where
  subset := h.subset
  nodup := h.nodup
  apart := fun x hx hvisiting => h.apart x hx (List.mem_cons_of_mem _ hvisiting)

/-- An object that was found and what was found below it are complete when they were listed. -/
theorem Keeps.complete (hids : (objects.map (·.id)).Nodup) (h : Keeps objects p t done)
    (hahead : Ahead objects t (d :: (inner ++ found))) (hperm : inner.Perm innerDone) :
    Keeps objects p (t.list ((innerDone ++ [d]).filter p)) (d :: (innerDone.reverse ++ done)) := by
  have hfound : ∀ x ∈ innerDone ++ [d], x ∈ d :: (inner ++ found) := by
    intro x hx
    rcases List.mem_append.mp hx with hx | hx
    · exact List.mem_cons_of_mem d (List.mem_append_left _ (hperm.mem_iff.mpr hx))
    · exact List.mem_singleton.mp hx ▸ List.mem_cons_self
  have hlist := h.list hids (fun x hx => hahead.subset (hfound x hx))
    fun x hx => hahead.apart x (hfound x hx)
  simpa using hlist

end New

open Traversal in
/-- Following the dependencies of a selected object lists what is selected of what is found. -/
theorem foldl_follow_of_explored (hids : (objects.map (·.id)).Nodup) (hp : Unbroken objects p)
    {ids : List String} {found completed : List ObjectDefinition}
    (h : Explored done ids found completed) {a : ObjectDefinition} (ha : p a)
    (hdeps : ids ⊆ a.dependencies) (hkeeps : Keeps objects p t done)
    (hahead : Ahead objects t found) {depth : Nat} (hdepth : (found.filter p).length ≤ depth) :
    ids.foldl (follow (objects.filter p) (visit (objects.filter p) depth) a) t =
      t.list (completed.filter p) := by
  have hselected := filter_ids_nodup hids p
  induction h generalizing a t depth with
  | nil => simp
  | @known done id ids found completed hid _ ih =>
      obtain ⟨-, hdeps⟩ := List.cons_subset.mp hdeps
      have hone : follow (objects.filter p) (visit (objects.filter p) depth) a t id = t := by
        unfold follow
        split
        next => rfl
        next b hb =>
          obtain ⟨hmem, hbid⟩ := (lookup?_eq_some_iff hselected).mp hb
          obtain ⟨hmem, hpb⟩ := List.mem_filter.mp hmem
          subst hbid
          rw [if_neg (by simpa using fun hvisiting => hkeeps.apart _ hvisiting hid),
            visit_of_visited ((hkeeps.visited_iff b hmem hpb).mpr hid)]
      rw [List.foldl_cons, hone]
      exact ih ha hdeps hkeeps hahead hdepth
  | @new done d ids inner innerDone found completed hid hinner _ ihinner ih =>
      obtain ⟨hdep, hdeps⟩ := List.cons_subset.mp hdeps
      have hd : d ∈ objects := hahead.subset List.mem_cons_self
      have hvisiting : d.id ∉ t.visiting := hahead.apart d List.mem_cons_self
      have hone : follow (objects.filter p) (visit (objects.filter p) depth) a t d.id =
          t.list ((innerDone ++ [d]).filter p) := by
        cases hpd : p d with
        | true =>
            have hlook : lookup? (objects.filter p) d.id = some d :=
              (lookup?_eq_some_iff hselected).mpr ⟨List.mem_filter.mpr ⟨hd, hpd⟩, rfl⟩
            simp only [follow, hlook]
            rw [if_neg (by simpa using hvisiting)]
            have hnew : d.id ∉ t.visited := (hkeeps.visited_iff d hd hpd).not.mpr hid
            have hlength : ((d :: (inner ++ found)).filter p).length =
                (inner.filter p).length + (found.filter p).length + 1 := by
              simp [hpd, List.filter_append]
            obtain ⟨depth, rfl⟩ : ∃ n, depth = n + 1 := ⟨depth - 1, by omega⟩
            rw [visit_of_follow hnew hvisiting (ihinner hpd (List.Subset.refl _)
              (hkeeps.enter hid) hahead.below (by omega)), List.filter_append]
            simp [hpd]
        | false =>
            -- a selected object below it would be reached through one that is left out
            have hnone : inner.filter p = [] := by
              rw [List.filter_eq_nil_iff]
              intro x hx hpx
              obtain ⟨y, hy, hyid, hpath⟩ := hinner.exists_reaches hahead.below.subset hx
              have hreach : ReflTransGen (DependsOn objects) d x :=
                .head ⟨hahead.below.subset hy, hyid⟩ hpath
              have hpd' := hp a d x ha (.single ⟨hd, hdep⟩) hreach hpx
              rw [hpd] at hpd'
              cases hpd'
            have hdone : innerDone.filter p = [] :=
              (hnone ▸ hinner.perm.filter p).symm.eq_nil
            simp [follow, lookup?_filter_of_neg hids hd hpd, List.filter_append, hdone, hpd]
      have hrest : found <+ d :: (inner ++ found) := (List.sublist_append_right inner found).cons d
      have hlength : (found.filter p).length ≤ depth :=
        Nat.le_trans (hrest.filter p).length_le hdepth
      rw [List.foldl_cons, hone, ih ha hdeps (hkeeps.complete hids hahead hinner.perm)
        (hahead.rest _) hlength, list_list, ← List.filter_append, List.append_assoc]
      rfl

open Traversal in
/-- Visiting what is selected of the found objects lists it as it was completed. -/
theorem foldl_visit_of_explored (hids : (objects.map (·.id)).Nodup) (hp : Unbroken objects p)
    {ids : List String} {found completed : List ObjectDefinition}
    (h : Explored done ids found completed) (hkeeps : Keeps objects p t done)
    (hahead : Ahead objects t found) {depth : Nat} (hdepth : (found.filter p).length ≤ depth) :
    (found.filter p).foldl (visit (objects.filter p) (depth + 1)) t =
      t.list (completed.filter p) := by
  induction h generalizing t with
  | nil => simp
  | known _ _ ih => exact ih hkeeps hahead hdepth
  | @new done d ids inner innerDone found completed hid hinner _ ihinner ih =>
      have hd : d ∈ objects := hahead.subset List.mem_cons_self
      have hvisiting : d.id ∉ t.visiting := hahead.apart d List.mem_cons_self
      rw [← List.cons_append, List.filter_append, List.length_append] at hdepth
      have hone : ((d :: inner).filter p).foldl (visit (objects.filter p) (depth + 1)) t =
          t.list ((innerDone ++ [d]).filter p) := by
        cases hpd : p d with
        | true =>
            rw [List.filter_cons_of_pos hpd] at hdepth ⊢
            rw [List.length_cons] at hdepth
            have hnew : d.id ∉ t.visited := (hkeeps.visited_iff d hd hpd).not.mpr hid
            have hlength : (inner.filter p).length ≤ depth := by omega
            have hfollow := foldl_follow_of_explored hids hp hinner hpd (List.Subset.refl _)
              (hkeeps.enter hid) hahead.below hlength
            rw [List.foldl_cons, visit_of_follow hnew hvisiting hfollow, foldl_visit_of_visited]
            · simp [List.filter_append, hpd]
            · -- what is below it was listed on the way
              intro x hx
              have hlisted : x ∈ innerDone.filter p := (hinner.perm.filter p).mem_iff.mp hx
              exact List.mem_append_left _ (List.mem_reverse.mpr
                (List.mem_map_of_mem (List.mem_append_left _ hlisted)))
        | false =>
            have hout : ¬ p d := by simp [hpd]
            rw [List.filter_cons_of_neg hout] at hdepth ⊢
            rw [ihinner hkeeps hahead.below.of_enter (by omega)]
            simp [List.filter_append, hpd]
      rw [← List.cons_append, List.filter_append, List.foldl_append, hone,
        ih (hkeeps.complete hids hahead hinner.perm) (hahead.rest _) (by omega), list_list,
        ← List.filter_append, List.append_assoc]
      rfl

end Selection

/-! ## Orders -/

section Order

variable {objects completed : List ObjectDefinition} {ids : List String}

/-- **Selected objects are ordered as they were completed**, unless a path between two of them
leads through one that is left out. -/
theorem orderByDependency_filter (hids : (objects.map (·.id)).Nodup)
    (h : Explored [] ids objects completed) {p : ObjectDefinition → Bool}
    (hp : Unbroken objects p) :
    orderByDependency (objects.filter p) = completed.filter p := by
  have hkeeps : Keeps objects p {} [] := ⟨by simp, by simp⟩
  have hahead : Ahead objects {} objects := ⟨List.Subset.refl _, hids, by simp⟩
  rw [orderByDependency, traverse, foldl_visit_of_explored hids hp h hkeeps hahead (Nat.le_refl _)]
  rfl

theorem orderByDependency_of_explored (hids : (objects.map (·.id)).Nodup)
    (h : Explored [] ids objects completed) : orderByDependency objects = completed := by
  have hall := orderByDependency_filter (p := fun _ => true) hids h fun _ _ _ _ _ _ _ => rfl
  simpa using hall

end Order

end DtoForge.Packaging
