import DtoForge.Extraction

/-! # Walk — how an object and what it holds are hoisted

`Occurrence.under?` names the object that a property hoists, and `step_of_under?` says that the
walk refers to it. From here on nothing opens the recursion: `extract_induction` is the one
induction over it, with a case for each thing the extraction does. `readBodies_table` does the
same for the bodies of a run. -/

namespace DtoForge.Extraction

/-! ## Properties -/

/-- The object that a property hoists: the property itself, or the items of an array, when that is
an object with properties. -/
def Occurrence.under? (source : ObjectSource) (name : RawText) : Schema → Option Occurrence
  | .object (p :: ps) required _ =>
    some { source, base := nestedBase name.legible false, properties := p :: ps, required }
  | .array (.object (p :: ps) required _) _ =>
    some { source, base := nestedBase name.legible true, properties := p :: ps, required }
  | _ => none

/-- A property that refers to the hoisted object of a name, on its own or as the item of an
array. -/
def referTo (target : String) : Schema → Schema
  | .object ps required _ => .object ps required (some (.str target))
  | .array (.object ps required _) _ => .array (.object ps required (some (.str target))) none
  | s => s

section Property

variable {source : ObjectSource} {name : RawText} {property : Schema} {o : Occurrence}

/-- The two places from which an object is hoisted. -/
theorem Occurrence.under?_eq_some (h : Occurrence.under? source name property = some o) :
    o.source = source ∧ o.properties ≠ [] ∧
      ((∃ ref, property = .object o.properties o.required ref ∧
          o.base = nestedBase name.legible false) ∨
        ∃ ref ref', property = .array (.object o.properties o.required ref) ref' ∧
          o.base = nestedBase name.legible true) := by
  unfold Occurrence.under? at h
  split at h
  · cases h
    exact ⟨rfl, List.cons_ne_nil _ _, Or.inl ⟨_, rfl, by dsimp only⟩⟩
  · cases h
    exact ⟨rfl, List.cons_ne_nil _ _, Or.inr ⟨_, _, rfl, by dsimp only⟩⟩
  · cases h

/-- What a property hoists is smaller than the property. -/
theorem Occurrence.sizeOf_of_under? (h : Occurrence.under? source name property = some o) :
    sizeOf o.properties < sizeOf property := by
  obtain ⟨-, -, ⟨ref, rfl, -⟩ | ⟨ref, ref', rfl, -⟩⟩ := Occurrence.under?_eq_some h
  · simp only [Schema.object.sizeOf_spec]
    omega
  · simp only [Schema.array.sizeOf_spec, Schema.object.sizeOf_spec]
    omega

/-- A walk over a property is a walk over the object that it hoists. -/
theorem walk_of_under? (h : Occurrence.under? source name property = some o) :
    walk source property = walk o.source o.schema := by
  obtain ⟨hsource, -, ⟨ref, rfl, -⟩ | ⟨ref, ref', rfl, -⟩⟩ := Occurrence.under?_eq_some h
  all_goals
    funext table
    simp only [walk, Occurrence.schema, hsource]

/-- A property that hoists an object refers to it. -/
theorem step_of_under? (h : Occurrence.under? source name property = some o) (w : Walk) :
    w.step source name property (walk source property) =
      w.refer name (referTo (o.extract w.table).definition.name property) (o.extract w.table) := by
  have hwalk := walk_of_under? h
  unfold Occurrence.under? at h
  split at h
  · cases h
    simp only [Walk.step, referTo, Occurrence.extract, hwalk]
  · cases h
    simp only [Walk.step, referTo, Occurrence.extract, hwalk]
  · cases h

/-- A property that hoists nothing stays as it is. -/
theorem step_of_under?_eq_none (h : Occurrence.under? source name property = none) (w : Walk)
    (inner : Table → Walk) : w.step source name property inner = w.keep name property := by
  unfold Occurrence.under? at h
  unfold Walk.step
  split at h <;> simp_all

end Property

/-! ## Tables -/

namespace Table

variable {table : Table} {key : SeenKey} {d : ObjectDefinition} {place : Nat}

@[simp] theorem find?_reserve : table.reserve.find? key = table.find? key := rfl

@[simp] theorem find?_fill_self : (table.fill place key d).find? key = some d := by
  have hgone : (table.seen.filter fun s => s.1 != key).find? (fun s => s.1 == key) = none := by
    rw [List.find?_eq_none]
    intro s hs
    simpa using (List.mem_filter.mp hs).2
  simp [find?, fill, List.find?_append, hgone]

theorem find?_fill_of_ne {key' : SeenKey} (h : key' ≠ key) :
    (table.fill place key d).find? key' = table.find? key' := by
  have hkeep : (table.seen.filter fun s => s.1 != key).find? (fun s => s.1 == key') =
      table.seen.find? fun s => s.1 == key' := by
    rw [List.find?_filter]
    congr 1
    funext s
    by_cases hs : s.1 = key'
    · simp [hs, h]
    · simp [hs]
  simp [find?, fill, List.find?_append, hkeep, Ne.symm h]

/-- Nothing is replaced under a new key. -/
theorem length_seen_fill (h : table.find? key = none) :
    (table.fill place key d).seen.length = table.seen.length + 1 := by
  have hkeep : (table.seen.filter fun s => s.1 != key) = table.seen := by
    rw [List.filter_eq_self]
    intro s hs
    simp only [find?, Option.map_eq_none_iff, List.find?_eq_none] at h
    simpa using h s hs
  simp [fill, hkeep]

end Table

/-! ## Unfolding -/

section Unfolding

variable {o : Occurrence} {table : Table} {source : ObjectSource} {name : RawText}
  {property : Schema}

/-- An object whose structure was hoisted before is not hoisted again. -/
theorem extract_of_find?_eq_some {d : ObjectDefinition} (h : table.find? o.key = some d) :
    o.extract table = ⟨table, d⟩ := by
  rw [Occurrence.extract, Occurrence.hoist, h]

/-- An object of a new structure is completed when its properties have been walked over. -/
theorem extract_of_find?_eq_none (h : table.find? o.key = none) :
    o.extract table =
      o.complete table (walkFrom o.source o.properties { table := table.reserve }) := by
  rw [Occurrence.extract, Occurrence.hoist, h]
  simp only [Occurrence.schema, walk]

theorem walkFrom_cons_of_some (h : Occurrence.under? source name property = some o)
    (ps : List (RawText × Schema)) (w : Walk) :
    walkFrom source ((name, property) :: ps) w = walkFrom source ps
      (w.refer name (referTo (o.extract w.table).definition.name property)
        (o.extract w.table)) := by
  rw [walkFrom, step_of_under? h]

theorem walkFrom_cons_of_none (h : Occurrence.under? source name property = none)
    (ps : List (RawText × Schema)) (w : Walk) :
    walkFrom source ((name, property) :: ps) w = walkFrom source ps (w.keep name property) := by
  rw [walkFrom, step_of_under?_eq_none h]

end Unfolding

/-! ## Induction -/

/-- **Induction over an extraction.** `Hoists o table h` is to hold of an object, the table before
and what hoisting it gives; `Walks source ps w w'` of properties and the walk before and after
them. -/
theorem extract_induction (Hoists : Occurrence → Table → Hoisted → Prop)
    (Walks : ObjectSource → List (RawText × Schema) → Walk → Walk → Prop)
    (hit : ∀ o table d, table.find? o.key = some d → Hoists o table ⟨table, d⟩)
    (miss : ∀ o table inner, table.find? o.key = none →
      Walks o.source o.properties { table := table.reserve } inner →
      Hoists o table (o.complete table inner))
    (nil : ∀ source w, Walks source [] w w)
    (refer : ∀ source name property ps o w h w', Occurrence.under? source name property = some o →
      Hoists o w.table h →
      Walks source ps (w.refer name (referTo h.definition.name property) h) w' →
      Walks source ((name, property) :: ps) w w')
    (keep : ∀ source name property ps w w', Occurrence.under? source name property = none →
      Walks source ps (w.keep name property) w' → Walks source ((name, property) :: ps) w w')
    (o : Occurrence) (table : Table) : Hoists o table (o.extract table) := by
  induction hn : sizeOf o.properties using Nat.strongRecOn generalizing o table with
  | _ n ih =>
      subst hn
      -- what the properties hoist is smaller, so the hypothesis covers every step of the walk
      have hwalk : ∀ ps : List (RawText × Schema), sizeOf ps ≤ sizeOf o.properties →
          ∀ w, Walks o.source ps w (walkFrom o.source ps w) := by
        intro ps
        induction ps with
        | nil =>
            intro _ w
            rw [walkFrom]
            exact nil o.source w
        | cons p ps ihps =>
            obtain ⟨name, property⟩ := p
            intro hsize w
            simp only [List.cons.sizeOf_spec, Prod.mk.sizeOf_spec] at hsize
            have hrest := ihps (by omega)
            cases hunder : Occurrence.under? o.source name property with
            | none =>
                rw [walkFrom_cons_of_none hunder]
                exact keep o.source name property ps w _ hunder (hrest _)
            | some o' =>
                have hsmaller := Occurrence.sizeOf_of_under? hunder
                rw [walkFrom_cons_of_some hunder]
                exact refer o.source name property ps o' w _ _ hunder
                  (ih _ (by omega) o' w.table rfl) (hrest _)
      cases hfound : table.find? o.key with
      | some d =>
          rw [extract_of_find?_eq_some hfound]
          exact hit o table d hfound
      | none =>
          rw [extract_of_find?_eq_none hfound]
          exact miss o table _ hfound (hwalk o.properties (Nat.le_refl _) _)

/-! ## Runs -/

/-- The object at the root of a body, if it was read as one. -/
def Reading.root? : Reading → Option Occurrence
  | .object root => some root
  | _ => none

/-- The roots of bodies in order, up to the first body that cannot be read. -/
def rootsOf : List (Endpoint × Role) → List Occurrence
  | [] => []
  | (e, role) :: rest =>
    match readBody e role with
    | .ok reading => reading.root?.toList ++ rootsOf rest
    | .error _ => []

theorem exists_readBody_of_mem_rootsOf {bodies : List (Endpoint × Role)} {root : Occurrence}
    (h : root ∈ rootsOf bodies) : ∃ b ∈ bodies, readBody b.1 b.2 = .ok (.object root) := by
  induction bodies with
  | nil => cases h
  | cons b bodies ih =>
      obtain ⟨e, role⟩ := b
      rw [rootsOf] at h
      split at h
      · next reading hreading =>
          rcases List.mem_append.mp h with h | h
          · cases reading with
            | object root' =>
                obtain rfl : root = root' := by simpa [Reading.root?] using h
                exact ⟨(e, role), List.mem_cons_self, hreading⟩
            | nothing => cases h
            | refused body => cases h
          · obtain ⟨b, hb, hread⟩ := ih h
            exact ⟨b, List.mem_cons_of_mem _ hb, hread⟩
      · cases h

/-- The root of a body is what was inferred from it, named after the path of its endpoint. -/
theorem exists_infer_of_readBody {e : Endpoint} {role : Role} {root : Occurrence}
    (h : readBody e role = .ok (.object root)) :
    (∃ body value ref, e.bodyFor role = .str body ∧ Json.read body = .ok value ∧
        Schema.infer value = .object root.properties root.required ref) ∧
      root.base = Naming.pathTypeName root.source.path := by
  unfold readBody at h
  split at h
  · cases h
  · next body hbody =>
    split at h
    · cases h
    · split at h
      · cases h
      · cases h
      · next value hread =>
          split at h
          · next ps required ref hvalue =>
              -- the path is a text, or the body was not read
              cases hpath : e.path.textFor "split" with
              | error cause => exact nomatch hpath ▸ h
              | ok path =>
                  have hroot : root = _ := (Reading.object.inj (Except.ok.inj (hpath ▸ h))).symm
                  simp only [hroot]
                  exact ⟨⟨body, value, ref, hbody, hread, hvalue⟩, trivial⟩
          · cases h
  · cases h

/-- The table after several objects. -/
def extractAll (roots : List Occurrence) (table : Table) : Table :=
  roots.foldl (fun table root => (root.extract table).table) table

/-- Reading bodies extracts their roots. -/
theorem readBodies_table (bodies : List (Endpoint × Role)) (r : Run) :
    (readBodies bodies r).2.table = extractAll (rootsOf bodies) r.table := by
  induction bodies generalizing r with
  | nil => rfl
  | cons b bodies ih =>
      obtain ⟨e, role⟩ := b
      rw [readBodies, rootsOf]
      cases readBody e role with
      | error cause => rfl
      | ok reading =>
          simp only [ih]
          cases reading <;> rfl

end DtoForge.Extraction
