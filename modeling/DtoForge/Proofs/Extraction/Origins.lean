import DtoForge.Proofs.Extraction.Outline

/-! # Origins — where the names of objects come from

An object is named after what it was first found as: the root of a body is named after the path of
its endpoint, and any other object after the property that hoisted it. This holds also where two
structures share a fingerprint. -/

namespace DtoForge.Extraction

/-- An object has a property, or an object below it has. -/
def Occurrence.Holds (root : Occurrence) (p : RawText × Schema) : Prop :=
  p ∈ root.properties ∨ ∃ o, Below root.source root.properties o ∧ p ∈ o.properties

theorem Below.exists_property {source : ObjectSource} {ps : List (RawText × Schema)}
    {x : Occurrence} (h : Below source ps x) :
    ∃ p, (p ∈ ps ∨ ∃ o, Below source ps o ∧ p ∈ o.properties) ∧
      Occurrence.under? source p.1 p.2 = some x := by
  induction h with
  | here hp hx => exact ⟨_, .inl hp, hx⟩
  | deeper hp ho _ ih =>
      obtain ⟨q, hq | ⟨o, hbelow, hq⟩, hx⟩ := ih
      · exact ⟨q, .inr ⟨_, .here hp ho, hq⟩, hx⟩
      · exact ⟨q, .inr ⟨o, .deeper hp ho hbelow, hq⟩, hx⟩

theorem Below.behind {source : ObjectSource} {p : RawText × Schema} {ps : List (RawText × Schema)}
    {x : Occurrence} (h : Below source ps x) : Below source (p :: ps) x := by
  cases h with
  | here hp hx => exact .here (List.mem_cons_of_mem p hp) hx
  | deeper hp ho hx => exact .deeper (List.mem_cons_of_mem p hp) ho hx

/-- Hoisting an object lists it and objects below it, under the bases they were found with. -/
theorem extract_origin (o : Occurrence) (table : Table) :
    ∀ d, some d ∈ (o.extract table).table.places → some d ∈ table.places ∨
      ∃ x, (x = o ∨ Below o.source o.properties x) ∧ d.source = o.source ∧
        d.name = objectName x.base o.source.role := by
  apply extract_induction
    (fun o table h => ∀ d, some d ∈ h.table.places → some d ∈ table.places ∨
      ∃ x, (x = o ∨ Below o.source o.properties x) ∧ d.source = o.source ∧
        d.name = objectName x.base o.source.role)
    (fun source ps w w' => ∀ d, some d ∈ w'.table.places → some d ∈ w.table.places ∨
      ∃ x, Below source ps x ∧ d.source = source ∧ d.name = objectName x.base source.role)
  case hit => exact fun o table d _ d' hd' => .inl hd'
  case miss =>
    intro o table inner _ ih d hd
    rcases List.mem_or_eq_of_mem_set hd with hd | hd
    · rcases ih d hd with hd | ⟨x, hx, hsource, hname⟩
      · exact .inl (by simpa [Table.reserve] using hd)
      · exact .inr ⟨x, .inr hx, hsource, hname⟩
    · obtain rfl := Option.some.inj hd
      exact .inr ⟨o, .inl rfl, rfl, rfl⟩
  case nil => exact fun source w d hd => .inl hd
  case refer =>
    intro source name property ps o w hoisted w' hunder ihoist iwalk d hd
    have ho : Below source ((name, property) :: ps) o := .here List.mem_cons_self hunder
    have hsource := (Occurrence.under?_eq_some hunder).1
    rcases iwalk d hd with hd | ⟨x, hx, hd⟩
    · rcases ihoist d hd with hd | ⟨x, hx, hd⟩
      · exact .inl hd
      · rw [hsource] at hx hd
        refine .inr ⟨x, ?_, hd⟩
        rcases hx with rfl | hx
        · exact ho
        · exact ho.trans hx
    · exact .inr ⟨x, hx.behind, hd⟩
  case keep =>
    intro source name property ps w w' _ iwalk d hd
    rcases iwalk d hd with hd | ⟨x, hx, hd⟩
    · exact .inl hd
    · exact .inr ⟨x, hx.behind, hd⟩

theorem extractAll_origin (roots : List Occurrence) (table : Table) :
    ∀ d, some d ∈ (extractAll roots table).places → some d ∈ table.places ∨
      ∃ root ∈ roots, ∃ x, (x = root ∨ Below root.source root.properties x) ∧
        d.source = root.source ∧ d.name = objectName x.base root.source.role := by
  induction roots generalizing table with
  | nil => exact fun d hd => .inl hd
  | cons root roots ih =>
      intro d hd
      rcases ih _ d hd with hd | ⟨root', hroot', hd⟩
      · rcases extract_origin root table d hd with hd | hd
        · exact .inl hd
        · exact .inr ⟨root, List.mem_cons_self, hd⟩
      · exact .inr ⟨root', List.mem_cons_of_mem _ hroot', hd⟩

/-! ## Runs -/

theorem base_of_mem_rootsOf {bodies : List (Endpoint × Role)} {root : Occurrence}
    (h : root ∈ rootsOf bodies) : root.base = Naming.pathTypeName root.source.path := by
  obtain ⟨b, -, h⟩ := exists_readBody_of_mem_rootsOf h
  exact (exists_infer_of_readBody h).2

/-- An object of a run is the root of a body, named after the path, or it was found below a root and
is named after the property that hoisted it. -/
theorem run_origin {endpoints : List Endpoint} {roles : List Role} {d : ObjectDefinition}
    (hd : d ∈ (run endpoints roles).2.objects) :
    ∃ root ∈ rootsOf (wantedBodies endpoints roles), d.source = root.source ∧
      (d.name = objectName (Naming.pathTypeName root.source.path) d.role ∨
        ∃ p, root.Holds p ∧
          ∃ plural, d.name = objectName (nestedBase p.1.legible plural) d.role) := by
  rw [Run.objects, Table.objects, List.mem_filterMap] at hd
  obtain ⟨_, hd, rfl⟩ := hd
  rw [run, readBodies_table] at hd
  rcases extractAll_origin _ _ d hd with hd | ⟨root, hroot, x, hx, hsource, hname⟩
  · cases hd
  · refine ⟨root, hroot, hsource, ?_⟩
    rw [ObjectDefinition.role, hsource, hname]
    rcases hx with rfl | hx
    · exact .inl (by rw [base_of_mem_rootsOf hroot])
    · obtain ⟨p, hp, hunder⟩ := hx.exists_property
      refine .inr ⟨p, hp, ?_⟩
      obtain ⟨-, -, ⟨_, -, hbase⟩ | ⟨_, _, -, hbase⟩⟩ := Occurrence.under?_eq_some hunder
      · exact ⟨false, by rw [hbase]⟩
      · exact ⟨true, by rw [hbase]⟩

end DtoForge.Extraction
