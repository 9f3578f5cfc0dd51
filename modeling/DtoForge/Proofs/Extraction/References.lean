import DtoForge.Proofs.Extraction.Refinement
import DtoForge.Proofs.Json.RoundTrip
import DtoForge.Proofs.Schema.Identity

/-! # References — what extracted objects refer to

Examples refer to nothing, so every reference in an extracted object was put there when it was
linked. `run_references` reads off the outline what each of them stands for, that the dependencies
list exactly these, and that linking left the structure as it was. A reference stands for an object
of the same canonical text, so two structures share an object when halves in their names are written
like a character; this takes a body that has a half in it. -/

namespace DtoForge

namespace Schema

/-- The schemas at a property that may refer to an object: the property, and the items of an
array. -/
def spots : Schema → List Schema
  | .array items ref => [.array items ref, items]
  | s => [s]

/-- The schemas at a property that refer to an object. -/
def referring (s : Schema) : List Schema :=
  s.spots.filter fun s => s.ref.isSome

/-- What holds everywhere in a schema holds of those at a property of it. -/
theorem everywhere_of_mem_spots {holds : Schema → Prop} {s t : Schema} (ht : t ∈ s.spots)
    (h : s.Everywhere holds) : t.Everywhere holds := by
  cases s with
  | array items ref =>
      rcases List.mem_pair.mp ht with rfl | rfl
      · exact h
      · exact h.2
  | object ps required ref => exact List.mem_singleton.mp ht ▸ h
  | leaf l ref => exact List.mem_singleton.mp ht ▸ h

theorem referring_of_unreferenced {s : Schema} (h : s.Unreferenced) : s.referring = [] := by
  have hspots : ∀ t ∈ s.spots, t.ref = none := fun t ht => (everywhere_of_mem_spots ht h).self
  rw [referring, List.filter_eq_nil_iff]
  intro t ht
  simp [hspots t ht]

/-- Names in a value that a string stands for have no halves that would make a character. -/
theorem infer_unsplit {v : Json} (h : v.Proper) : (infer v).Unsplit := by
  induction h with
  | @list items _ ih =>
      cases items with
      | nil => simp [Unsplit, infer, Everywhere, properties, required]
      | cons v vs =>
          have hnone : ∀ name, .str name ∈ ([] : List Json) → name.Unsplit :=
            fun _ h => absurd h List.not_mem_nil
          exact ⟨⟨List.forall_mem_nil _, hnone⟩, ih v List.mem_cons_self⟩
  | object _ hkeys _ ih =>
      rw [infer, Unsplit, everywhere_object_iff, inferAll_eq_map, List.forall_mem_map]
      refine ⟨⟨List.forall_mem_map.mpr hkeys, ?_⟩, ih⟩
      intro name hname
      obtain ⟨e, he, heq⟩ := List.mem_map.mp hname
      exact Json.str.inj heq ▸ hkeys e (List.mem_of_mem_filter he)
  | _ => simp [Unsplit, infer, Everywhere, properties, required]

end Schema

/-- The schemas at the properties of an object that refer to another one, in order. -/
def ObjectDefinition.references (d : ObjectDefinition) : List Schema :=
  d.schema.properties.flatMap fun p => p.2.referring

/-- What holds everywhere in an object holds of the schemas in it that refer to others. -/
theorem ObjectDefinition.everywhere_of_mem_references {d : ObjectDefinition}
    {holds : Schema → Prop} {s : Schema} (hs : s ∈ d.references) (h : d.schema.Everywhere holds) :
    s.Everywhere holds := by
  obtain ⟨p, hp, hs⟩ := List.mem_flatMap.mp hs
  refine Schema.everywhere_of_mem_spots (List.mem_of_mem_filter hs) ?_
  cases hschema : d.schema with
  | object ps required ref =>
      rw [hschema] at hp h
      exact (Schema.everywhere_object_iff.mp h).2 p hp
  | array items ref =>
      rw [hschema] at hp
      cases hp
  | leaf l ref =>
      rw [hschema] at hp
      cases hp

/-- What tells the structure of an object, read off its definition. -/
def ObjectDefinition.key (d : ObjectDefinition) : Extraction.SeenKey :=
  { endpointId := d.source.endpointId, role := d.source.role, fingerprint := d.schema.fingerprint }

namespace Extraction

/-! ## Linking -/

theorem bare_referTo (target : String) (s : Schema) : (referTo target s).bare = s.bare := by
  unfold referTo
  split <;> rfl

/-- A property that was linked refers to its target, and nothing else at it refers. -/
theorem referring_referTo {source : ObjectSource} {name : RawText} {s : Schema} {x : Occurrence}
    (h : Occurrence.under? source name s = some x) (target : String) :
    (referTo target s).referring = [.object x.properties x.required (some (.str target))] := by
  obtain ⟨-, -, ⟨ref, rfl, -⟩ | ⟨ref, ref', rfl, -⟩⟩ := Occurrence.under?_eq_some h
  all_goals rfl

section Linked

variable {kept : List Occurrence} {source : ObjectSource} (p : RawText × Schema)

theorem linked_fst : (linked kept source p).1 = p.1 := by
  unfold linked
  split <;> rfl

theorem bare_linked : (linked kept source p).2.bare = p.2.bare := by
  unfold linked
  split
  · exact bare_referTo _ _
  · rfl

end Linked

/-- Linking leaves all of an object but its references as it is. -/
theorem bare_define (kept : List Occurrence) (place : Nat) (o : Occurrence) :
    (o.define kept place).schema.bare = o.schema.bare := by
  have hall : ∀ ps : List (RawText × Schema),
      Schema.bareAll (ps.map (linked kept o.source)) = Schema.bareAll ps := by
    intro ps
    rw [Schema.bareAll_eq_map, Schema.bareAll_eq_map, List.map_map]
    refine List.map_congr_left fun p _ => ?_
    rw [Function.comp_apply, linked_fst, bare_linked]
  rw [Occurrence.define, Occurrence.schema, Schema.bare, Schema.bare, hall]

theorem text_define (kept : List Occurrence) (place : Nat) (o : Occurrence) :
    (o.define kept place).schema.text = o.schema.text :=
  congrArg String.toList (Schema.canonicalText_eq_of_bare_eq (bare_define kept place o))

theorem key_define (kept : List Occurrence) (place : Nat) (o : Occurrence) :
    (o.define kept place).key = o.key := by
  have hcanonical := String.toList_inj.mp (text_define kept place o)
  rw [ObjectDefinition.key, Schema.fingerprint, hcanonical]
  rfl

theorem named_define (kept : List Occurrence) (place : Nat) {o : Occurrence}
    (h : o.schema.Named) : (o.define kept place).schema.Named := by
  rw [← Schema.named_bare_iff, bare_define, Schema.named_bare_iff]
  exact h

theorem unsplit_define (kept : List Occurrence) (place : Nat) {o : Occurrence}
    (h : o.schema.Unsplit) : (o.define kept place).schema.Unsplit := by
  rw [← Schema.unsplit_bare_iff, bare_define, Schema.unsplit_bare_iff]
  exact h

theorem exists_define_of_mem_definitions {kept : List Occurrence} {d : ObjectDefinition}
    (hd : d ∈ definitions kept) : ∃ o ∈ kept, ∃ place, d = o.define kept place := by
  obtain ⟨place, hplace, rfl⟩ := List.mem_mapIdx.mp hd
  exact ⟨_, List.getElem_mem hplace, place, rfl⟩

/-! ## Roots -/

/-- The root of a body has the schema of what the body is read as. -/
theorem exists_infer_of_mem_rootsOf {bodies : List (Endpoint × Role)} {root : Occurrence}
    (h : root ∈ rootsOf bodies) :
    ∃ b ∈ bodies, ∃ body value, b.1.bodyFor b.2 = .str body ∧ Json.read body = .ok value ∧
      Schema.infer value = root.schema := by
  obtain ⟨b, hb, h⟩ := exists_readBody_of_mem_rootsOf h
  obtain ⟨⟨body, value, ref, hbody, hread, hvalue⟩, -⟩ := exists_infer_of_readBody h
  have href : ref = none := by
    have hself := (Schema.infer_unreferenced value).self
    rwa [hvalue] at hself
  exact ⟨b, hb, body, value, hbody, hread, by rw [hvalue, href]; rfl⟩

theorem run_tracks {endpoints : List Endpoint} {roles : List Role}
    (hfree : CollisionFree (involved (rootsOf (wantedBodies endpoints roles)))) :
    Separated ((rootsOf (wantedBodies endpoints roles)).flatMap Occurrence.preorder) ∧
      Tracks (run endpoints roles).2.table
        (outline (rootsOf (wantedBodies endpoints roles))) [] := by
  have hnamed : ∀ root ∈ rootsOf (wantedBodies endpoints roles), root.schema.Named := by
    intro root hroot
    obtain ⟨-, -, -, v, -, -, hv⟩ := exists_infer_of_mem_rootsOf hroot
    exact hv ▸ Schema.infer_named v
  have hall := separated_of_collisionFree hfree hnamed
  rw [run, readBodies_table]
  exact ⟨hall, extractAll_empty_tracks hall⟩

/-- The objects of bodies refer to nothing before they are linked. -/
theorem unreferenced_of_mem_preorder {bodies : List (Endpoint × Role)} {o : Occurrence}
    (h : o ∈ (rootsOf bodies).flatMap Occurrence.preorder) : o.schema.Unreferenced := by
  obtain ⟨root, hroot, ho⟩ := List.mem_flatMap.mp h
  obtain ⟨-, -, -, v, -, -, hv⟩ := exists_infer_of_mem_rootsOf hroot
  exact everywhere_of_mem_preorder (fun _ _ _ _ => rfl) ho (hv ▸ Schema.infer_unreferenced v)

/-- Whether no wanted body has a half in it. -/
def WholeBodies (endpoints : List Endpoint) (roles : List Role) : Prop :=
  ∀ b ∈ wantedBodies endpoints roles, ∀ body, b.1.bodyFor b.2 = .str body → body.isWhole = true

/-- Names in bodies without halves have none that would make a character. -/
theorem unsplit_of_mem_preorder {endpoints : List Endpoint} {roles : List Role}
    (hwhole : WholeBodies endpoints roles) {o : Occurrence}
    (h : o ∈ (rootsOf (wantedBodies endpoints roles)).flatMap Occurrence.preorder) :
    o.schema.Unsplit := by
  obtain ⟨root, hroot, ho⟩ := List.mem_flatMap.mp h
  obtain ⟨b, hb, body, v, hbody, hread, hv⟩ := exists_infer_of_mem_rootsOf hroot
  rw [RawText.eq_legible_of_isWhole (hwhole b hb body hbody)] at hread
  have hproper := Json.exists_read_iff.mp ⟨body.legible, hread⟩
  exact everywhere_of_mem_preorder (fun _ _ _ h => h) ho (hv ▸ Schema.infer_unsplit hproper)

/-! ## References -/

/-- A schema in an object `d` refers to `n`: one of the objects, found at the same endpoint in the
same role, of the structure of the schema as names are read back, and listed among the
dependencies. -/
structure RefersTo (objects : List ObjectDefinition) (d : ObjectDefinition) (s : Schema)
    (n : ObjectDefinition) : Prop where
  listed : n ∈ objects
  ref : s.ref = some (.str n.name)
  endpointId : n.source.endpointId = d.source.endpointId
  role : n.source.role = d.source.role
  alike : Schema.Alike n.schema.reread s.reread
  dependency : n.id ∈ d.dependencies

section Kept

variable {all kept : List Occurrence} (hall : Separated all) (hkept : kept ⊆ all)
  (hbelow : ∀ o ∈ kept, ∀ x ∈ o.below, x ∈ all ∧ x.key ∈ kept.map Occurrence.key)

include hall hkept hbelow

/-- A property that was linked refers to the definition of its structure. -/
theorem exists_refersTo {o x : Occurrence} (ho : o ∈ kept) (place : Nat) {p : RawText × Schema}
    (hp : p ∈ o.properties) (hx : Occurrence.under? o.source p.1 p.2 = some x) :
    ∃ n, RefersTo (definitions kept) (o.define kept place)
        (.object x.properties x.required (some (.str (nameOf kept x.key)))) n ∧
      n.id = idOf kept x.key := by
  obtain ⟨hxall, hxkept⟩ := hbelow o ho x (mem_belowAll.mpr (Below.here hp hx))
  obtain ⟨s, hs, hkey⟩ := getElem?_placeOf hxkept
  have hsall : s ∈ all := hkept (List.mem_of_getElem? hs)
  have hsource : x.source = o.source := (Occurrence.under?_eq_some hx).1
  have hnamed := hall.named x hxall
  have hid : (s.define kept (placeOf kept x.key)).id = idOf kept x.key := by
    rw [idOf, ← hkey]
    rfl
  refine ⟨s.define kept (placeOf kept x.key), ?_, hid⟩
  exact {
    listed := by
      apply List.mem_of_getElem?
      rw [definitions, List.getElem?_mapIdx, hs]
      rfl
    ref := by
      rw [nameOf, hs]
      rfl
    endpointId := by
      have hendpoint := congrArg SeenKey.endpointId hkey
      rw [Occurrence.key, Occurrence.key, hsource] at hendpoint
      exact hendpoint
    role := by
      have hrole := congrArg SeenKey.role hkey
      rw [Occurrence.key, Occurrence.key, hsource] at hrole
      exact hrole
    alike := by
      -- both have the canonical text of `x`: linking and referring leave it as it is
      apply Schema.alike_reread_of_text_eq _ (named_define kept _ (hall.named s hsall))
      · exact ⟨hnamed.1, hnamed.2⟩
      · rw [text_define, hall.text_eq s hsall x hxall hkey]
        exact Schema.text_object_ref _ _ _ _
    dependency := by
      rw [hid]
      apply List.mem_eraseDups.mpr
      apply List.mem_map_of_mem
      exact List.mem_filterMap.mpr ⟨p, hp, by rw [hx]; rfl⟩ }

theorem exists_forall₂_refersTo {o : Occurrence} (ho : o ∈ kept) (place : Nat)
    (hplain : ∀ p ∈ o.properties, p.2.Unreferenced) (ps : List (RawText × Schema))
    (hps : ps ⊆ o.properties) :
    ∃ ns : List ObjectDefinition,
      List.Forall₂ (RefersTo (definitions kept) (o.define kept place))
        ((ps.map (linked kept o.source)).flatMap fun p => p.2.referring) ns ∧
      ns.map (·.id) = (targets o.source ps).map (idOf kept) := by
  induction ps with
  | nil => exact ⟨[], List.Forall₂.nil, rfl⟩
  | cons p ps ih =>
      obtain ⟨hp, hps⟩ := List.cons_subset.mp hps
      obtain ⟨ns, hrefers, hids⟩ := ih hps
      rw [List.map_cons, List.flatMap_cons]
      cases hx : Occurrence.under? o.source p.1 p.2 with
      | none =>
          rw [linked_of_none hx, targets_cons_of_none hx,
            Schema.referring_of_unreferenced (hplain p hp)]
          exact ⟨ns, hrefers, hids⟩
      | some x =>
          obtain ⟨n, hn, hid⟩ := exists_refersTo hall hkept hbelow ho place hp hx
          rw [linked_of_some hx, targets_cons_of_some hx, referring_referTo hx]
          exact ⟨n :: ns, List.Forall₂.cons hn hrefers, by rw [List.map_cons, hid, hids]; rfl⟩

/-- What holds of the references, the dependencies and the identifier of each definition. -/
theorem references_of_mem_definitions (hplain : ∀ o ∈ kept, o.schema.Unreferenced)
    {d : ObjectDefinition} (hd : d ∈ definitions kept) :
    (∃ ns : List ObjectDefinition, List.Forall₂ (RefersTo (definitions kept) d) d.references ns ∧
        d.dependencies = (ns.map (·.id)).eraseDups) ∧
      d.dependencies.Nodup ∧ ∃ number, d.id = objectId d.key number := by
  obtain ⟨o, ho, place, rfl⟩ := exists_define_of_mem_definitions hd
  have hproperties := (Schema.everywhere_object_iff.mp (hplain _ ho)).2
  obtain ⟨ns, hrefers, hids⟩ :=
    exists_forall₂_refersTo hall hkept hbelow ho place hproperties _ (List.Subset.refl _)
  refine ⟨⟨ns, hrefers, ?_⟩, ?_, place, ?_⟩
  · rw [hids]
    rfl
  · rw [Occurrence.define, ← foldl_addDependency_nil]
    exact nodup_foldl_addDependency _ List.nodup_nil
  · rw [key_define]
    rfl

end Kept

/-- **References of extracted objects are sound and complete.** Each stands for an extracted object
of the same endpoint, role and structure, the dependencies are the identifiers of these in order of
first use, and the identifier carries the digest of the linked schema. The structure is that of
names as they are read back; where no name has two halves that would make a character, as in bodies
without halves, it is the structure itself. -/
theorem run_references (endpoints : List Endpoint) (roles : List Role)
    (hfree : CollisionFree (involved (rootsOf (wantedBodies endpoints roles)))) :
    let objects := (run endpoints roles).2.objects
    (∀ d ∈ objects,
      (∃ ns : List ObjectDefinition, List.Forall₂ (RefersTo objects d) d.references ns ∧
        d.dependencies = (ns.map (·.id)).eraseDups) ∧
      d.dependencies.Nodup ∧
      ∃ number, d.id = objectId d.key number) ∧
    (∀ d ∈ objects, ∀ s ∈ d.references, ∀ n, RefersTo objects d s n →
      d.schema.Unsplit → n.schema.Unsplit → Schema.Alike n.schema s) ∧
    (WholeBodies endpoints roles → ∀ d ∈ objects, d.schema.Unsplit) := by
  intro objects
  obtain ⟨hall, htracks⟩ := run_tracks hfree
  have hobjects : objects = definitions (outline (rootsOf (wantedBodies endpoints roles))) :=
    htracks.objects_eq
  have hkept := outline_subset (rootsOf (wantedBodies endpoints roles))
  rw [hobjects]
  refine ⟨fun d hd => references_of_mem_definitions hall hkept ?_ ?_ hd, ?_, ?_⟩
  · intro o ho x hx
    obtain ⟨root, hroot, hoin⟩ := List.mem_flatMap.mp (hkept ho)
    exact ⟨List.mem_flatMap.mpr ⟨root, hroot, below_subset_preorder hoin hx⟩,
      htracks.closed o ho List.not_mem_nil x hx⟩
  · intro o ho
    exact unreferenced_of_mem_preorder (hkept ho)
  · intro d _ s hs n hrefers hd hn
    have halike := hrefers.alike
    rwa [Schema.reread_eq_of_unsplit hn,
      Schema.reread_eq_of_unsplit (d.everywhere_of_mem_references hs hd)] at halike
  · intro hwhole d hd
    obtain ⟨o, ho, place, rfl⟩ := exists_define_of_mem_definitions hd
    exact unsplit_define _ _ (unsplit_of_mem_preorder hwhole (hkept ho))

/-- The objects that an endpoint with twins answers with. -/
theorem run_references_twins :
    let objects := (run [twinEndpoint] [.response]).2.objects
    CollisionFree (involved (rootsOf (wantedBodies [twinEndpoint] [.response]))) ∧
      WholeBodies [twinEndpoint] [.response] ∧
      ∀ d ∈ objects, ∃ ns, List.Forall₂ (RefersTo objects d) d.references ns := by
  intro objects
  have hfree : CollisionFree (involved (rootsOf (wantedBodies [twinEndpoint] [.response]))) := by
    rw [twinEndpoint, rootsOf_answering isBlankText_twins read_twins]
    exact collisionFree_twins
  have hwhole : WholeBodies [twinEndpoint] [.response] := by
    intro b hb body hbody
    obtain rfl := List.mem_singleton.mp hb
    rw [← Json.str.inj hbody]
    rfl
  refine ⟨hfree, hwhole, ?_⟩
  intro d hd
  obtain ⟨hrefers, -⟩ := run_references [twinEndpoint] [.response] hfree
  obtain ⟨⟨ns, hns, -⟩, -⟩ := hrefers d hd
  exact ⟨ns, hns⟩

/-- A body with twins that are none: the name of the first is a character, that of the second its
two halves. One half stands in the body as it is, the other is escaped. -/
def halvesBody : RawText :=
  .ofPoints ("\x7b\"a\": \x7b\"😀\": null\x7d, \"b\": [\x7b\"".toList.map .char ++
    .half (.highOf '😀') :: "\\ude00\": null\x7d]\x7d".toList.map .char)

theorem read_halvesBody :
    Json.read halvesBody = .ok (.object (twins "😀" Schema.halves)) := by
  decide +kernel

theorem collisionFree_halves : CollisionFree (involved [twinRoot "😀" Schema.halves]) := by
  have hwritten : Json.writeText true "😀" = "\"\\ud83d\\ude00\"" := by decide
  apply collisionFree_twinRoot Schema.writeText_halves
  rw [hwritten]
  simp only [Digest.sha1Text, Text.toList_toUTF8]
  delta twinRootText twinText
  simp only [String.toList_append]
  repeat rw [String.toList_ofList]
  decide +kernel

/-- An object refers with the object that a property of it hoists. -/
theorem mem_references_define (kept : List Occurrence) (place : Nat) {o x : Occurrence}
    {p : RawText × Schema} (hp : p ∈ o.properties)
    (hx : Occurrence.under? o.source p.1 p.2 = some x) :
    .object x.properties x.required (some (.str (nameOf kept x.key))) ∈
      (o.define kept place).references := by
  apply List.mem_flatMap.mpr
  refine ⟨linked kept o.source p, List.mem_map_of_mem hp, ?_⟩
  rw [linked_of_some hx, referring_referTo hx]
  exact List.mem_singleton_self _

/-- The names in an object are found in objects that are alike. -/
theorem mem_names_of_alike_define {kept : List Occurrence} {place : Nat} {o : Occurrence}
    {qs : List (RawText × Schema)} {required : List Json} {ref : Option Json}
    (h : Schema.Alike (o.define kept place).schema (.object qs required ref)) :
    ∀ p ∈ o.properties, p.1 ∈ qs.map (·.1) := by
  obtain ⟨hfound, -⟩ := Schema.alike_object_iff.mp h
  intro p hp
  obtain ⟨t, ht, -⟩ := hfound _ (List.mem_map_of_mem hp)
  rw [linked_fst] at ht
  exact List.mem_map.mpr ⟨_, ht, rfl⟩

/-- An object can refer with a schema that no extracted object has the structure of: both names of
that body are written alike, so the second object is taken for the first. -/
theorem exists_misdirected_reference :
    let objects := (run [answering halvesBody] [.response]).2.objects
    CollisionFree (involved (rootsOf (wantedBodies [answering halvesBody] [.response]))) ∧
      ∃ d ∈ objects, ∃ s ∈ d.references, ∀ n ∈ objects, ¬ Schema.Alike n.schema s := by
  intro objects
  have hroots : rootsOf (wantedBodies [answering halvesBody] [.response]) =
      [twinRoot "😀" Schema.halves] :=
    rootsOf_answering (by decide +kernel) read_halvesBody
  have hfree := hroots.symm ▸ collisionFree_halves
  obtain ⟨-, htracks⟩ := run_tracks hfree
  obtain ⟨rest, hkept, hrest⟩ := exists_outline_of_key_eq
    (preorder_twinRoot "😀" Schema.halves) (key_twin_eq Schema.writeText_halves)
  have hobjects : objects = definitions (twinRoot "😀" Schema.halves :: rest) := by
    rw [← hkept, ← hroots]
    exact htracks.objects_eq
  rw [hobjects]
  generalize hall : twinRoot "😀" Schema.halves :: rest = kept
  have hroot : (twinRoot "😀" Schema.halves).define kept 0 ∈ definitions kept := by
    rw [← hall, definitions, List.mapIdx_cons]
    exact List.mem_cons_self
  have hrefers := mem_references_define kept 0 (o := twinRoot "😀" Schema.halves)
    (x := twin (nestedBase "b" true) Schema.halves)
    (List.mem_cons_of_mem _ List.mem_cons_self) rfl
  refine ⟨hfree, _, hroot, _, hrefers, fun n hn halike => ?_⟩
  obtain ⟨o, ho, place, rfl⟩ := exists_define_of_mem_definitions hn
  have hnames := mem_names_of_alike_define halike
  -- neither the root nor the first object has the halves for a name
  rw [← hall] at ho
  rcases List.mem_cons.mp ho with rfl | ho
  · exact absurd (hnames _ List.mem_cons_self) (by decide)
  · rw [hrest o ho] at hnames
    exact absurd (hnames _ List.mem_cons_self) (by decide)

end Extraction

end DtoForge
