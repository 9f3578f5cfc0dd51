import DtoForge.Proofs.Extraction.Refinement
import DtoForge.Proofs.Extraction.Renumbering
import DtoForge.Proofs.Json.Limit

/-! # Independence — every body yields its own objects

All bodies of a run share one table, but under different endpoints and roles they neither see nor
change what the others left there. So a run over several endpoints is the runs over their single
bodies, one after the other: `joined` says how their objects are numbered on, and nothing else about
them changes. What an endpoint yields does not depend on the others, with one exception: a body that
is given up for an integer with too many digits is not noted like a bad one but ends the run, and
the bodies behind it yield nothing. -/

namespace DtoForge.Extraction

/-! ## Reading a body -/

/-- Why a body is refused, if it is: it is no JSON document and not blank. -/
def refusal? : Endpoint × Role → Option BadBody
  | (e, role) =>
    match e.bodyFor role with
    | .str body =>
      if Unicode.isBlankText body.legible then none
      else
        match Json.read body with
        | .error (.misread reason) =>
          some { endpointId := e.id, path := e.path, role, method := e.method, reason }
        | .error (.longInteger _) | .ok _ => none
    | _ => none

/-- How many digits the integer has that a body is given up for, if it is. -/
def longInteger? : Endpoint × Role → Option Nat
  | (e, role) =>
    match e.bodyFor role with
    | .str body =>
      if Unicode.isBlankText body.legible then none
      else
        match Json.read body with
        | .error (.longInteger digits) => some digits
        | .error (.misread _) | .ok _ => none
    | _ => none

/-- Whether a body is a JSON object. -/
def HoldsObject (b : Endpoint × Role) : Prop :=
  ∃ body entries, b.1.bodyFor b.2 = .str body ∧ Unicode.isBlankText body.legible = false ∧
    Json.read body = .ok (.object entries)

/-- What reading a body can give, and what it says of the body. Nothing is said of a body that is
given up. -/
inductive Outcome (b : Endpoint × Role) : Reading → Prop
  | nothing : refusal? b = none → ¬ HoldsObject b → Outcome b .nothing
  | refused {bad} : refusal? b = some bad → ¬ HoldsObject b → Outcome b (.refused bad)
  | object {root} : refusal? b = none → HoldsObject b → root.source.endpointId = b.1.id →
      root.source.role = b.2 → Outcome b (.object root)

/-- Endpoints that can be told apart, with texts for paths and bodies. -/
structure Textual (endpoints : List Endpoint) : Prop where
  ids_nodup : (endpoints.map (·.id)).Nodup
  path : ∀ e ∈ endpoints, ∃ path, e.path = .str path
  body : ∀ e ∈ endpoints, ∀ role, e.bodyFor role = .null ∨ ∃ body, e.bodyFor role = .str body

/-- Only an object has the schema of one. -/
theorem exists_entries_of_infer {v : Json} {ps : List (RawText × Schema)} {required : List Json}
    {ref : Option Json} (h : Schema.infer v = .object ps required ref) :
    ∃ entries, v = .object entries := by
  cases v with
  | object entries => exact ⟨entries, rfl⟩
  | list vs => cases vs <;> cases h
  | null | bool _ | int _ | float _ | str _ => cases h

section Body

variable {e : Endpoint} {role : Role} {body : RawText}

/-- A document that is no object gives nothing. -/
theorem readBody_other {value : Json} (hbody : e.bodyFor role = .str body)
    (hblank : Unicode.isBlankText body.legible = false) (hread : Json.read body = .ok value)
    (hvalue : ¬ ∃ entries, value = .object entries) : readBody e role = .ok .nothing := by
  simp only [readBody, hbody, hblank, hread, Bool.false_eq_true, if_false]
  split
  · next h => exact absurd (exists_entries_of_infer h) hvalue
  · rfl

theorem holdsObject_iff (hbody : e.bodyFor role = .str body) :
    HoldsObject (e, role) ↔ Unicode.isBlankText body.legible = false ∧
      ∃ entries, Json.read body = .ok (.object entries) := by
  constructor
  · rintro ⟨body', entries, hbody', hblank, hread⟩
    obtain rfl : body = body' := Json.str.inj (hbody.symm.trans hbody')
    exact ⟨hblank, entries, hread⟩
  · rintro ⟨hblank, entries, hread⟩
    exact ⟨body, entries, hbody, hblank, hread⟩

theorem longInteger?_of_read {digits : Nat} (hbody : e.bodyFor role = .str body)
    (hblank : Unicode.isBlankText body.legible = false)
    (hread : Json.read body = .error (.longInteger digits)) :
    longInteger? (e, role) = some digits := by
  simp [longInteger?, hbody, hblank, hread]

/-- A body that is given up for an integer ends the run, and it is no object. -/
theorem readBody_longInteger {digits : Nat} (h : longInteger? (e, role) = some digits) :
    readBody e role = .error (.longInteger digits) ∧ ¬ HoldsObject (e, role) := by
  simp only [longInteger?] at h
  split at h
  · next body hbody =>
      split at h
      · cases h
      · next hblank =>
          split at h
          · next hread =>
              cases h
              refine ⟨by simp [readBody, hbody, hblank, hread], ?_⟩
              rw [holdsObject_iff hbody, hread]
              rintro ⟨-, entries, hentries⟩
              cases hentries
          · cases h
          · cases h
  · cases h

/-- A body that is a text or missing can be read unless it is given up; if it is an object, under a
path that is a text. -/
theorem exists_outcome (hlong : longInteger? (e, role) = none)
    (hpath : HoldsObject (e, role) → ∃ path, e.path = .str path)
    (hbody : e.bodyFor role = .null ∨ ∃ body, e.bodyFor role = .str body) :
    ∃ reading, readBody e role = .ok reading ∧ Outcome (e, role) reading := by
  rcases hbody with hnull | ⟨body, hbody⟩
  · refine ⟨.nothing, by rw [readBody, hnull], Outcome.nothing (by rw [refusal?, hnull]) ?_⟩
    rintro ⟨body, entries, hbody, -⟩
    rw [hnull] at hbody
    cases hbody
  · have hholds := holdsObject_iff hbody
    cases hblank : Unicode.isBlankText body.legible with
    | true =>
        refine ⟨.nothing, by simp [readBody, hbody, hblank], Outcome.nothing ?_ ?_⟩
        · simp [refusal?, hbody, hblank]
        · simp [hholds, hblank]
    | false =>
        cases hread : Json.read body with
        | error cause =>
            cases cause with
            | misread reason =>
                refine ⟨.refused
                    { endpointId := e.id, path := e.path, role, method := e.method, reason },
                  by simp [readBody, hbody, hblank, hread], Outcome.refused ?_ ?_⟩
                · simp [refusal?, hbody, hblank, hread]
                · simp [hholds, hread]
            | longInteger digits => simp [longInteger?, hbody, hblank, hread] at hlong
        | ok value =>
            have hrefusal : refusal? (e, role) = none := by
              simp [refusal?, hbody, hblank, hread]
            by_cases hvalue : ∃ entries, value = .object entries
            · obtain ⟨entries, rfl⟩ := hvalue
              have hobject := hholds.mpr ⟨hblank, entries, hread⟩
              obtain ⟨path, hpath⟩ := hpath hobject
              exact ⟨_, readBody_object hbody hblank hread hpath,
                Outcome.object hrefusal hobject rfl rfl⟩
            · refine ⟨.nothing, readBody_other hbody hblank hread hvalue,
                Outcome.nothing hrefusal ?_⟩
              rw [hholds, hread]
              rintro ⟨-, entries, hentries⟩
              exact hvalue ⟨entries, Except.ok.inj hentries⟩

end Body

/-! ## Wanted bodies -/

section Wanted

variable {endpoints : List Endpoint} {roles : List Role}

theorem mem_wantedBodies {e : Endpoint} {role : Role} :
    (e, role) ∈ wantedBodies endpoints roles ↔ e ∈ endpoints ∧ role ∈ roles := by
  have hrole : role ∈ [Role.response, .request].filter roles.contains ↔ role ∈ roles := by
    cases role <;> simp
  rw [wantedBodies, ← hrole]
  exact List.pair_mem_product

theorem wantedBodies_nodup (h : (endpoints.map (·.id)).Nodup) :
    ((wantedBodies endpoints roles).map fun b => (b.1.id, b.2)).Nodup := by
  have hroles : ([Role.response, .request].filter roles.contains).Nodup :=
    List.Nodup.filter _ (by decide)
  have hproduct : (wantedBodies endpoints roles).map (fun b => (b.1.id, b.2)) =
      (endpoints.map (·.id)).product ([Role.response, .request].filter roles.contains) := by
    simp [wantedBodies, List.product, List.map_flatMap, List.flatMap_map, Function.comp_def]
  rw [hproduct]
  exact h.product hroles

theorem Textual.exists_outcome (h : Textual endpoints) {b : Endpoint × Role}
    (hb : b ∈ wantedBodies endpoints roles) (hlong : longInteger? b = none) :
    ∃ reading, readBody b.1 b.2 = .ok reading ∧ Outcome b reading := by
  obtain ⟨e, role⟩ := b
  have he := (mem_wantedBodies.mp hb).1
  exact Extraction.exists_outcome hlong (fun _ => h.path e he) (h.body e he role)

end Wanted

/-- The bodies in front of the first that is given up for an integer. -/
def reached (bodies : List (Endpoint × Role)) : List (Endpoint × Role) :=
  bodies.takeWhile fun b => (longInteger? b).isNone

/-- How a run ends: with the first body that is given up for an integer, if there is one. -/
def ending (bodies : List (Endpoint × Role)) : Except ShapeError Unit :=
  match bodies.findSome? longInteger? with
  | some digits => .error (.longInteger digits)
  | none => .ok ()

section Reached

variable {bodies : List (Endpoint × Role)} {b : Endpoint × Role}

theorem mem_of_mem_reached (hb : b ∈ reached bodies) : b ∈ bodies ∧ longInteger? b = none :=
  have hnone := List.mem_takeWhile_imp (p := fun b => (longInteger? b).isNone) hb
  ⟨(List.takeWhile_sublist _).subset hb, Option.isNone_iff_eq_none.mp hnone⟩

/-- A run goes through exactly if it reaches every body. -/
theorem ending_eq_ok_iff : ending bodies = .ok () ↔ reached bodies = bodies := by
  rw [reached, List.takeWhile_eq_self_iff]
  simp only [Option.isNone_iff_eq_none, ← List.findSome?_eq_none_iff]
  unfold ending
  cases bodies.findSome? longInteger? with
  | some digits => exact iff_of_false nofun nofun
  | none => exact iff_of_true rfl rfl

end Reached

/-! ## Single bodies -/

/-- The state after a single body. -/
def alone (b : Endpoint × Role) : Run :=
  (run [b.1] [b.2]).2

theorem alone_eq {b : Endpoint × Role} {reading : Reading} (h : readBody b.1 b.2 = .ok reading) :
    alone b = Run.take {} reading := by
  obtain ⟨e, role⟩ := b
  have hwanted : wantedBodies [e] [role] = [(e, role)] := by
    cases role <;> rfl
  rw [alone, run, hwanted, readBodies, h]
  rfl

theorem alone_of_longInteger {b : Endpoint × Role} {digits : Nat}
    (h : longInteger? b = some digits) : alone b = {} := by
  obtain ⟨e, role⟩ := b
  have hwanted : wantedBodies [e] [role] = [(e, role)] := by
    cases role <;> rfl
  rw [alone, run, hwanted, readBodies, (readBody_longInteger h).1]

/-- A table that lists the objects, under their numbers. -/
structure Table.Lists (table : Table) (objects : List ObjectDefinition) : Prop where
  counter : table.counter = objects.length
  places : table.places = objects.map some

/-- A single object is listed with all that it holds, and all of these come from its source. -/
theorem extract_empty (root : Occurrence) :
    let table := (root.extract {}).table
    table.Lists table.objects ∧ table.objects ≠ [] ∧
      ∀ d ∈ table.objects, d.source = root.source := by
  intro table
  obtain ⟨found, completed, -, hdone, hroot, hgrows⟩ := extract_explored root completed_empty
  have hplaces : table.places = table.objects.map some := Grows.places_eq ⟨found, hgrows⟩
  have hcounter : table.counter = table.objects.length := by
    rw [show table.counter = table.places.length from hdone.counter, hplaces, List.length_map]
  refine ⟨⟨hcounter, hplaces⟩, List.ne_nil_of_mem (hdone.perm.subset hroot), ?_⟩
  intro d hd
  have hlisted : some d ∈ table.places := by
    rw [hplaces]
    exact List.mem_map_of_mem hd
  rcases (extract_frame root {}).listed d hlisted with hempty | hsource
  · cases hempty
  · exact hsource

/-- What a body yields on its own: objects if it is one, all from this body. -/
theorem Textual.alone_objects {endpoints : List Endpoint} {roles : List Role}
    (h : Textual endpoints) {b : Endpoint × Role} (hb : b ∈ wantedBodies endpoints roles) :
    ((alone b).objects = [] ↔ ¬ HoldsObject b) ∧
      ∃ source : ObjectSource, source.endpointId = b.1.id ∧ source.role = b.2 ∧
        ∀ d ∈ (alone b).objects, d.source = source := by
  have hnone : ∃ source : ObjectSource, source.endpointId = b.1.id ∧ source.role = b.2 ∧
      ∀ d ∈ ([] : List ObjectDefinition), d.source = source :=
    ⟨{ endpointId := b.1.id, path := "", method := "", role := b.2 }, rfl, rfl, nofun⟩
  cases hlong : longInteger? b with
  | some digits =>
      rw [alone_of_longInteger hlong]
      exact ⟨iff_of_true rfl (readBody_longInteger hlong).2, hnone⟩
  | none =>
      obtain ⟨reading, hreading, houtcome⟩ := h.exists_outcome hb hlong
      rw [alone_eq hreading]
      cases houtcome with
      | nothing _ hnot | refused _ hnot => exact ⟨iff_of_true rfl hnot, hnone⟩
      | @object root _ hholds hid hrole =>
          obtain ⟨-, hne, hsource⟩ := extract_empty root
          exact ⟨iff_of_false hne (not_not_intro hholds), root.source, hid, hrole, hsource⟩

/-! ## Joined objects -/

/-- Lists of objects one after the other, all numbers raised by the number of objects before. -/
def joined : Nat → List (List ObjectDefinition) → List ObjectDefinition
  | _, [] => []
  | offset, ds :: rest => ds.map (·.renumber offset) ++ joined (offset + ds.length) rest

theorem exists_renumber_of_mem_joined {lists : List (List ObjectDefinition)} {offset : Nat}
    {d : ObjectDefinition} (hd : d ∈ joined offset lists) :
    ∃ ds ∈ lists, ∃ m, d ∈ ds.map (·.renumber m) ∧ ds.map (·.renumber m) ⊆ joined offset lists := by
  induction lists generalizing offset with
  | nil => cases hd
  | cons ds lists ih =>
      rw [joined] at hd ⊢
      rcases List.mem_append.mp hd with hd | hd
      · exact ⟨ds, List.mem_cons_self, offset, hd, List.subset_append_left _ _⟩
      · obtain ⟨ds', hds', m, hm, hsubset⟩ := ih hd
        exact ⟨ds', List.mem_cons_of_mem _ hds', m, hm,
          List.Subset.trans hsubset (List.subset_append_right _ _)⟩

/-- The objects found in the body of an endpoint in a role. -/
def foundIn (endpointId : String) (role : Role) (objects : List ObjectDefinition) :
    List ObjectDefinition :=
  objects.filter fun d => d.source.endpointId == endpointId && d.source.role == role

section Joined

variable {f : Endpoint × Role → List ObjectDefinition}

theorem foundIn_append (endpointId : String) (role : Role) (ds ds' : List ObjectDefinition) :
    foundIn endpointId role (ds ++ ds') =
      foundIn endpointId role ds ++ foundIn endpointId role ds' :=
  List.filter_append ..

theorem foundIn_eq_self {endpointId : String} {role : Role} {ds : List ObjectDefinition}
    (h : ∀ d ∈ ds, d.source.endpointId = endpointId ∧ d.source.role = role) :
    foundIn endpointId role ds = ds := by
  rw [foundIn, List.filter_eq_self]
  intro d hd
  simp [h d hd]

theorem foundIn_eq_nil {endpointId : String} {role : Role} {ds : List ObjectDefinition}
    (h : ∀ d ∈ ds, (d.source.endpointId, d.source.role) ≠ (endpointId, role)) :
    foundIn endpointId role ds = [] := by
  rw [foundIn, List.filter_eq_nil_iff]
  intro d hd
  have hne := h d hd
  simpa [Prod.ext_iff] using hne

/-- Among the joined objects of several bodies, those of one body are its own. -/
theorem foundIn_joined {bodies : List (Endpoint × Role)}
    (hkeys : (bodies.map fun b => (b.1.id, b.2)).Nodup)
    (hsource : ∀ b ∈ bodies, ∀ d ∈ f b, d.source.endpointId = b.1.id ∧ d.source.role = b.2)
    (offset : Nat) {b : Endpoint × Role} (hb : b ∈ bodies) :
    ∃ m, foundIn b.1.id b.2 (joined offset (bodies.map f)) = (f b).map (·.renumber m) := by
  -- renumbering keeps where an object was found
  have hfound : ∀ c ∈ bodies, ∀ m, ∀ d ∈ (f c).map (·.renumber m),
      d.source.endpointId = c.1.id ∧ d.source.role = c.2 := by
    intro c hc m d hd
    obtain ⟨d', hd', rfl⟩ := List.mem_map.mp hd
    exact hsource c hc d' hd'
  induction bodies generalizing offset with
  | nil => cases hb
  | cons c bodies ih =>
      rw [List.map_cons, List.nodup_cons] at hkeys
      rw [List.map_cons, joined, foundIn_append]
      have hc := hfound c List.mem_cons_self offset
      rcases List.mem_cons.mp hb with rfl | hb
      · refine ⟨offset, ?_⟩
        rw [foundIn_eq_self hc, foundIn_eq_nil, List.append_nil]
        intro d hd heq
        obtain ⟨ds, hds, m, hd, -⟩ := exists_renumber_of_mem_joined hd
        obtain ⟨c, hc, rfl⟩ := List.mem_map.mp hds
        obtain ⟨hid, hrole⟩ := hfound c (List.mem_cons_of_mem _ hc) m d hd
        apply hkeys.1
        rw [← heq, hid, hrole]
        exact List.mem_map_of_mem hc
      · obtain ⟨m, hm⟩ := ih hkeys.2 (fun a ha => hsource a (List.mem_cons_of_mem _ ha))
          (offset + (f c).length) hb (fun a ha => hfound a (List.mem_cons_of_mem _ ha))
        refine ⟨m, ?_⟩
        rw [foundIn_eq_nil, List.nil_append, hm]
        intro d hd heq
        obtain ⟨hid, hrole⟩ := hc d hd
        apply hkeys.1
        rw [← hid, ← hrole, heq]
        exact List.mem_map_of_mem hb

end Joined

/-! ## Several bodies -/

/-- Nothing of an endpoint and role is remembered. -/
def Table.Fresh (table : Table) (endpointId : String) (role : Role) : Prop :=
  ∀ key : SeenKey, key.From endpointId role → table.find? key = none

/-- To an endpoint and role of which nothing is remembered, a table is an empty one behind the
objects it lists. -/
theorem behind_of_fresh {source : ObjectSource} {table : Table} {objects : List ObjectDefinition}
    (h : table.Lists objects) (hfresh : table.Fresh source.endpointId source.role) :
    Behind (objects.map some) source {} table where
  counter := by simp [h.counter]
  places := by simp [h.places]
  found := hfresh
  numbered := by simp [Table.find?]

/-- **One more body** yields what it yields on its own, numbered on. A bad one is noted, and of
other endpoints and roles is remembered what was. -/
theorem Outcome.take {b : Endpoint × Role} {reading : Reading}
    (hreading : readBody b.1 b.2 = .ok reading) (h : Outcome b reading) {r : Run}
    {objects : List ObjectDefinition} (hlists : r.table.Lists objects)
    (hfresh : r.table.Fresh b.1.id b.2) :
    (r.take reading).table.Lists
        (objects ++ (alone b).objects.map (·.renumber objects.length)) ∧
      (r.take reading).refused = r.refused ++ (refusal? b).toList ∧
      ∀ key : SeenKey, ¬ key.From b.1.id b.2 →
        (r.take reading).table.find? key = r.table.find? key := by
  rw [alone_eq hreading]
  cases h with
  | nothing hrefusal _ =>
      refine ⟨?_, by simp [Run.take, hrefusal], fun _ _ => rfl⟩
      simpa [Run.take, Run.objects, Table.objects] using hlists
  | refused hrefusal _ =>
      refine ⟨?_, by simp [Run.take, hrefusal], fun _ _ => rfl⟩
      simpa [Run.take, Run.objects, Table.objects] using hlists
  | @object root hrefusal _ hid hrole =>
      rw [← hid, ← hrole] at hfresh ⊢
      obtain ⟨hroot, -, -⟩ := extract_empty root
      -- the table is in step with an empty one, in which the body is on its own
      obtain ⟨hbehind, -⟩ := extract_behind root {} _ _ (behind_of_fresh hlists hfresh)
      refine ⟨⟨?_, ?_⟩, by simp [Run.take, hrefusal], (extract_frame root r.table).found⟩
      · have hcounter := hbehind.counter
        rw [hroot.counter] at hcounter
        simpa [Run.take, Run.objects, Nat.add_comm] using hcounter
      · have hplaces := hbehind.places
        rw [hroot.places, List.map_map, List.length_map] at hplaces
        show (root.extract r.table).table.places = _
        rw [hplaces, List.map_append, List.map_map]
        rfl

/-- **Several bodies** yield what they yield on their own, one after the other, up to the first that
is given up for an integer. -/
theorem readBodies_joined (bodies : List (Endpoint × Role)) {r : Run}
    {objects : List ObjectDefinition} (hlists : r.table.Lists objects)
    (hkeys : (bodies.map fun b => (b.1.id, b.2)).Nodup)
    (hfresh : ∀ b ∈ bodies, r.table.Fresh b.1.id b.2)
    (hreadings : ∀ b ∈ bodies, longInteger? b = none →
      ∃ reading, readBody b.1 b.2 = .ok reading ∧ Outcome b reading) :
    (readBodies bodies r).1 = ending bodies ∧
      (readBodies bodies r).2.objects =
        objects ++ joined objects.length ((reached bodies).map fun b => (alone b).objects) ∧
      (readBodies bodies r).2.refused = r.refused ++ (reached bodies).filterMap refusal? := by
  have hstart : r.objects = objects := Table.objects_of_places hlists.places
  induction bodies generalizing r objects with
  | nil =>
      exact ⟨rfl, by simpa [readBodies, reached, joined] using hstart,
        by simp [readBodies, reached]⟩
  | cons b bodies ih =>
      cases hlong : longInteger? b with
      | some digits =>
          have hreached : reached (b :: bodies) = [] := by simp [reached, hlong]
          have hending : ending (b :: bodies) = .error (.longInteger digits) := by
            simp [ending, hlong]
          rw [readBodies, (readBody_longInteger hlong).1, hreached, hending]
          exact ⟨rfl, by simpa [joined] using hstart, by simp⟩
      | none =>
          have hreached : reached (b :: bodies) = b :: reached bodies := by simp [reached, hlong]
          have hending : ending (b :: bodies) = ending bodies := by simp [ending, hlong]
          obtain ⟨reading, hreading, hb⟩ := hreadings b List.mem_cons_self hlong
          obtain ⟨hlists', hrefused, hkept⟩ := hb.take hreading hlists (hfresh b List.mem_cons_self)
          rw [List.map_cons, List.nodup_cons] at hkeys
          -- the bodies behind this one are found elsewhere, so this one leaves nothing for them
          have hfresh' : ∀ c ∈ bodies, (r.take reading).table.Fresh c.1.id c.2 := by
            intro c hc key hkey
            rw [hkept key]
            · exact hfresh c (List.mem_cons_of_mem _ hc) key hkey
            · rintro ⟨hid, hrole⟩
              apply hkeys.1
              rw [← hid, ← hrole, hkey.1, hkey.2]
              exact List.mem_map_of_mem hc
          obtain ⟨hok, hobjects, hbad⟩ := ih hlists' hkeys.2 hfresh'
            (fun c hc => hreadings c (List.mem_cons_of_mem _ hc))
            (Table.objects_of_places hlists'.places)
          rw [readBodies, hreading, hreached, hending]
          refine ⟨hok, ?_, ?_⟩
          · show (readBodies bodies (r.take reading)).2.objects = _
            rw [hobjects, List.map_cons, joined, List.append_assoc, List.length_append,
              List.length_map]
          · show (readBodies bodies (r.take reading)).2.refused = _
            rw [hbad, hrefused, List.append_assoc]
            cases hrefusal : refusal? b with
            | none => simp [hrefusal]
            | some bad => simp [hrefusal]

/-! ## Runs -/

section Run

variable {endpoints : List Endpoint} (roles : List Role)

theorem Textual.run_eq (h : Textual endpoints) :
    let bodies := wantedBodies endpoints roles
    (run endpoints roles).1 = ending bodies ∧
      (run endpoints roles).2.objects =
        joined 0 ((reached bodies).map fun b => (alone b).objects) ∧
      (run endpoints roles).2.refused = (reached bodies).filterMap refusal? := by
  intro bodies
  have hempty : ({} : Table).Lists [] := ⟨rfl, rfl⟩
  obtain ⟨hending, hobjects, hrefused⟩ := readBodies_joined bodies (r := {}) hempty
    (wantedBodies_nodup h.ids_nodup) (fun _ _ _ _ => rfl) (fun _ hb => h.exists_outcome hb)
  exact ⟨hending, hobjects, hrefused⟩

/-- What is found in a body that a run reaches is what the body yields on its own. -/
theorem Textual.foundIn_run (h : Textual endpoints) {b : Endpoint × Role}
    (hb : b ∈ reached (wantedBodies endpoints roles)) :
    ∃ m, foundIn b.1.id b.2 (run endpoints roles).2.objects =
      (alone b).objects.map (·.renumber m) := by
  rw [(h.run_eq roles).2.1]
  refine foundIn_joined ?_ (fun c hc d hd => ?_) 0 hb
  · exact (wantedBodies_nodup h.ids_nodup).sublist ((List.takeWhile_sublist _).map _)
  · obtain ⟨-, source, hid, hrole, hsource⟩ := h.alone_objects (mem_of_mem_reached hc).1
    rw [hsource d hd]
    exact ⟨hid, hrole⟩

/-- Objects depend only on objects of the same body. -/
theorem Textual.source_eq_of_mem_dependencies (h : Textual endpoints) {d n : ObjectDefinition}
    (hd : d ∈ (run endpoints roles).2.objects) (hn : n ∈ (run endpoints roles).2.objects)
    (hdepends : n.id ∈ d.dependencies) : n.source = d.source := by
  obtain ⟨hids, -⟩ := run_completed endpoints roles
  have hjoined := (h.run_eq roles).2.1
  rw [hjoined] at hd
  obtain ⟨ds, hds, m, hd, hsubset⟩ := exists_renumber_of_mem_joined hd
  obtain ⟨b, hb, rfl⟩ := List.mem_map.mp hds
  obtain ⟨d', hd', rfl⟩ := List.mem_map.mp hd
  obtain ⟨id, hid, hnid⟩ := List.mem_map.mp hdepends
  -- the object it depends on was extracted with it, and no other object has that identifier
  obtain ⟨-, done, hdone⟩ := run_completed [b.1] [b.2]
  obtain ⟨n', hn', rfl⟩ := hdone.exists_of_mem_dependencies hd' hid
  have hmem : n'.renumber m ∈ (run endpoints roles).2.objects := by
    rw [hjoined]
    exact hsubset (List.mem_map_of_mem hn')
  obtain rfl : n'.renumber m = n := List.inj_on_of_nodup_map hids hmem hn hnid
  obtain ⟨-, source, -, -, hsource⟩ := h.alone_objects (mem_of_mem_reached hb).1
  exact (hsource n' hn').trans (hsource d' hd').symm

end Run

/-- **What endpoints yield.** A run reaches the bodies up to the first that is given up for an
integer, and goes through exactly if there is none. It gives the objects of the bodies it reaches,
one after the other, all but their running numbers as each body gives them on its own. A body yields
objects if and only if it is a JSON object, and those that are no documents are noted in order.
Whatever other endpoints there are, a body that is reached and read alike yields the same objects,
and objects depend on objects of the same body only. -/
theorem run_eq_joined (endpoints : List Endpoint) (roles : List Role) (h : Textual endpoints) :
    let bodies := wantedBodies endpoints roles
    let objects := (run endpoints roles).2.objects
    (run endpoints roles).1 = ending bodies ∧
      ((run endpoints roles).1 = .ok () ↔ reached bodies = bodies) ∧
      objects = joined 0 ((reached bodies).map fun b => (alone b).objects) ∧
      (run endpoints roles).2.refused = (reached bodies).filterMap refusal? ∧
      (∀ b ∈ bodies, (alone b).objects = [] ↔ ¬ HoldsObject b) ∧
      (∀ (others : List Endpoint) (roles' : List Role), Textual others →
        ∀ e e' role, (e, role) ∈ reached bodies →
          (e', role) ∈ reached (wantedBodies others roles') → e'.id = e.id →
          readBody e' role = readBody e role →
          ∃ m n, foundIn e.id role objects = (alone (e, role)).objects.map (·.renumber m) ∧
            foundIn e.id role (run others roles').2.objects =
              (alone (e, role)).objects.map (·.renumber n)) ∧
      ∀ d ∈ objects, ∀ n ∈ objects, n.id ∈ d.dependencies → n.source = d.source := by
  intro bodies objects
  obtain ⟨hending, hobjects, hrefused⟩ := h.run_eq roles
  refine ⟨hending, hending ▸ ending_eq_ok_iff, hobjects, hrefused,
    fun b hb => (h.alone_objects hb).1, ?_, ?_⟩
  · intro others roles' hothers e e' role he he' hid hsame
    obtain ⟨m, hm⟩ := h.foundIn_run roles he
    obtain ⟨n, hn⟩ := hothers.foundIn_run roles' he'
    obtain ⟨hmem, hlong⟩ := mem_of_mem_reached he
    obtain ⟨reading, hreading, -⟩ := h.exists_outcome hmem hlong
    have halone : alone (e', role) = alone (e, role) := by
      rw [alone_eq hreading, alone_eq (hsame.trans hreading)]
    rw [hid, halone] at hn
    exact ⟨m, n, hm, hn⟩
  · intro d hd n hn hdepends
    exact h.source_eq_of_mem_dependencies roles hd hn hdepends

/-- Two endpoints with the same body and one with a body that is no document. -/
def twinEndpoints : List Endpoint :=
  [{ twinEndpoint with id := "a" }, { twinEndpoint with id := "b" },
    { id := "c", path := .str "/c", response := { body := .str "\x7b" } }]

theorem textual_twinEndpoints : Textual twinEndpoints where
  ids_nodup := by decide +kernel
  path := by simp [twinEndpoints, twinEndpoint, answering]
  body := by
    intro e he role
    simp only [twinEndpoints, List.mem_cons, List.not_mem_nil, or_false] at he
    rcases he with rfl | rfl | rfl <;> cases role <;>
      simp [Endpoint.bodyFor, twinEndpoint, answering]

/-- Every body is reached, both endpoints with an object yield objects of their own, and the third
body is noted. -/
theorem run_eq_joined_twinEndpoints :
    let objects := (run twinEndpoints [.response]).2.objects
    Textual twinEndpoints ∧ (run twinEndpoints [.response]).1 = .ok () ∧
      foundIn "a" .response objects ≠ [] ∧ foundIn "b" .response objects ≠ [] ∧
      (run twinEndpoints [.response]).2.refused.map (·.endpointId) = ["c"] := by
  intro objects
  obtain ⟨-, hok, -, hrefused, hholds, halike, -⟩ :=
    run_eq_joined twinEndpoints [.response] textual_twinEndpoints
  have hreached : reached (wantedBodies twinEndpoints [.response]) =
      wantedBodies twinEndpoints [.response] := by
    rw [reached, List.takeWhile_eq_self_iff, ← List.all_eq_true]
    decide +kernel
  have hfound : ∀ id, { twinEndpoint with id } ∈ twinEndpoints →
      foundIn id .response objects ≠ [] := by
    intro id hid
    have hmem := mem_wantedBodies.mpr ⟨hid, List.mem_cons_self (a := Role.response) (l := [])⟩
    have hbody := hreached.symm ▸ hmem
    obtain ⟨m, -, hm, -⟩ := halike twinEndpoints [.response] textual_twinEndpoints _ _ _ hbody hbody
      rfl rfl
    have hobject : HoldsObject ({ twinEndpoint with id }, .response) :=
      ⟨_, twins "x" "x", rfl, isBlankText_twins, read_twins⟩
    rw [hm, ne_eq, List.map_eq_nil_iff, hholds _ hmem]
    exact not_not_intro hobject
  refine ⟨textual_twinEndpoints, hok.mpr hreached, hfound "a" ?_, hfound "b" ?_, ?_⟩
  · exact List.mem_cons_self
  · exact List.mem_cons_of_mem _ List.mem_cons_self
  · rw [hrefused, hreached]
    decide +kernel

/-- A number with one digit more than are read. -/
def overlongNumber : String :=
  String.ofList (List.replicate (Json.digitLimit + 1) '1')

/-- An endpoint with that number for a body. -/
def overlongEndpoint : Endpoint where
  id := "a"
  path := .str "/a"
  response := { body := .str overlongNumber }

/-- The endpoint, and one with an object behind it. -/
def overlongEndpoints : List Endpoint :=
  [overlongEndpoint, { twinEndpoint with id := "b" }]

theorem textual_overlongEndpoints : Textual overlongEndpoints where
  ids_nodup := by decide +kernel
  path := by simp [overlongEndpoints, overlongEndpoint, twinEndpoint, answering]
  body := by
    intro e he role
    simp only [overlongEndpoints, List.mem_cons, List.not_mem_nil, or_false] at he
    rcases he with rfl | rfl <;> cases role <;>
      simp [Endpoint.bodyFor, overlongEndpoint, twinEndpoint, answering]

/-- A text of so many ones is given up if they are too many, and it is not blank. -/
theorem read_ones {n : Nat} (h : Json.digitLimit < n) :
    Json.read (String.ofList (List.replicate n '1')) = .error (.longInteger n) ∧
      Unicode.isBlankText (String.ofList (List.replicate n '1')) = false := by
  obtain ⟨n, rfl⟩ : ∃ m, n = m + 1 := ⟨n - 1, by omega⟩
  have hone : Unicode.isBlank '1' = false := by decide +kernel
  have hwhole : Json.IsWhole (List.replicate (n + 1) '1') :=
    .digits (by decide) fun d hd => by
      obtain rfl : d = '1' := List.eq_of_mem_replicate (n := n + 1) hd
      rfl
  refine ⟨?_, by simp [Unicode.isBlankText, List.replicate_succ, hone]⟩
  have hread := Json.read_longInteger false hwhole (by rwa [List.length_replicate])
  rwa [List.length_replicate] at hread

theorem longInteger?_overlongEndpoint :
    longInteger? (overlongEndpoint, .response) = some (Json.digitLimit + 1) := by
  obtain ⟨hread, hblank⟩ := read_ones (Nat.lt_succ_self Json.digitLimit)
  exact longInteger?_of_read rfl hblank hread

/-- The number ends the run, and the object behind it, which yields objects on its own, yields
none. -/
theorem run_overlongEndpoints :
    Textual overlongEndpoints ∧
      (run overlongEndpoints [.response]).1 = .error (.longInteger (Json.digitLimit + 1)) ∧
      (run overlongEndpoints [.response]).2.objects = [] ∧
      (run overlongEndpoints [.response]).2.refused = [] ∧
      (alone ({ twinEndpoint with id := "b" }, .response)).objects ≠ [] := by
  have hwanted : wantedBodies overlongEndpoints [.response] =
      [(overlongEndpoint, .response), ({ twinEndpoint with id := "b" }, .response)] := rfl
  -- the number is kept from being written out: `simp` would compare it with itself digit by digit
  have hreached : reached (wantedBodies overlongEndpoints [.response]) = [] := by
    rw [hwanted, reached, List.takeWhile_cons, longInteger?_overlongEndpoint]
    rfl
  obtain ⟨hending, hobjects, hrefused⟩ := textual_overlongEndpoints.run_eq [.response]
  rw [hreached] at hobjects hrefused
  refine ⟨textual_overlongEndpoints, ?_, hobjects, hrefused, ?_⟩
  · rw [hending, ending, hwanted, List.findSome?_cons, longInteger?_overlongEndpoint]
  · have hmem : ({ twinEndpoint with id := "b" }, Role.response) ∈
        wantedBodies overlongEndpoints [.response] :=
      mem_wantedBodies.mpr ⟨List.mem_cons_of_mem _ List.mem_cons_self, List.mem_cons_self⟩
    have hobject : HoldsObject ({ twinEndpoint with id := "b" }, .response) :=
      ⟨_, twins "x" "x", rfl, isBlankText_twins, read_twins⟩
    rw [Ne, (textual_overlongEndpoints.alone_objects hmem).1]
    exact not_not_intro hobject

end DtoForge.Extraction
