import DtoForge.Postman.Import
import DtoForge.Proofs.Endpoint

/-! # Conversion — what the leaves of a collection become

An import that succeeds met items alone, and its endpoints are the conversions of those whose request
is an object, one each and in order. It goes by the leaves, and nothing but the identifiers depends on
what was handed out before. -/

namespace DtoForge.Postman

/-- The items of a collection. -/
def itemsOf (data : Json) : List Json :=
  (Json.valueOf (data.object?.getD []) "item").list?.getD []

/-- A collection of some items. -/
def collectionOf (items : List Json) : Json :=
  .object [
    ("info", .object [("name", .str "Shop"), ("schema", .str ("https://" ++ schemaHost))]),
    ("item", .list items)]

/-- Whether the request of an item is an object. -/
def hasRequest (item : Entries Json) : Bool :=
  (Json.valueOf item "request").object?.isSome

/-- An item gives an endpoint, under some identifier. -/
def Converts (environment : Json) (item : Entries Json) (e : Endpoint) : Prop :=
  ∃ n n', (endpointOf environment (.ok item)).run.run n = (.ok (some e), n')

/-! ## What was converted -/

variable {data environment : Json} {item : Entries Json} {e : Endpoint} {c : Collection} {n n' : Nat}

/-- The path of an endpoint is that of the draft it was made of. -/
theorem path_of_endpoint {d : Draft} (h : d.endpoint.run.run n = (.ok e, n')) :
    e.path = .str d.path := by
  obtain ⟨id, n₁, -, h⟩ := Steps.exists_of_run_bind_eq_ok h
  split at h
  · cases h
    rfl
  · cases h

/-- An endpoint is made of the draft of the request of an item. -/
theorem Converts.exists_draft (h : Converts environment item e) :
    ∃ request draft, Json.valueOf item "request" = .object request ∧
      draftOf environment item request = .ok draft ∧ e.path = .str draft.path := by
  obtain ⟨n, n', h⟩ := h
  rw [endpointOf] at h
  split at h
  next request hrequest =>
    obtain ⟨draft, n₁, hdraft, h⟩ := Steps.exists_of_run_bind_eq_ok h
    obtain ⟨e', n₂, he, h⟩ := Steps.exists_of_run_bind_eq_ok h
    cases h
    exact ⟨request, draft, hrequest, congrArg Prod.fst hdraft, path_of_endpoint he⟩
  next => cases h

/-- An item gives an endpoint exactly if its request is an object. -/
theorem isSome_of_endpointOf {found : Option Endpoint}
    (h : (endpointOf environment (.ok item)).run.run n = (.ok found, n')) :
    found.isSome = hasRequest item := by
  rw [endpointOf] at h
  split at h
  next request hrequest =>
    obtain ⟨draft, n₁, -, h⟩ := Steps.exists_of_run_bind_eq_ok h
    obtain ⟨e, n₂, -, h⟩ := Steps.exists_of_run_bind_eq_ok h
    cases h
    rw [hasRequest, hrequest]
    rfl
  next hrequest =>
    cases h
    rw [hasRequest]
    cases hv : Json.valueOf item "request" with
    | object request => exact absurd hv (hrequest request)
    | _ => rfl

/-- Runs over leaves that give anything were runs over items, and they gave the endpoints of those
whose request is an object, one each. -/
theorem exists_items_of_endpointOf {leaves : List (Except ShapeError (Entries Json))}
    {found : List (Option Endpoint)}
    (h : List.Forall₂ (fun leaf found =>
      ∃ n n', (endpointOf environment leaf).run.run n = (.ok found, n')) leaves found) :
    ∃ items : List (Entries Json), leaves = items.map .ok ∧
      List.Forall₂ (Converts environment) (items.filter hasRequest) (found.filterMap id) := by
  induction h with
  | nil => exact ⟨[], rfl, .nil⟩
  | @cons leaf found _ _ hleaf _ ih =>
      obtain ⟨n, n', hrun⟩ := hleaf
      obtain ⟨items, rfl, hitems⟩ := ih
      cases leaf with
      | error cause => cases hrun
      | ok item =>
          refine ⟨item :: items, rfl, ?_⟩
          have hsome := isSome_of_endpointOf hrun
          cases found with
          | none =>
              rw [List.filter_cons_of_neg (Bool.eq_false_iff.mp hsome.symm)]
              exact hitems
          | some e =>
              rw [List.filter_cons_of_pos hsome.symm]
              exact .cons ⟨n, n', hrun⟩ hitems

/-- An import that gives a collection met items alone, and its endpoints are those of the items whose
request is an object, one each. -/
theorem exists_items_of_importCollection
    (h : (importCollection data environment).run.run n = (.ok c, n')) :
    isCollection data = true ∧ ∃ items : List (Entries Json),
      leavesOf (itemsOf data) = items.map .ok ∧
        List.Forall₂ (Converts environment) (items.filter hasRequest) c.endpoints := by
  rw [importCollection] at h
  split at h
  next hdata =>
    obtain ⟨found, n₁, hfound, h⟩ := Steps.exists_of_run_bind_eq_ok h
    obtain ⟨id, n₂, -, h⟩ := Steps.exists_of_run_bind_eq_ok h
    cases h
    exact ⟨hdata, exists_items_of_endpointOf (Steps.forall₂_of_run_mapM hfound)⟩
  next => cases h

/-- Every imported endpoint is the conversion of an item. -/
theorem exists_converts_of_mem (h : (importCollection data environment).run.run n = (.ok c, n'))
    (he : e ∈ c.endpoints) : ∃ item, Converts environment item e := by
  obtain ⟨-, items, -, hitems⟩ := exists_items_of_importCollection h
  obtain ⟨i, rfl⟩ := List.mem_iff_get.mp he
  have hi : i.1 < (items.filter hasRequest).length := by
    rw [hitems.length_eq]
    exact i.2
  exact ⟨_, hitems.get hi i.2⟩

/-! ## Runs over the same leaves -/

/-- An endpoint without its identifier. -/
def anonymous (e : Endpoint) : Endpoint := { e with id := "" }

theorem Draft.endpoint_follows (d : Draft) :
    Steps.Follows (fun e e' => anonymous e = anonymous e') d.endpoint d.endpoint := by
  refine freshId_follows.bind fun id id' _ => ?_
  cases d.method with
  | str method => exact Steps.follows_pure rfl
  | _ => exact Steps.follows_throw _ _

theorem endpointOf_follows (environment : Json) (leaf : Except ShapeError (Entries Json)) :
    Steps.Follows (fun found found' => found.map anonymous = found'.map anonymous)
      (endpointOf environment leaf) (endpointOf environment leaf) := by
  cases leaf with
  | error cause => exact Steps.follows_throw _ _
  | ok item =>
      rw [endpointOf]
      split
      next request _ =>
        refine (Steps.follows_lift (draftOf environment item request)).bind ?_
        rintro draft _ rfl
        exact draft.endpoint_follows.bind fun e e' he => Steps.follows_pure (congrArg some he)
      next => exact Steps.follows_pure rfl

theorem map_filterMap_of_forall₂ {found found' : List (Option Endpoint)}
    (h : List.Forall₂ (fun found found' => found.map anonymous = found'.map anonymous) found found') :
    (found.filterMap id).map anonymous = (found'.filterMap id).map anonymous := by
  have hmap : found.map (Option.map anonymous) = found'.map (Option.map anonymous) := by
    rw [← List.forall₂_eq_eq_eq, List.forall₂_map_left_iff, List.forall₂_map_right_iff]
    exact h
  have hfilter : ∀ found : List (Option Endpoint),
      (found.filterMap id).map anonymous = (found.map (Option.map anonymous)).filterMap id := by
    intro found
    rw [List.map_filterMap, List.filterMap_map]
    rfl
  rw [hfilter, hfilter, hmap]

/-- An import goes by the leaves of its items. -/
theorem importCollection_follows {data data' : Json} (environment : Json)
    (hdata' : isCollection data' = true)
    (hleaves : leavesOf (itemsOf data) = leavesOf (itemsOf data')) :
    Steps.Follows (fun c c' => c.endpoints.map anonymous = c'.endpoints.map anonymous)
      (importCollection data environment) (importCollection data' environment) := by
  rw [importCollection, importCollection, if_pos hdata']
  split
  next =>
    -- name and description come in behind the leaves and have no part in the endpoints
    show Steps.Follows _ ((leavesOf (itemsOf data)).mapM _ >>= _)
      ((leavesOf (itemsOf data')).mapM _ >>= _)
    rw [hleaves]
    refine (Steps.follows_mapM (endpointOf_follows environment)).bind fun found found' hfound => ?_
    refine freshId_follows.bind fun id id' _ => Steps.follows_pure ?_
    exact map_filterMap_of_forall₂ hfound
  next => exact Steps.follows_throw _ _

end DtoForge.Postman
