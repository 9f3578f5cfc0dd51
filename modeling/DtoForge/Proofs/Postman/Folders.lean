import Mathlib.Logic.Relation
import DtoForge.Proofs.Json.Entries
import DtoForge.Proofs.Json.Shape
import DtoForge.Proofs.Postman.Conversion

/-! # Folders — what is in them counts, not where they are

A leaf stands at a place in a collection: the way to it leads through the items of folders, and the
order of the document is that of the places. The leaves of a collection are given by `Groups`, folder
by folder. From there on folders are forgotten: an import converts the leaves in the order of their
places, and opening a folder, or putting items into one, leaves it as it was. -/

namespace DtoForge.Postman

/-! ## Places -/

/-- A value at a place below another: the way leads through the items of folders. -/
inductive Below : Json → List Nat → Json → Prop
  | here (v : Json) : Below v [] v
  | inside {es : Entries Json} {items : List Json} {i : Nat} {v w : Json} {place : List Nat} :
      Entries.has es "item" = true → (Json.valueOf es "item").HasItems items → items[i]? = some v →
      Below v place w → Below (.object es) (i :: place) w

/-- An item without items at a place below a value. -/
def LeafAt (v : Json) (place : List Nat) (item : Entries Json) : Prop :=
  Below v place (.object item) ∧ Entries.has item "item" = false

theorem leafAt_leaf_iff {es item : Entries Json} {place : List Nat}
    (hleaf : Entries.has es "item" = false) :
    LeafAt (.object es) place item ↔ place = [] ∧ item = es := by
  constructor
  · rintro ⟨hbelow, -⟩
    cases hbelow with
    | here => exact ⟨rfl, rfl⟩
    | inside hfolder => cases hleaf.symm.trans hfolder
  · rintro ⟨rfl, rfl⟩
    exact ⟨.here _, hleaf⟩

theorem leafAt_folder_iff {es item : Entries Json} {items : List Json} {place : List Nat}
    (hfolder : Entries.has es "item" = true) (hitems : (Json.valueOf es "item").HasItems items) :
    LeafAt (.object es) place item ↔
      ∃ i v rest, place = i :: rest ∧ items[i]? = some v ∧ LeafAt v rest item := by
  constructor
  · rintro ⟨hbelow, hleaf⟩
    cases hbelow with
    | here => cases hfolder.symm.trans hleaf
    | @inside _ items' i v _ rest _ hitems' hv hbelow =>
        have heq : items' = items := Except.ok.inj <|
          (Json.itemsOf_eq_ok_iff.mpr hitems').symm.trans (Json.itemsOf_eq_ok_iff.mpr hitems)
        subst heq
        exact ⟨i, v, rest, rfl, hv, hbelow, hleaf⟩
  · rintro ⟨i, v, rest, rfl, hv, hbelow, hleaf⟩
    exact ⟨.inside hfolder hitems hv hbelow, hleaf⟩

/-! ## Leaves -/

theorem leavesOf_eq_flatMap (vs : List Json) : leavesOf vs = vs.flatMap leaves := by
  induction vs with
  | nil => rw [leavesOf, List.flatMap_nil]
  | cons v vs ih => rw [leavesOf, ih, List.flatMap_cons]

/-- The elements of what is no list are texts. -/
theorem exists_str_of_elements {v : Json} (hlist : ∀ items, v ≠ .list items) {items : List Json}
    (h : v.elements = .ok items) : ∀ w ∈ items, ∃ s, w = .str s := by
  cases v with
  | list vs => exact absurd rfl (hlist vs)
  | object es =>
      cases h
      exact List.forall_mem_map.mpr fun e _ => ⟨e.1, rfl⟩
  | str s =>
      cases h
      exact List.forall_mem_map.mpr fun c _ => ⟨_, rfl⟩
  | _ => cases h

theorem leavesOf_str {items : List Json} (h : ∀ w ∈ items, ∃ s, w = .str s) :
    leavesOf items = items.map fun w => .error (itemRefusal w) := by
  rw [leavesOf_eq_flatMap, List.map_eq_flatMap]
  refine List.flatMap_congr fun w hw => ?_
  obtain ⟨s, rfl⟩ := h w hw
  rw [leaves]
  nofun

/-- The leaves among the elements of a value are those of the items it stands for. -/
theorem leavesAmong_of_hasItems {v : Json} {items : List Json} (h : v.HasItems items) :
    leavesAmong v = leavesOf items := by
  by_cases hlist : ∃ vs, v = .list vs
  · obtain ⟨vs, rfl⟩ := hlist
    have heq : vs = items := by
      cases h with
      | elements h => exact Except.ok.inj h
      | absent h => exact Json.elements_eq_nil h rfl
    rw [leavesAmong, heq]
  · rw [not_exists] at hlist
    -- elements of what is no list are no items, and they are refused wherever they stand
    rw [leavesAmong]
    · cases h with
      | elements h =>
          rw [h, leavesOf_str (exists_str_of_elements hlist h)]
          split
          next => rfl
          next hgiven => rw [Json.elements_eq_nil (by simpa using hgiven) h, List.map_nil]
      | absent h =>
          rw [if_neg (by simp [h]), leavesOf]
    · exact hlist

/-- The items of a folder stand in its first entry, or its other entries are those of a folder with
the same items. -/
theorem folder_cons {key : RawText} {v : Json} {es : List (RawText × Json)}
    (h : Entries.has ((key, v) :: es) "item" = true) :
    (key == "item") = true ∧ Json.valueOf ((key, v) :: es) "item" = v ∨
      (key == "item") = false ∧ Entries.has es "item" = true ∧
        Json.valueOf ((key, v) :: es) "item" = Json.valueOf es "item" := by
  rw [Entries.has, List.any_cons, Bool.or_eq_true] at h
  simp only [Json.valueOf, Entries.get?_cons]
  by_cases hkey : key = "item"
  · exact .inl ⟨beq_iff_eq.mpr hkey, by rw [if_pos hkey]; rfl⟩
  · have hne : (key == "item") = false := beq_eq_false_iff_ne.mpr hkey
    exact .inr ⟨hne, h.resolve_left (Bool.eq_false_iff.mp hne), by rw [if_neg hkey]⟩

theorem leavesUnder_eq {es : Entries Json} (h : Entries.has es "item" = true) :
    leavesUnder es = leavesAmong (Json.valueOf es "item") := by
  induction es with
  | nil => cases h
  | cons e es ih =>
      rw [leavesUnder]
      obtain ⟨hkey, hvalue⟩ | ⟨hkey, hfolder, hvalue⟩ := folder_cons h
      · rw [if_pos hkey, hvalue]
      · rw [if_neg (Bool.eq_false_iff.mp hkey), hvalue, ih hfolder]

/-- The leaves of a folder are those of its items. -/
theorem leaves_folder {es : Entries Json} {items : List Json}
    (hfolder : Entries.has es "item" = true) (hitems : (Json.valueOf es "item").HasItems items) :
    leaves (.object es) = leavesOf items := by
  rw [leaves, if_pos hfolder, leavesUnder_eq hfolder, leavesAmong_of_hasItems hitems]

/-! ## Groupings -/

/-- Items group leaves: an item that is none is a folder, and the leaves of its items are in its
place. -/
inductive Groups : List Json → List (Entries Json) → Prop
  | nil : Groups [] []
  | leaf {es : Entries Json} {vs : List Json} {items : List (Entries Json)} :
      Entries.has es "item" = false → Groups vs items → Groups (.object es :: vs) (es :: items)
  | folder {es : Entries Json} {inner vs : List Json} {items items' : List (Entries Json)} :
      Entries.has es "item" = true → (Json.valueOf es "item").HasItems inner → Groups inner items →
      Groups vs items' → Groups (.object es :: vs) (items ++ items')

theorem not_error_cons_eq_map_ok {cause : ShapeError} {ls : List (Except ShapeError (Entries Json))}
    (items : List (Entries Json)) : .error cause :: ls ≠ items.map .ok := by
  cases items with
  | nil => nofun
  | cons item items => nofun

theorem eq_nil_of_leavesAmong {v : Json} (hlist : ∀ items, v ≠ .list items)
    {items : List (Entries Json)} (h : leavesAmong v = items.map .ok) :
    v.HasItems [] ∧ items = [] := by
  rw [leavesAmong] at h
  · split at h
    next =>
      split at h
      next vs helements =>
        cases vs with
        | nil => exact ⟨.elements helements, List.map_eq_nil_iff.mp h.symm⟩
        | cons w ws => exact absurd h (not_error_cons_eq_map_ok items)
      next => exact absurd h (not_error_cons_eq_map_ok items)
    next hgiven =>
      exact ⟨.absent (Bool.eq_false_iff.mpr hgiven), List.map_eq_nil_iff.mp h.symm⟩
  · exact hlist

mutual

/-- When nothing is refused, the items in front of others group their leaves in front of theirs. -/
theorem groups_cons : ∀ (v : Json) (items : List (Entries Json)), leaves v = items.map .ok →
    ∀ {vs items'}, Groups vs items' → Groups (v :: vs) (items ++ items')
  | .object es, items, h, _, _, hvs => by
      rw [leaves] at h
      split at h
      next hfolder =>
        obtain ⟨inner, hinner, hitems⟩ := groups_under es hfolder items h
        exact .folder hfolder hinner hitems hvs
      next hleaf =>
        obtain ⟨item, rfl, hitem⟩ := List.map_eq_singleton_iff.mp h.symm
        cases hitem
        exact .leaf (Bool.eq_false_iff.mpr hleaf) hvs
  | .null, items, h, _, _, _ | .bool _, items, h, _, _, _ | .int _, items, h, _, _, _
  | .float _, items, h, _, _, _ | .str _, items, h, _, _, _ | .list _, items, h, _, _, _ => by
      rw [leaves] at h
      · exact absurd h (not_error_cons_eq_map_ok items)
      · nofun

theorem groups_under : ∀ es : List (RawText × Json), Entries.has es "item" = true →
    ∀ items : List (Entries Json), leavesUnder es = items.map .ok →
      ∃ inner, (Json.valueOf es "item").HasItems inner ∧ Groups inner items
  | [], h, _, _ => by cases h
  | (key, v) :: es, h, items, hitems => by
      rw [leavesUnder] at hitems
      obtain ⟨hkey, hvalue⟩ | ⟨hkey, hfolder, hvalue⟩ := folder_cons h
      · rw [if_pos hkey] at hitems
        rw [hvalue]
        exact groups_among v items hitems
      · rw [if_neg (Bool.eq_false_iff.mp hkey)] at hitems
        rw [hvalue]
        exact groups_under es hfolder items hitems

theorem groups_among : ∀ (v : Json) (items : List (Entries Json)), leavesAmong v = items.map .ok →
    ∃ inner, v.HasItems inner ∧ Groups inner items
  | .list vs, items, h => by
      rw [leavesAmong] at h
      exact ⟨vs, .elements rfl, groups_of_leavesOf vs items h⟩
  | .null, items, h | .bool _, items, h | .int _, items, h | .float _, items, h | .str _, items, h
  | .object _, items, h => by
      obtain ⟨hnone, rfl⟩ := eq_nil_of_leavesAmong (by nofun) h
      exact ⟨[], hnone, .nil⟩

/-- Items of which none is refused group their leaves. -/
theorem groups_of_leavesOf : ∀ (vs : List Json) (items : List (Entries Json)),
    leavesOf vs = items.map .ok → Groups vs items
  | [], items, h => by
      rw [leavesOf] at h
      obtain rfl := List.map_eq_nil_iff.mp h.symm
      exact .nil
  | v :: vs, items, h => by
      rw [leavesOf] at h
      obtain ⟨front, back, rfl, hfront, hback⟩ := List.append_eq_map_iff.mp h
      exact groups_cons v front hfront.symm (groups_of_leavesOf vs back hback.symm)

end

/-! ## Listing leaves by their places -/

/-- All leaves below a value, each with its place, in the order of the places. -/
structure Lists (v : Json) (placed : List (List Nat × Entries Json)) : Prop where
  ordered : (placed.map (·.1)).Pairwise (· < ·)
  mem_iff : ∀ place item, (place, item) ∈ placed ↔ LeafAt v place item

/-- All leaves below several items, which are numbered from `k` on. -/
structure ListsFrom (k : Nat) (vs : List Json) (placed : List (List Nat × Entries Json)) : Prop where
  ordered : (placed.map (·.1)).Pairwise (· < ·)
  mem_iff : ∀ place item, (place, item) ∈ placed ↔
    ∃ i v rest, place = (k + i) :: rest ∧ vs[i]? = some v ∧ LeafAt v rest item

theorem lists_leaf {es : Entries Json} (hleaf : Entries.has es "item" = false) :
    Lists (.object es) [([], es)] where
  ordered := List.pairwise_singleton _ _
  mem_iff place item := by rw [leafAt_leaf_iff hleaf, List.mem_singleton, Prod.mk.injEq]

theorem lists_folder {es : Entries Json} {items : List Json}
    {placed : List (List Nat × Entries Json)} (hfolder : Entries.has es "item" = true)
    (hitems : (Json.valueOf es "item").HasItems items) (h : ListsFrom 0 items placed) :
    Lists (.object es) placed where
  ordered := h.ordered
  mem_iff place item := by
    rw [h.mem_iff, leafAt_folder_iff hfolder hitems]
    simp only [Nat.zero_add]

theorem listsFrom_nil (k : Nat) : ListsFrom k [] [] where
  ordered := .nil
  mem_iff place item := by simp

theorem ListsFrom.cons {k : Nat} {v : Json} {vs : List Json}
    {placed placed' : List (List Nat × Entries Json)} (hv : Lists v placed)
    (hvs : ListsFrom (k + 1) vs placed') :
    ListsFrom k (v :: vs) (placed.map (fun leaf => (k :: leaf.1, leaf.2)) ++ placed') where
  ordered := by
    rw [List.map_append, List.map_map, List.pairwise_append]
    refine ⟨?first, hvs.ordered, ?between⟩
    case first =>
      have h := hv.ordered
      rw [List.pairwise_map] at h ⊢
      exact h.imp fun h => List.cons_lt_cons_iff.mpr (.inr ⟨rfl, h⟩)
    case between =>
      -- the first item has a smaller number than those behind it
      intro place hplace place' hplace'
      obtain ⟨leaf, -, rfl⟩ := List.mem_map.mp hplace
      obtain ⟨leaf', hleaf', rfl⟩ := List.mem_map.mp hplace'
      obtain ⟨i, w, rest, hrest, -⟩ := (hvs.mem_iff leaf'.1 leaf'.2).mp hleaf'
      rw [hrest]
      exact List.cons_lt_cons_iff.mpr (.inl (by omega))
  mem_iff place item := by
    rw [List.mem_append, hvs.mem_iff]
    constructor
    · rintro (hmem | ⟨i, w, rest, rfl, hw, hleaf⟩)
      · obtain ⟨⟨rest, item⟩, hleaf, heq⟩ := List.mem_map.mp hmem
        cases heq
        exact ⟨0, v, rest, rfl, rfl, (hv.mem_iff rest item).mp hleaf⟩
      · exact ⟨i + 1, w, rest, by rw [Nat.add_assoc, Nat.add_comm 1], hw, hleaf⟩
    · rintro ⟨i, w, rest, rfl, hw, hleaf⟩
      cases i with
      | zero =>
          cases hw
          exact .inl (List.mem_map.mpr ⟨(rest, item), (hv.mem_iff rest item).mpr hleaf, rfl⟩)
      | succ i => exact .inr ⟨i, w, rest, by rw [Nat.add_assoc, Nat.add_comm 1], hw, hleaf⟩

/-- Leaves that are grouped stand at places in their order, and no others do. -/
theorem Groups.exists_listsFrom {vs : List Json} {items : List (Entries Json)} (h : Groups vs items)
    (k : Nat) : ∃ placed, ListsFrom k vs placed ∧ placed.map (·.2) = items := by
  -- the items of a folder are numbered anew, and those behind it go on with the next number
  induction h generalizing k with
  | nil => exact ⟨[], listsFrom_nil k, rfl⟩
  | leaf hleaf _ ih =>
      obtain ⟨placed, hplaced, rfl⟩ := ih (k + 1)
      exact ⟨_, .cons (lists_leaf hleaf) hplaced, rfl⟩
  | folder hfolder hinner _ _ ih ih' =>
      obtain ⟨placed, hplaced, rfl⟩ := ih 0
      obtain ⟨placed', hplaced', rfl⟩ := ih' (k + 1)
      refine ⟨_, .cons (lists_folder hfolder hinner hplaced) hplaced', ?_⟩
      rw [List.map_append, List.map_map]
      rfl

/-! ## Regrouping -/

/-- One folder among items is opened: its items stand in its place. -/
inductive Opens : List Json → List Json → Prop
  | intro (before after : List Json) {es : Entries Json} {inner : List Json} :
      Entries.has es "item" = true → (Json.valueOf es "item").HasItems inner →
      Opens (before ++ .object es :: after) (before ++ inner ++ after)

/-- Items come from others by opening folders and by putting items into folders. Folders within
folders are reached through the outer ones. -/
def Regrouped : List Json → List Json → Prop :=
  Relation.EqvGen Opens

/-- Regrouping leaves the leaves. -/
theorem Regrouped.leavesOf_eq {vs vs' : List Json} (h : Regrouped vs vs') :
    leavesOf vs = leavesOf vs' := by
  induction h with
  | rel _ _ h =>
      obtain ⟨before, after, hfolder, hinner⟩ := h
      simp only [leavesOf_eq_flatMap, List.flatMap_append, List.flatMap_cons]
      rw [leaves_folder hfolder hinner, leavesOf_eq_flatMap, List.append_assoc]
  | refl => rfl
  | symm _ _ _ ih => exact ih.symm
  | trans _ _ _ _ _ ih ih' => exact ih.trans ih'

/-- What is regrouped may stand among other items. -/
theorem Regrouped.among {vs vs' : List Json} (h : Regrouped vs vs') (front back : List Json) :
    Regrouped (front ++ vs ++ back) (front ++ vs' ++ back) := by
  induction h with
  | rel _ _ h =>
      obtain ⟨before, after, hfolder, hinner⟩ := h
      refine .rel _ _ ?_
      have hopens := Opens.intro (front ++ before) (after ++ back) hfolder hinner
      simpa only [List.append_assoc, List.cons_append] using hopens
  | refl => exact .refl _
  | symm _ _ _ ih => exact .symm _ _ ih
  | trans _ _ _ _ _ ih ih' => exact .trans _ _ _ ih ih'

/-- All folders can be opened. -/
theorem Groups.regrouped {vs : List Json} {items : List (Entries Json)} (h : Groups vs items) :
    Regrouped vs (items.map .object) := by
  induction h with
  | nil => exact .refl _
  | @leaf es vs items _ _ ih => simpa using ih.among [.object es] []
  | @folder es inner vs items items' hfolder hinner _ _ ih ih' =>
      -- first the folder itself, then what was in it, then the items behind it
      have hopen : Regrouped (.object es :: vs) (inner ++ vs) :=
        .rel _ _ (.intro [] vs hfolder hinner)
      have hinside : Regrouped (inner ++ vs) (items.map .object ++ vs) := by
        simpa using ih.among [] vs
      have hbehind : Regrouped (items.map .object ++ vs) ((items ++ items').map .object) := by
        simpa using ih'.among (items.map .object) []
      exact .trans _ _ _ hopen (.trans _ _ _ hinside hbehind)

/-- Any two groupings of the same leaves are regrouped from one another. -/
theorem regrouped_of_groups {vs vs' : List Json} {items : List (Entries Json)} (h : Groups vs items)
    (h' : Groups vs' items) : Regrouped vs vs' :=
  .trans _ _ _ h.regrouped (.symm _ _ h'.regrouped)

/-! ## Imports -/

theorem hasRequest_iff {item : Entries Json} :
    hasRequest item = true ↔ ∃ request, Json.valueOf item "request" = .object request := by
  rw [hasRequest]
  cases Json.valueOf item "request" <;> simp [Json.object?]

/-- A collection is a folder of its items. -/
theorem exists_folder_of_isCollection {data : Json} (h : isCollection data = true) :
    ∃ es, data = .object es ∧ Entries.has es "item" = true ∧
      (Json.valueOf es "item").HasItems (itemsOf data) := by
  cases data with
  | object es =>
      rw [isCollection, Bool.and_eq_true] at h
      have hlist := h.2
      cases hitems : Json.valueOf es "item" with
      | list items =>
          refine ⟨es, rfl, ?folder, ?items⟩
          case folder =>
            rw [Entries.has_iff_exists_get?, ← Option.isSome_iff_exists]
            by_contra hnone
            rw [Json.valueOf, Option.not_isSome_iff_eq_none.mp hnone] at hitems
            cases hitems
          case items =>
            rw [itemsOf, Json.object?, Option.getD_some, hitems]
            exact .elements rfl
      | _ =>
          rw [hitems] at hlist
          cases hlist
  | _ => cases h

/-- The leaves of a collection in the order of their places. -/
theorem exists_lists_of_isCollection {data : Json} {items : List (Entries Json)}
    (hdata : isCollection data = true) (hleaves : leavesOf (itemsOf data) = items.map .ok) :
    ∃ placed, Lists data placed ∧ placed.map (·.2) = items := by
  obtain ⟨es, rfl, hfolder, hitems⟩ := exists_folder_of_isCollection hdata
  obtain ⟨placed, hplaced, heq⟩ := (groups_of_leavesOf _ _ hleaves).exists_listsFrom 0
  exact ⟨placed, lists_folder hfolder hitems hplaced, heq⟩

/-- **Folders do not matter.** The endpoints of an import are the conversions of the leaves whose
request is an object, one each, in the order of their places. And when items are regrouped, into
folders of any depth, the import succeeds as before, with the same endpoints but for their
identifiers. -/
theorem endpoints_of_importCollection {data environment : Json} {n n' : Nat} {c : Collection}
    (h : (importCollection data environment).run.run n = (.ok c, n')) :
    (∃ placed : List (List Nat × Entries Json), (placed.map (·.1)).Pairwise (· < ·) ∧
      (∀ place item, (place, item) ∈ placed ↔
        LeafAt data place item ∧ ∃ request, Json.valueOf item "request" = .object request) ∧
      List.Forall₂ (fun leaf e => Converts environment leaf.2 e) placed c.endpoints) ∧
    ∀ data', isCollection data' = true → Regrouped (itemsOf data) (itemsOf data') → ∀ m, ∃ c' m',
      (importCollection data' environment).run.run m = (.ok c', m') ∧
        c'.endpoints.map anonymous = c.endpoints.map anonymous := by
  obtain ⟨hdata, items, hleaves, hconverts⟩ := exists_items_of_importCollection h
  refine ⟨?leaves, ?regrouped⟩
  case leaves =>
    obtain ⟨placed, hplaced, rfl⟩ := exists_lists_of_isCollection hdata hleaves
    refine ⟨placed.filter fun leaf => hasRequest leaf.2, ?ordered, ?complete, ?converted⟩
    case ordered => exact hplaced.ordered.sublist (List.filter_sublist.map _)
    case complete =>
      intro place item
      rw [List.mem_filter, hplaced.mem_iff, hasRequest_iff]
    case converted =>
      rw [List.filter_map, List.forall₂_map_left_iff] at hconverts
      exact hconverts
  case regrouped =>
    intro data' hdata' hregrouped m
    obtain ⟨c', m', hrun, halike⟩ :=
      importCollection_follows environment hdata' hregrouped.leavesOf_eq n n' c h m
    exact ⟨c', m', hrun, halike.symm⟩

/-- An item with a request for a path. -/
def itemFor (path : String) : Json :=
  .object [("name", .str path), ("request", .object [("url", .str path)])]

/-- A folder, which has a request of its own. -/
def folderOf (items : Json) : Json :=
  .object [("request", .object [("url", .str "/folder")]), ("item", items)]

/-- An item without a request. -/
def note : Json :=
  .object [("name", .str "Note")]

/-- Leaves at several depths, between folders without items. -/
def nested : Json :=
  collectionOf [
    folderOf (.list [itemFor "/a", folderOf .null, folderOf (.list [note, itemFor "/b"])]),
    itemFor "/c"]

/-- The same leaves in other folders. -/
def regrouped : Json :=
  collectionOf [itemFor "/a", folderOf (.list [folderOf (.list [note])]), folderOf (.list []),
    folderOf (.list [itemFor "/b", itemFor "/c"])]

/-- The second leaf with a request is found where it is, and regrouping the leaves changes nothing. -/
theorem endpoints_of_importCollection_nested :
    ∃ c n', (importCollection nested .null).run.run 0 = (.ok c, n') ∧
      c.endpoints.map (·.path) = [.str "/a", .str "/b", .str "/c"] ∧
      (∃ placed : List (List Nat × Entries Json), placed.length = 3 ∧
        ([0, 2, 1], (itemFor "/b").object?.getD []) ∈ placed ∧
        List.Forall₂ (fun leaf e => Converts .null leaf.2 e) placed c.endpoints) ∧
      ∃ c' m', (importCollection regrouped .null).run.run 7 = (.ok c', m') ∧
        c'.endpoints.map anonymous = c.endpoints.map anonymous := by
  have hpasses : Steps.passes ((importCollection nested .null).run.run 0) (fun c _ =>
      c.endpoints.map (·.path) == [.str "/a", .str "/b", .str "/c"]) = true := by
    decide +kernel
  obtain ⟨c, n', h, hcheck⟩ := Steps.exists_of_passes hpasses
  have hpaths : c.endpoints.map (·.path) = [.str "/a", .str "/b", .str "/c"] := eq_of_beq hcheck
  have hgroups : ∀ data, leavesOf (itemsOf data) = leavesOf (itemsOf nested) →
      Groups (itemsOf data) (([itemFor "/a", note, itemFor "/b", itemFor "/c"].map
        fun item => item.object?.getD [])) :=
    fun data hleaves => groups_of_leavesOf _ _ (hleaves.trans rfl)
  obtain ⟨placed, -, hcomplete, hconverts⟩ := (endpoints_of_importCollection h).1
  refine ⟨c, n', h, hpaths, ⟨placed, ?_, (hcomplete _ _).mpr ⟨⟨?_, rfl⟩, _, rfl⟩, hconverts⟩, ?_⟩
  · rw [hconverts.length_eq, ← List.length_map (·.path), hpaths]
    rfl
  · exact .inside rfl (.elements rfl) rfl (.inside rfl (.elements rfl) rfl
      (.inside rfl (.elements rfl) rfl (.here _)))
  · exact (endpoints_of_importCollection h).2 regrouped (by decide +kernel)
      (regrouped_of_groups (hgroups nested rfl) (hgroups regrouped rfl)) 7

end DtoForge.Postman
