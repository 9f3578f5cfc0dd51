import DtoForge.Proofs.Extraction.Tracking
import DtoForge.Proofs.Text.Utf8

/-! # Refinement — one body gives what its outline says

The objects of a document, and those of a run over one body, are the definitions of the outline of
its root. -/

namespace DtoForge.Extraction

/-! ## Roots -/

/-- The root of an example object. -/
def rootOf (source : ObjectSource) (base : String) (entries : Entries Json) : Occurrence where
  source := source
  base := base
  properties := Schema.inferAll entries
  required := Schema.requiredNames entries

theorem schema_rootOf (source : ObjectSource) (base : String) (entries : Entries Json) :
    (rootOf source base entries).schema = Schema.infer (.object entries) := rfl

/-- A body that is an object is read as its root. -/
theorem readBody_object {e : Endpoint} {role : Role} {body path : RawText} {entries : Entries Json}
    (hbody : e.bodyFor role = .str body) (hblank : Unicode.isBlankText body.legible = false)
    (hread : Json.read body = .ok (.object entries)) (hpath : e.path = .str path) :
    readBody e role = .ok (.object (rootOf
      { endpointId := e.id, path := path.legible, method := e.method, role }
      (Naming.pathTypeName path.legible) entries)) := by
  simp only [readBody, hbody, hblank, hread, hpath, Schema.infer]
  rfl

/-! ## A body with twins -/

/-- Entries that hold two objects of one property each. -/
def twins (first second : RawText) : Entries Json :=
  [("a", .object [(first, .null)]), ("b", .list [.object [(second, .null)]])]

/-- Where the entries are found. -/
def twinSource : ObjectSource where
  endpointId := "inline"
  path := "/order"
  method := "GET"
  role := .response

/-- The root of the entries. -/
def twinRoot (first second : RawText) : Occurrence :=
  rootOf twinSource "Order" (twins first second)

/-- One of the two objects. -/
def twin (base : String) (name : RawText) : Occurrence where
  source := twinSource
  base := base
  properties := [(name, .leaf .null none)]
  required := []

theorem preorder_twinRoot (first second : RawText) : (twinRoot first second).preorder =
    [twinRoot first second, twin (nestedBase "a" false) first,
      twin (nestedBase "b" true) second] := rfl

/-- The canonical text of an object whose property is written like this. -/
def twinText (written : String) : String :=
  "\x7b\"properties\": \x7b" ++ written ++
    ": \x7b\"type\": \"null\"\x7d\x7d, \"required\": [], \"type\": \"object\"\x7d"

/-- The canonical text of the root of twins whose properties are written like this. -/
def twinRootText (written : String) : String :=
  "\x7b\"properties\": \x7b\"a\": " ++ twinText written ++ ", \"b\": \x7b\"items\": " ++
    twinText written ++
      ", \"type\": \"array\"\x7d\x7d, \"required\": [\"a\", \"b\"], \"type\": \"object\"\x7d"

theorem canonicalText_twin (base : String) (name : RawText) :
    (twin base name).schema.canonicalText = twinText (Json.writeText true name) := by
  have hkind : (Json.writeText true (SchemaKind.leaf .null).word).toList =
      ['"', 'n', 'u', 'l', 'l', '"'] := by decide +kernel
  have hrequired : Schema.requiredTexts [] = [] := by decide +kernel
  apply String.toList_inj.mp
  show Schema.text (.object [(name, .leaf .null none)] [] none) = _
  rw [Schema.text_object, Schema.entryTexts_of_sorted (List.pairwise_singleton _ _),
    List.map_singleton, Schema.toList_entryText, Schema.text_leaf, hkind, hrequired]
  -- the literals are opened by their characters, so that none has to be decoded
  delta twinText
  rw [String.toList_append, String.toList_append]
  generalize (Json.writeText true name).toList = written
  repeat rw [String.toList_ofList]
  simp [Json.joined]

/-- Of two objects with one key below a root, the second is not kept. -/
theorem exists_outline_of_key_eq {root first second : Occurrence}
    (hpreorder : root.preorder = [root, first, second]) (hkey : second.key = first.key) :
    ∃ rest, outline [root] = root :: rest ∧ ∀ o ∈ rest, o = first := by
  rw [outline, List.flatMap_singleton, hpreorder, firstOfEach]
  by_cases hfirst : first.key = root.key
  · exact ⟨[], by simp [keepFirst, hkey, hfirst], List.forall_mem_nil _⟩
  · exact ⟨[first], by simp [keepFirst, hkey, hfirst], by simp⟩

section Twins

variable {first second : RawText}
  (hwritten : Json.writeText true second = Json.writeText true first)

include hwritten

theorem canonicalText_twinRoot : (twinRoot first second).schema.canonicalText =
    twinRootText (Json.writeText true first) := by
  have hsorted : (Schema.inferAll (twins first second)).Pairwise fun p q => p.1 ≤ q.1 := by
    have horder : RawText.whole "a" ≤ "b" := by decide
    simpa [twins, Schema.inferAll] using horder
  have hnames : ∀ name : RawText, Schema.requiredNames [(name, .null)] = [] := fun _ => rfl
  have hrequired : Schema.requiredTexts (twinRoot first second).required =
      [['"', 'a', '"'], ['"', 'b', '"']] := by
    show Schema.requiredTexts [.str "a", .str "b"] = _
    decide +kernel
  have hfirst : (Json.writeText true "a").toList = ['"', 'a', '"'] := by decide +kernel
  have hsecond : (Json.writeText true "b").toList = ['"', 'b', '"'] := by decide +kernel
  have htwin : ∀ name : RawText, Schema.text (.object [(name, .leaf .null none)] [] none) =
      (twinText (Json.writeText true name)).toList :=
    fun name => congrArg String.toList (canonicalText_twin "" name)
  apply String.toList_inj.mp
  show Schema.text (.object (Schema.inferAll (twins first second)) _ _) = _
  rw [Schema.text_object, Schema.entryTexts_of_sorted hsorted, hrequired]
  delta twinRootText
  simp only [twins, Schema.inferAll, Schema.infer, List.map, Schema.toList_entryText,
    Schema.text_array, hnames, htwin, hwritten, hfirst, hsecond, String.toList_append]
  -- the twins stand where they do whatever they are
  generalize (twinText (Json.writeText true first)).toList = twin
  repeat rw [String.toList_ofList]
  simp [Json.joined]

theorem involved_twinRoot : involved [twinRoot first second] =
    [twinRootText (Json.writeText true first), twinText (Json.writeText true first),
      twinText (Json.writeText true first)] := by
  rw [involved, List.flatMap_singleton, preorder_twinRoot]
  simp only [List.map_cons, List.map_nil, canonicalText_twin, canonicalText_twinRoot hwritten,
    hwritten]

/-- Twins are free of collisions if their digest is not that of their root. -/
theorem collisionFree_twinRoot
    (hdigests : Digest.sha1Text (twinRootText (Json.writeText true first)) ≠
      Digest.sha1Text (twinText (Json.writeText true first))) :
    CollisionFree (involved [twinRoot first second]) := by
  rw [involved_twinRoot hwritten]
  intro s hs t ht hst
  simp only [List.mem_cons, List.not_mem_nil, or_false, or_self] at hs ht
  rcases hs with rfl | rfl <;> rcases ht with rfl | rfl
  · rfl
  · exact absurd hst hdigests
  · exact absurd hst.symm hdigests
  · rfl

theorem key_twin_eq : (twin (nestedBase "b" true) second).key =
    (twin (nestedBase "a" false) first).key := by
  have htext : (twin (nestedBase "b" true) second).schema.canonicalText =
      (twin (nestedBase "a" false) first).schema.canonicalText := by
    rw [canonicalText_twin, canonicalText_twin, hwritten]
  exact Occurrence.key_eq_of_text_eq (congrArg String.toList htext) rfl rfl

end Twins

/-- Twins whose property has a letter for its name. -/
theorem collisionFree_twins : CollisionFree (involved [twinRoot "x" "x"]) := by
  have hwritten : Json.writeText true "x" = "\"x\"" := by decide
  apply collisionFree_twinRoot rfl
  rw [hwritten]
  simp only [Digest.sha1Text, Text.toList_toUTF8]
  delta twinRootText twinText
  simp only [String.toList_append]
  repeat rw [String.toList_ofList]
  decide +kernel

/-- An endpoint that answers with a body. -/
def answering (body : RawText) : Endpoint where
  id := "inline"
  path := .str "/order"
  response := { body := .str body }

theorem pathTypeName_order : Naming.pathTypeName "/order" = "Order" := by
  decide +kernel

theorem rootsOf_answering {body first second : RawText}
    (hblank : Unicode.isBlankText body.legible = false)
    (hread : Json.read body = .ok (.object (twins first second))) :
    rootsOf (wantedBodies [answering body] [.response]) = [twinRoot first second] := by
  have hroot : readBody (answering body) .response = .ok (.object (twinRoot first second)) := by
    rw [readBody_object rfl hblank hread rfl, RawText.legible_whole, pathTypeName_order]
    rfl
  show rootsOf [(answering body, .response)] = _
  rw [rootsOf, hroot]
  rfl

/-- An endpoint that answers with twins. -/
def twinEndpoint : Endpoint :=
  answering "\x7b\"a\": \x7b\"x\": null\x7d, \"b\": [\x7b\"x\": null\x7d]\x7d"

theorem read_twins :
    Json.read (.whole "\x7b\"a\": \x7b\"x\": null\x7d, \"b\": [\x7b\"x\": null\x7d]\x7d") =
      .ok (.object (twins "x" "x")) := by
  decide +kernel

theorem isBlankText_twins :
    Unicode.isBlankText (RawText.legible
      (.whole "\x7b\"a\": \x7b\"x\": null\x7d, \"b\": [\x7b\"x\": null\x7d]\x7d")) = false := by
  decide +kernel

/-! ## One body -/

/-- **Extracting one object gives what its outline defines.** Every place is filled, and as many
identifiers are given out and structures remembered as there are objects. The objects of a document
and those of a run over one body are these. -/
theorem extract_eq_definitions (source : ObjectSource) (base : String) (entries : Entries Json)
    (hfree : CollisionFree (involved [rootOf source base entries])) :
    let root := rootOf source base entries
    let table := (root.extract {}).table
    table.places = (definitions (outline [root])).map some ∧
      table.counter = table.objects.length ∧ table.seen.length = table.objects.length ∧
      (∀ name role,
        source = { endpointId := "inline", path := "/" ++ name, method := "GET", role } →
        base = Naming.orElse (Naming.pascal name) "Root" →
        ofValue (.object entries) name role = definitions (outline [root])) ∧
      ∀ (e : Endpoint) body, e.bodyFor source.role = .str body →
        Unicode.isBlankText body.legible = false → Json.read body = .ok (.object entries) →
        e.path = .str source.path → source.endpointId = e.id → source.method = e.method →
        base = Naming.pathTypeName source.path →
        (run [e] [source.role]).1 = .ok () ∧
          (run [e] [source.role]).2.objects = definitions (outline [root]) := by
  intro root table
  have hnamed : ∀ o ∈ [root], o.schema.Named := by
    intro o ho
    rw [List.mem_singleton.mp ho, schema_rootOf]
    exact Schema.infer_named _
  have h : Tracks table (outline [root]) [] :=
    extractAll_empty_tracks (separated_of_collisionFree hfree hnamed)
  have hobjects : table.objects = definitions (outline [root]) := h.objects_eq
  have hlength : table.objects.length = (outline [root]).length := by
    rw [hobjects, definitions, List.length_mapIdx]
  refine ⟨h.places_eq, ?_, ?_, ?_, ?_⟩
  · rw [h.counter, hlength]
  · have hseen := h.seen
    rw [hlength]
    simpa using hseen
  · intro name role hsource hbase
    rw [← hobjects]
    simp only [ofValue, Schema.infer, ← hsource, ← hbase]
    rfl
  · intro e body hbody hblank hread hpath hid hmethod hbase
    have hwanted : wantedBodies [e] [source.role] = [(e, source.role)] := by
      cases source.role <;> rfl
    have hroot : readBody e source.role = .ok (.object root) := by
      rw [readBody_object hbody hblank hread hpath, RawText.legible_whole, ← hid, ← hmethod,
        ← hbase]
    have hbodies : readBodies [(e, source.role)] {} = (.ok (), Run.take {} (.object root)) := by
      rw [readBodies, hroot]
      rfl
    rw [run, hwanted, hbodies]
    exact ⟨rfl, hobjects⟩

theorem extract_eq_definitions_twins :
    CollisionFree (involved [twinRoot "x" "x"]) ∧
      ofValue (.object (twins "x" "x")) "order" .response =
        definitions (outline [twinRoot "x" "x"]) ∧
      (run [twinEndpoint] [.response]).1 = .ok () ∧
      (run [twinEndpoint] [.response]).2.objects = definitions (outline [twinRoot "x" "x"]) := by
  obtain ⟨-, -, -, hvalue, hrun⟩ :=
    extract_eq_definitions (twinRoot "x" "x").source "Order" (twins "x" "x") collisionFree_twins
  have hbase : "Order" = Naming.orElse (Naming.pascal "order") "Root" := by decide +kernel
  have hobjects := hrun twinEndpoint _ rfl isBlankText_twins read_twins rfl rfl rfl
    pathTypeName_order.symm
  exact ⟨collisionFree_twins, hvalue "order" .response rfl hbase, hobjects⟩

end DtoForge.Extraction
