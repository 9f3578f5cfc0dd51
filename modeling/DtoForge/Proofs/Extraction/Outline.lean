import Mathlib.Data.List.Basic
import DtoForge.Proofs.Extraction.Walk
import DtoForge.Proofs.Schema.CanonicalText

/-! # Outline — what extraction is to give, read off the schemas

The outline of a body lists the objects in it in pre-order and keeps the first of each structure.
The kept occurrences, numbered in order, are the objects to be defined: a property that would be
hoisted refers to the kept occurrence of its structure. Nothing here is hoisted, reserved or
remembered; that extraction does the same is shown in `Tracking`. -/

namespace DtoForge.Extraction

/-! ## Pre-order -/

mutual

/-- The objects below a schema, or below the items of an array, in pre-order. -/
def below (source : ObjectSource) : Schema → List Occurrence
  | .object ps _ _ => belowAll source ps
  | .array items _ => below source items
  | .leaf .. => []

/-- The objects in properties in pre-order. -/
def belowAll (source : ObjectSource) : List (RawText × Schema) → List Occurrence
  | [] => []
  | (name, s) :: ps =>
    (match Occurrence.under? source name s with
      | some o => o :: below source s
      | none => []) ++ belowAll source ps

end

namespace Occurrence

/-- The objects below an object in pre-order. -/
def below (o : Occurrence) : List Occurrence :=
  belowAll o.source o.properties

/-- An object and those below it in pre-order. -/
def preorder (o : Occurrence) : List Occurrence :=
  o :: o.below

/-- The name of the definition of an object. -/
def name (o : Occurrence) : String :=
  objectName o.base o.source.role

end Occurrence

/-! ## First occurrences -/

/-- Keeps an occurrence unless one of its structure is kept. -/
def keepFirst (kept : List Occurrence) (o : Occurrence) : List Occurrence :=
  if o.key ∈ kept.map Occurrence.key then kept else kept ++ [o]

/-- The first occurrence of each structure, in order. -/
def firstOfEach (os : List Occurrence) : List Occurrence :=
  os.foldl keepFirst []

/-! ## Definitions -/

/-- The place of the first kept occurrence of a structure. -/
def placeOf (kept : List Occurrence) (key : SeenKey) : Nat :=
  (kept.map Occurrence.key).idxOf key

/-- The identifier of the definition of a structure. -/
def idOf (kept : List Occurrence) (key : SeenKey) : String :=
  objectId key (placeOf kept key)

/-- The name of the definition of a structure. -/
def nameOf (kept : List Occurrence) (key : SeenKey) : String :=
  (kept[placeOf kept key]?.map Occurrence.name).getD ""

/-- A property that refers to the definition of its structure, if it is one to be hoisted. -/
def linked (kept : List Occurrence) (source : ObjectSource) (p : RawText × Schema) :
    RawText × Schema :=
  match Occurrence.under? source p.1 p.2 with
  | some o => (p.1, referTo (nameOf kept o.key) p.2)
  | none => p

/-- The structures that properties refer to, in order. -/
def targets (source : ObjectSource) (ps : List (RawText × Schema)) : List SeenKey :=
  ps.filterMap fun p => (Occurrence.under? source p.1 p.2).map Occurrence.key

/-- The definition of an occurrence that is kept at a place. -/
def Occurrence.define (kept : List Occurrence) (place : Nat) (o : Occurrence) :
    ObjectDefinition where
  id := objectId o.key place
  name := o.name
  schema := .object (o.properties.map (linked kept o.source)) o.required none
  source := o.source
  dependencies := ((targets o.source o.properties).map (idOf kept)).eraseDups

/-- The definitions of the kept occurrences. -/
def definitions (kept : List Occurrence) : List ObjectDefinition :=
  kept.mapIdx fun place o => o.define kept place

/-- The occurrences of which the objects of some roots are made. -/
def outline (roots : List Occurrence) : List Occurrence :=
  firstOfEach (roots.flatMap Occurrence.preorder)

section Property

variable {kept : List Occurrence} {source : ObjectSource} {p : RawText × Schema} {o : Occurrence}

theorem linked_of_some (h : Occurrence.under? source p.1 p.2 = some o) :
    linked kept source p = (p.1, referTo (nameOf kept o.key) p.2) := by
  rw [linked, h]

theorem linked_of_none (h : Occurrence.under? source p.1 p.2 = none) :
    linked kept source p = p := by
  rw [linked, h]

theorem targets_cons_of_some (h : Occurrence.under? source p.1 p.2 = some o)
    (ps : List (RawText × Schema)) : targets source (p :: ps) = o.key :: targets source ps := by
  simp [targets, h]

theorem targets_cons_of_none (h : Occurrence.under? source p.1 p.2 = none)
    (ps : List (RawText × Schema)) : targets source (p :: ps) = targets source ps := by
  simp [targets, h]

end Property

/-! ## Below an object -/

theorem below_of_under? {source : ObjectSource} {name : RawText} {s : Schema} {o : Occurrence}
    (h : Occurrence.under? source name s = some o) : below source s = o.below := by
  obtain ⟨hsource, -, ⟨ref, rfl, -⟩ | ⟨ref, ref', rfl, -⟩⟩ := Occurrence.under?_eq_some h
  all_goals simp only [below, Occurrence.below, hsource]

theorem belowAll_cons_of_some {source : ObjectSource} {p : RawText × Schema} {o : Occurrence}
    (h : Occurrence.under? source p.1 p.2 = some o) (ps : List (RawText × Schema)) :
    belowAll source (p :: ps) = o.preorder ++ belowAll source ps := by
  rw [belowAll, h]
  simp only [below_of_under? h, Occurrence.preorder]

theorem belowAll_cons_of_none {source : ObjectSource} {p : RawText × Schema}
    (h : Occurrence.under? source p.1 p.2 = none) (ps : List (RawText × Schema)) :
    belowAll source (p :: ps) = belowAll source ps := by
  rw [belowAll, h]
  rfl

/-- An object is below properties: one of them hoists it, or hoists an object that it is below. -/
inductive Below (source : ObjectSource) : List (RawText × Schema) → Occurrence → Prop
  | here {ps p o} : p ∈ ps → Occurrence.under? source p.1 p.2 = some o → Below source ps o
  | deeper {ps p o x} : p ∈ ps → Occurrence.under? source p.1 p.2 = some o →
      Below source o.properties x → Below source ps x

theorem mem_belowAll {source : ObjectSource} {ps : List (RawText × Schema)} {x : Occurrence} :
    x ∈ belowAll source ps ↔ Below source ps x := by
  induction hn : sizeOf ps using Nat.strongRecOn generalizing ps with
  | _ n ih =>
      subst hn
      -- an object that a property hoists is smaller than the properties
      have hbelow : ∀ {p o}, p ∈ ps → Occurrence.under? source p.1 p.2 = some o →
          (x ∈ o.below ↔ Below source o.properties x) := by
        intro p o hp ho
        have hsize := List.sizeOf_lt_of_mem hp
        have hsmaller := Occurrence.sizeOf_of_under? ho
        obtain ⟨name, s⟩ := p
        simp only [Prod.mk.sizeOf_spec] at hsize hsmaller
        rw [Occurrence.below, (Occurrence.under?_eq_some ho).1]
        exact ih (sizeOf o.properties) (by omega) rfl
      have hmem : ∀ qs : List (RawText × Schema), x ∈ belowAll source qs ↔
          ∃ p ∈ qs, ∃ o, Occurrence.under? source p.1 p.2 = some o ∧ (x = o ∨ x ∈ o.below) := by
        intro qs
        induction qs with
        | nil => simp [belowAll]
        | cons q qs ihqs =>
            cases ho : Occurrence.under? source q.1 q.2 with
            | none => simp [belowAll_cons_of_none ho, ihqs, ho]
            | some o => simp [belowAll_cons_of_some ho, ihqs, ho, Occurrence.preorder, or_assoc]
      rw [hmem]
      constructor
      · rintro ⟨p, hp, o, ho, rfl | hx⟩
        · exact Below.here hp ho
        · exact Below.deeper hp ho ((hbelow hp ho).mp hx)
      · rintro (⟨hp, ho⟩ | ⟨hp, ho, hx⟩)
        · exact ⟨_, hp, x, ho, Or.inl rfl⟩
        · exact ⟨_, hp, _, ho, Or.inr ((hbelow hp ho).mpr hx)⟩

theorem Below.source_eq {source : ObjectSource} {ps : List (RawText × Schema)} {x : Occurrence}
    (h : Below source ps x) : x.source = source := by
  induction h with
  | here _ ho => exact (Occurrence.under?_eq_some ho).1
  | deeper _ _ _ ih => exact ih

theorem Below.trans {source : ObjectSource} {ps : List (RawText × Schema)} {o x : Occurrence}
    (h : Below source ps o) (hx : Below source o.properties x) : Below source ps x := by
  induction h with
  | here hp ho => exact Below.deeper hp ho hx
  | deeper hp ho _ ih => exact Below.deeper hp ho (ih hx)

theorem below_subset_preorder {root o : Occurrence} (h : o ∈ root.preorder) :
    o.below ⊆ root.preorder := by
  intro x hx
  rcases List.mem_cons.mp h with rfl | h
  · exact List.mem_cons_of_mem _ hx
  · have ho := mem_belowAll.mp h
    have hx := mem_belowAll.mp hx
    rw [ho.source_eq] at hx
    exact List.mem_cons_of_mem _ (mem_belowAll.mpr (ho.trans hx))

section Everywhere

variable {holds : Schema → Prop}
  (href : ∀ ps required ref, holds (.object ps required ref) → holds (.object ps required none))

include href

/-- What holds everywhere in a property, whatever it refers to, holds everywhere in the object
that it hoists. -/
theorem Occurrence.everywhere_of_under? {source : ObjectSource} {name : RawText} {s : Schema}
    {o : Occurrence} (ho : Occurrence.under? source name s = some o) (hs : s.Everywhere holds) :
    o.schema.Everywhere holds := by
  obtain ⟨-, -, ⟨ref, rfl, -⟩ | ⟨ref, ref', rfl, -⟩⟩ := Occurrence.under?_eq_some ho
  · exact ⟨href _ _ _ hs.1, hs.2⟩
  · exact ⟨href _ _ _ hs.2.1, hs.2.2⟩

/-- What holds everywhere in properties, whatever they refer to, holds everywhere in the objects
below. -/
theorem Below.everywhere {source : ObjectSource} {ps : List (RawText × Schema)} {x : Occurrence}
    (h : Below source ps x) (hps : ∀ p ∈ ps, p.2.Everywhere holds) :
    x.schema.Everywhere holds := by
  induction h with
  | here hp ho => exact Occurrence.everywhere_of_under? href ho (hps _ hp)
  | deeper hp ho _ ih =>
      have ho := Occurrence.everywhere_of_under? href ho (hps _ hp)
      exact ih (Schema.everywhere_object_iff.mp ho).2

/-- What holds everywhere in a root, whatever it refers to, holds everywhere in the objects of its
body. -/
theorem everywhere_of_mem_preorder {root o : Occurrence} (ho : o ∈ root.preorder)
    (hroot : root.schema.Everywhere holds) : o.schema.Everywhere holds := by
  rcases List.mem_cons.mp ho with rfl | ho
  · exact hroot
  · exact (mem_belowAll.mp ho).everywhere href (Schema.everywhere_object_iff.mp hroot).2

end Everywhere

theorem Occurrence.length_text_le_of_under? {source : ObjectSource} {name : RawText} {s : Schema}
    {o : Occurrence} (ho : Occurrence.under? source name s = some o) :
    o.schema.text.length ≤ s.text.length := by
  obtain ⟨-, -, ⟨ref, rfl, -⟩ | ⟨ref, ref', rfl, -⟩⟩ := Occurrence.under?_eq_some ho
  · rw [Schema.text_object_ref _ _ ref none]
    exact Nat.le_refl _
  · have hlt := Schema.length_text_lt_array (.object o.properties o.required ref) ref'
    rw [Schema.text_object_ref _ _ ref none] at hlt
    exact Nat.le_of_lt hlt

/-- The text of an object is longer than that of every object below it. -/
theorem Below.length_text_lt {source : ObjectSource} {ps : List (RawText × Schema)}
    {x : Occurrence} (h : Below source ps x) (required : List Json) (ref : Option Json) :
    x.schema.text.length < (Schema.text (.object ps required ref)).length := by
  induction h generalizing required ref with
  | here hp ho =>
      exact Nat.lt_of_le_of_lt (Occurrence.length_text_le_of_under? ho)
        (Schema.length_text_lt_object required ref hp)
  | @deeper ps p o x hp ho _ ih =>
      have hle := Occurrence.length_text_le_of_under? ho
      have hlt := Schema.length_text_lt_object required ref hp
      have hx := ih o.required none
      rw [Occurrence.schema] at hle
      omega

/-! ## Objects of one text -/

theorem Occurrence.key_eq_of_text_eq {o o' : Occurrence} (htext : o.schema.text = o'.schema.text)
    (hendpoint : o.source.endpointId = o'.source.endpointId)
    (hrole : o.source.role = o'.source.role) : o.key = o'.key := by
  have hcanonical : o.schema.canonicalText = o'.schema.canonicalText := String.toList_inj.mp htext
  rw [Occurrence.key, Occurrence.key, Schema.fingerprint, Schema.fingerprint, hcanonical, hendpoint,
    hrole]

/-- Names are required as texts in an object whatever it refers to. -/
theorem named_ref (ps : List (RawText × Schema)) (required : List Json) (ref : Option Json)
    (h : ∀ v ∈ (Schema.object ps required ref).required, ∃ name, v = .str name) :
    ∀ v ∈ (Schema.object ps required none).required, ∃ name, v = .str name :=
  h

/-- A schema of the text of an object with properties is one. -/
theorem exists_cons_of_text_eq {ps : List (RawText × Schema)} {required : List Json}
    {ref : Option Json} {t : Schema} (hne : ps ≠ [])
    (hs : Schema.Named (.object ps required ref)) (ht : t.Named)
    (h : Schema.text (.object ps required ref) = t.text) :
    ∃ q qs required' ref', t = .object (q :: qs) required' ref' := by
  obtain ⟨qs, required', ref', rfl⟩ := Schema.exists_object_of_text_eq h
  obtain ⟨p, hp⟩ := List.exists_mem_of_ne_nil _ hne
  obtain ⟨q, hq, -⟩ := Schema.properties_of_text_eq hs ht h p hp
  obtain ⟨q', qs', rfl⟩ := List.exists_cons_of_ne_nil (List.ne_nil_of_mem hq)
  exact ⟨q', qs', required', ref', rfl⟩

/-- Properties of one text hoist objects of one text. -/
theorem Occurrence.under?_of_text_eq {source : ObjectSource} (source' : ObjectSource)
    {name : RawText} (name' : RawText) {s t : Schema} {o : Occurrence} (hs : s.Named) (ht : t.Named)
    (h : s.text = t.text) (ho : Occurrence.under? source name s = some o) :
    ∃ o', Occurrence.under? source' name' t = some o' ∧ o.schema.text = o'.schema.text := by
  obtain ⟨-, hne, ⟨ref, rfl, -⟩ | ⟨ref, ref', rfl, -⟩⟩ := Occurrence.under?_eq_some ho
  · obtain ⟨q, qs, required', ref', rfl⟩ := exists_cons_of_text_eq hne hs ht h
    rw [Schema.text_object_ref _ _ ref none, Schema.text_object_ref _ _ ref' none] at h
    exact ⟨_, rfl, h⟩
  · obtain ⟨items, ref'', rfl⟩ := Schema.exists_array_of_text_eq h
    have hitems := Schema.items_of_text_eq h
    obtain ⟨q, qs, required', ref', rfl⟩ := exists_cons_of_text_eq hne hs.2 ht.2 hitems
    rw [Schema.text_object_ref _ _ ref none, Schema.text_object_ref _ _ ref' none] at hitems
    exact ⟨_, rfl, hitems⟩

/-- Below objects of one text stand the same structures. -/
theorem Below.exists_of_text_eq {source source' : ObjectSource}
    {ps qs : List (RawText × Schema)} {required required' : List Json} {ref ref' : Option Json}
    {x : Occurrence} (h : Below source ps x) (hs : Schema.Named (.object ps required ref))
    (ht : Schema.Named (.object qs required' ref'))
    (htext : Schema.text (.object ps required ref) = Schema.text (.object qs required' ref'))
    (hendpoint : source.endpointId = source'.endpointId) (hrole : source.role = source'.role) :
    ∃ y, Below source' qs y ∧ x.key = y.key := by
  induction h generalizing qs required required' ref ref' with
  | @here ps p x hp ho =>
      -- the property of that name on the other side has the same text
      obtain ⟨q, hq, -, hpq⟩ := Schema.properties_of_text_eq hs ht htext _ hp
      have hps := (Schema.everywhere_object_iff.mp hs).2 _ hp
      have hqs := (Schema.everywhere_object_iff.mp ht).2 _ hq
      obtain ⟨y, hy, hxy⟩ := Occurrence.under?_of_text_eq source' q.1 hps hqs hpq ho
      have hx := (Occurrence.under?_eq_some ho).1
      have hy' := (Occurrence.under?_eq_some hy).1
      exact ⟨y, Below.here hq hy, Occurrence.key_eq_of_text_eq hxy (by rw [hx, hy', hendpoint])
        (by rw [hx, hy', hrole])⟩
  | @deeper ps p o x hp ho _ ih =>
      obtain ⟨q, hq, -, hpq⟩ := Schema.properties_of_text_eq hs ht htext _ hp
      have hps := (Schema.everywhere_object_iff.mp hs).2 _ hp
      have hqs := (Schema.everywhere_object_iff.mp ht).2 _ hq
      obtain ⟨o', ho', hschema⟩ := Occurrence.under?_of_text_eq source' q.1 hps hqs hpq ho
      obtain ⟨y, hy, hkey⟩ := ih (Occurrence.everywhere_of_under? named_ref ho hps)
        (Occurrence.everywhere_of_under? named_ref ho' hqs) hschema
      exact ⟨y, Below.deeper hq ho' hy, hkey⟩

/-! ## Keeping first occurrences -/

section Keep

variable {kept : List Occurrence} {o : Occurrence}

theorem keepFirst_of_mem (h : o.key ∈ kept.map Occurrence.key) : keepFirst kept o = kept :=
  if_pos h

theorem keepFirst_of_not_mem (h : o.key ∉ kept.map Occurrence.key) :
    keepFirst kept o = kept ++ [o] :=
  if_neg h

theorem foldl_keepFirst_of_forall_mem {os : List Occurrence}
    (h : ∀ o ∈ os, o.key ∈ kept.map Occurrence.key) : os.foldl keepFirst kept = kept := by
  induction os with
  | nil => rfl
  | cons o os ih =>
      obtain ⟨ho, hos⟩ := List.forall_mem_cons.mp h
      rw [List.foldl_cons, keepFirst_of_mem ho, ih hos]

/-- What is kept more of occurrences are some of them, with structures not kept before; and in
the end every structure is kept. -/
theorem foldl_keepFirst (os kept : List Occurrence) :
    ∃ new, os.foldl keepFirst kept = kept ++ new ∧ new ⊆ os ∧
      (∀ o ∈ new, o.key ∉ kept.map Occurrence.key) ∧
      ∀ o ∈ os, o.key ∈ (kept ++ new).map Occurrence.key := by
  induction os generalizing kept with
  | nil => exact ⟨[], by simp⟩
  | cons o os ih =>
      by_cases ho : o.key ∈ kept.map Occurrence.key
      · obtain ⟨new, hnew, hsub, hfresh, hall⟩ := ih kept
        refine ⟨new, by rw [List.foldl_cons, keepFirst_of_mem ho, hnew],
          List.subset_cons_of_subset _ hsub, hfresh, ?_⟩
        refine List.forall_mem_cons.mpr ⟨?_, hall⟩
        rw [List.map_append]
        exact List.mem_append_left _ ho
      · obtain ⟨new, hnew, hsub, hfresh, hall⟩ := ih (kept ++ [o])
        refine ⟨o :: new, by rw [List.foldl_cons, keepFirst_of_not_mem ho, hnew]; simp,
          List.cons_subset_cons o hsub, ?_, ?_⟩
        · refine List.forall_mem_cons.mpr ⟨ho, ?_⟩
          intro x hx hmem
          exact hfresh x hx (by rw [List.map_append]; exact List.mem_append_left _ hmem)
        · refine List.forall_mem_cons.mpr ⟨by simp, ?_⟩
          simpa using hall

/-- What is kept of some bodies are objects of these. -/
theorem outline_subset (roots : List Occurrence) :
    outline roots ⊆ roots.flatMap Occurrence.preorder := by
  obtain ⟨new, hnew, hsub, -, -⟩ := foldl_keepFirst (roots.flatMap Occurrence.preorder) []
  rw [outline, firstOfEach, hnew]
  exact hsub

/-! ## Places -/

variable {key : SeenKey}

theorem placeOf_append (h : key ∈ kept.map Occurrence.key) (new : List Occurrence) :
    placeOf (kept ++ new) key = placeOf kept key := by
  rw [placeOf, placeOf, List.map_append, List.idxOf_append_of_mem h]

theorem placeOf_lt (h : key ∈ kept.map Occurrence.key) : placeOf kept key < kept.length := by
  have hlt := List.idxOf_lt_length_of_mem h
  rwa [List.length_map] at hlt

theorem nameOf_append (h : key ∈ kept.map Occurrence.key) (new : List Occurrence) :
    nameOf (kept ++ new) key = nameOf kept key := by
  rw [nameOf, nameOf, placeOf_append h, List.getElem?_append_left (placeOf_lt h)]

theorem idOf_append (h : key ∈ kept.map Occurrence.key) (new : List Occurrence) :
    idOf (kept ++ new) key = idOf kept key := by
  rw [idOf, idOf, placeOf_append h]

theorem placeOf_append_self (h : o.key ∉ kept.map Occurrence.key) (new : List Occurrence) :
    placeOf (kept ++ o :: new) o.key = kept.length := by
  rw [placeOf, List.map_append, List.idxOf_append_of_notMem h]
  simp

/-- At the place of a structure stands an occurrence of it. -/
theorem getElem?_placeOf (h : key ∈ kept.map Occurrence.key) :
    ∃ o, kept[placeOf kept key]? = some o ∧ o.key = key := by
  have hlt := placeOf_lt h
  refine ⟨kept[placeOf kept key], List.getElem?_eq_getElem hlt, ?_⟩
  have hlt' : placeOf kept key < (kept.map Occurrence.key).length := by
    rwa [List.length_map]
  have hget : (kept.map Occurrence.key)[placeOf kept key] = key := List.getElem_idxOf hlt'
  rwa [List.getElem_map] at hget

end Keep

end DtoForge.Extraction
