import DtoForge.Proofs.Json.Written
import DtoForge.Proofs.Schema.Structure
import DtoForge.Schema.Document

/-! # Canonical text — the text that is digested determines the structure

The canonical text of a schema is a document on one line with sorted keys. It says of which kind
the schema is at its third character, and every part of it tells where it ends (`text_endsItself`),
so the parts can be read off: `properties_of_text_eq`, `required_of_text_eq` and the lemmas on the
other kinds. Names are read off as a reader of the text gets them, so schemas of one text are alike
once their names are read back (`alike_reread_of_text_eq`), and alike as they are when no name has
halves that would make a character (`alike_of_text_eq`). References are not written. -/

namespace DtoForge.Schema

open Json (Layout writeText joined EndsItself)

/-! ## The three forms of a text -/

/-- The canonical text in characters. -/
def text (s : Schema) : List Char :=
  s.canonicalText.toList

/-- The text of a property: its name, and the text of its schema. -/
def entryText (p : RawText × Schema) : String :=
  writeText true p.1 ++ ": " ++ p.2.canonicalText

/-- The texts of properties in the order of their names. -/
def entryTexts (ps : List (RawText × Schema)) : List (List Char) :=
  (Layout.canonical.arrange (ps.map fun p => (p.1, entryText p))).map fun e => e.2.toList

/-- Properties that stand in the order of their names are written as they stand. -/
theorem entryTexts_of_sorted {ps : List (RawText × Schema)} (h : ps.Pairwise fun p q => p.1 ≤ q.1) :
    entryTexts ps = ps.map fun p => (entryText p).toList := by
  have hsorted : Layout.canonical.arrange (ps.map fun p => (p.1, entryText p)) =
      ps.map fun p => (p.1, entryText p) := by
    apply List.mergeSort_of_pairwise
    rw [List.pairwise_map]
    simpa using h
  rw [entryTexts, hsorted, List.map_map]
  rfl

/-- The texts of required names in order. -/
def requiredTexts (required : List Json) : List (List Char) :=
  (Json.sorted required).map fun v => (v.write Layout.canonical).toList

theorem toList_entryText (p : RawText × Schema) :
    (entryText p).toList = (writeText true p.1).toList ++ ([':', ' '] ++ p.2.text) := by
  simp [entryText, text]

theorem writeEntries_toJsonAll (level : Nat) (ps : List (RawText × Schema)) :
    Json.writeEntries Layout.canonical level (toJsonAll false ps) =
      ps.map fun p => (p.1, entryText p) := by
  rw [Json.writeEntries_line rfl]
  induction ps with
  | nil => rfl
  | cons p ps ih =>
      obtain ⟨name, s⟩ := p
      rw [toJsonAll, List.map_cons, ih]
      rfl

@[simp] theorem asciiOnly_canonical : Layout.canonical.asciiOnly = true := rfl

theorem indent_canonical : Layout.canonical.indent = none := rfl

/-- The words of schema documents are written as they stand. -/
theorem writeText_word : ∀ w ∈ ["properties", "required", "items", "type", "object", "array",
    "string", "number", "boolean", "null", "unknown"],
    writeText true w = "\"" ++ w ++ "\"" := by
  decide

theorem text_object (ps : List (RawText × Schema)) (required : List Json) (ref : Option Json) :
    text (.object ps required ref) =
      "\x7b\"properties\": \x7b".toList ++ (joined (entryTexts ps) ++
        ("\x7d, \"required\": [".toList ++ (joined (requiredTexts required) ++
          "], \"type\": \"object\"\x7d".toList))) := by
  have harrange : ∀ a b c : String,
      Layout.canonical.arrange [(RawText.whole "type", a), ("properties", b), ("required", c)] =
        [(RawText.whole "properties", b), ("required", c), ("type", a)] := by
    intro a b c
    have hfirst : ¬ RawText.whole "type" ≤ "properties" := by decide
    have hlast : ¬ RawText.whole "type" ≤ "required" := by decide
    have horder : RawText.whole "properties" ≤ "required" := by decide
    simp [Layout.arrange, Layout.canonical, List.mergeSort, List.MergeSort.Internal.splitInTwo,
      hfirst, hlast, horder]
  simp only [text, canonicalText, toJson, refEntry, List.append_nil, Json.write, Json.writeAt,
    Json.writeEntries, harrange, Json.enclose_line indent_canonical,
    writeEntries_toJsonAll, Json.writeItems_line indent_canonical]
  simp [writeText_word, joined, entryTexts, requiredTexts, Function.comp_def]

/-- The text of an object does not depend on what it refers to. -/
theorem text_object_ref (ps : List (RawText × Schema)) (required : List Json)
    (ref ref' : Option Json) :
    text (.object ps required ref) = text (.object ps required ref') := by
  rw [text_object, text_object]

theorem text_array (items : Schema) (ref : Option Json) :
    text (.array items ref) =
      "\x7b\"items\": ".toList ++ (items.text ++ ", \"type\": \"array\"\x7d".toList) := by
  have harrange : ∀ a b : String,
      Layout.canonical.arrange [(RawText.whole "type", a), ("items", b)] =
        [(RawText.whole "items", b), ("type", a)] := by
    intro a b
    have horder : ¬ RawText.whole "type" ≤ "items" := by decide
    simp [Layout.arrange, Layout.canonical, List.mergeSort, List.MergeSort.Internal.splitInTwo,
      horder]
  simp only [text, canonicalText, toJson, refEntry, List.append_nil, Json.write, Json.writeAt,
    Json.writeEntries, harrange, Json.enclose_line indent_canonical,
    Json.writeAt_level indent_canonical 1 0]
  simp [writeText_word]

theorem text_leaf (l : Leaf) (ref : Option Json) :
    text (.leaf l ref) =
      "\x7b\"type\": ".toList ++
        ((writeText true (SchemaKind.leaf l).word).toList ++ ['\x7d']) := by
  simp only [text, canonicalText, toJson, refEntry, Json.write, Json.writeAt, Json.writeEntries,
    Json.enclose_line indent_canonical]
  simp [Layout.arrange, writeText_word]

/-! ## Reading off the parts -/

theorem mem_entryTexts {ps : List (RawText × Schema)} {a : List Char} :
    a ∈ entryTexts ps ↔ ∃ p ∈ ps, (entryText p).toList = a := by
  simp only [entryTexts, List.mem_map, (Json.arrange_perm Layout.canonical _).mem_iff]
  constructor
  · rintro ⟨_, ⟨p, hp, rfl⟩, rfl⟩
    exact ⟨p, hp, rfl⟩
  · rintro ⟨p, hp, rfl⟩
    exact ⟨_, ⟨p, hp, rfl⟩, rfl⟩

theorem entryTexts_start {ps : List (RawText × Schema)} {closing : Char} (h : closing ≠ '"') :
    ∀ a ∈ entryTexts ps, ∃ c rest, a = c :: rest ∧ c ≠ closing := by
  intro a ha
  obtain ⟨p, -, rfl⟩ := mem_entryTexts.mp ha
  exact ⟨'"', _, by rw [toList_entryText, Json.toList_writeText]; rfl, h.symm⟩

theorem entryTexts_endsItself {ps qs : List (RawText × Schema)}
    (h : ∀ p ∈ ps, ∀ q ∈ qs, EndsItself p.2.text q.2.text) :
    ∀ a ∈ entryTexts ps, ∀ b ∈ entryTexts qs, EndsItself a b := by
  intro a ha b hb
  obtain ⟨p, hp, rfl⟩ := mem_entryTexts.mp ha
  obtain ⟨q, hq, rfl⟩ := mem_entryTexts.mp hb
  rw [toList_entryText, toList_entryText]
  exact (Json.endsItself_writeText p.1 q.1).append ((EndsItself.refl _).append (h p hp q hq))

theorem insertSorted_perm (v : Json) (vs : List Json) :
    (Json.insertSorted v vs).Perm (v :: vs) := by
  induction vs with
  | nil => exact List.Perm.refl _
  | cons w vs ih =>
      rw [Json.insertSorted]
      split
      · exact List.Perm.refl _
      · exact (ih.cons w).trans (List.Perm.swap v w vs)

theorem sorted_perm (vs : List Json) : (Json.sorted vs).Perm vs := by
  induction vs with
  | nil => exact List.Perm.refl _
  | cons v vs ih => exact (insertSorted_perm v _).trans (ih.cons v)

theorem mem_requiredTexts {required : List Json} {a : List Char}
    (hnames : ∀ v ∈ required, ∃ name, v = .str name) :
    a ∈ requiredTexts required ↔
      ∃ name, .str name ∈ required ∧ (writeText true name).toList = a := by
  simp only [requiredTexts, List.mem_map, (sorted_perm required).mem_iff]
  constructor
  · rintro ⟨v, hv, rfl⟩
    obtain ⟨name, rfl⟩ := hnames v hv
    exact ⟨name, hv, rfl⟩
  · rintro ⟨name, hname, rfl⟩
    exact ⟨.str name, hname, rfl⟩

theorem requiredTexts_start {required : List Json} {closing : Char}
    (hnames : ∀ v ∈ required, ∃ name, v = .str name) (h : closing ≠ '"') :
    ∀ a ∈ requiredTexts required, ∃ c rest, a = c :: rest ∧ c ≠ closing := by
  intro a ha
  obtain ⟨name, -, rfl⟩ := (mem_requiredTexts hnames).mp ha
  exact ⟨'"', _, Json.toList_writeText name, h.symm⟩

theorem requiredTexts_endsItself {required required' : List Json}
    (hnames : ∀ v ∈ required, ∃ name, v = .str name)
    (hnames' : ∀ v ∈ required', ∃ name, v = .str name) :
    ∀ a ∈ requiredTexts required, ∀ b ∈ requiredTexts required', EndsItself a b := by
  intro a ha b hb
  obtain ⟨name, -, rfl⟩ := (mem_requiredTexts hnames).mp ha
  obtain ⟨name', -, rfl⟩ := (mem_requiredTexts hnames').mp hb
  exact Json.endsItself_writeText name name'

/-- The character that tells the kind of a schema. -/
def mark : Schema → Char
  | .object .. => 'p'
  | .array .. => 'i'
  | .leaf .. => 't'

theorem text_start (s : Schema) : ∃ rest, s.text = '\x7b' :: '"' :: s.mark :: rest := by
  cases s with
  | object ps required ref => exact ⟨_, by rw [text_object]; rfl⟩
  | array items ref => exact ⟨_, by rw [text_array]; rfl⟩
  | leaf l ref => exact ⟨_, by rw [text_leaf]; rfl⟩

/-- Texts of different kinds differ at the third character. -/
theorem mark_eq_of_text_append_eq {s t : Schema} {r r' : List Char}
    (h : s.text ++ r = t.text ++ r') : s.mark = t.mark := by
  obtain ⟨rest, hs⟩ := text_start s
  obtain ⟨rest', ht⟩ := text_start t
  rw [hs, ht] at h
  simp only [List.cons_append, List.cons.injEq, true_and] at h
  exact h.1

theorem endsItself_of_mark_ne {s t : Schema} (h : s.mark ≠ t.mark) : EndsItself s.text t.text :=
  fun _ _ heq => absurd (mark_eq_of_text_append_eq heq) h

/-- **A canonical text tells where it ends.** -/
theorem text_endsItself (s : Schema) (hs : Named s) :
    ∀ t, Named t → EndsItself s.text t.text := by
  induction s using induct with
  | object ps required ref ih =>
      intro t ht
      cases t with
      | object qs required' ref' =>
          obtain ⟨hnames, hps⟩ := everywhere_object_iff.mp hs
          obtain ⟨hnames', hqs⟩ := everywhere_object_iff.mp ht
          have hentries := entryTexts_endsItself fun p hp q hq =>
            ih p hp (hps p hp) q.2 (hqs q hq)
          rw [text_object, text_object]
          -- from the left: the opening words, the properties, the words between, the names
          apply (EndsItself.refl _).append
          apply EndsItself.joined hentries (by decide) (entryTexts_start (by decide))
            (entryTexts_start (by decide))
          apply EndsItself.append (EndsItself.refl _)
          exact EndsItself.joined (requiredTexts_endsItself hnames hnames') (by decide)
            (requiredTexts_start hnames (by decide)) (requiredTexts_start hnames' (by decide))
            (EndsItself.refl _)
      | array items' ref' => exact endsItself_of_mark_ne (by simp [mark])
      | leaf l ref' => exact endsItself_of_mark_ne (by simp [mark])
  | array items ref ih =>
      intro t ht
      cases t with
      | object qs required' ref' => exact endsItself_of_mark_ne (by simp [mark])
      | array items' ref' =>
          rw [text_array, text_array]
          exact (EndsItself.refl _).append ((ih hs.2 items' ht.2).append (EndsItself.refl _))
      | leaf l ref' => exact endsItself_of_mark_ne (by simp [mark])
  | leaf l ref =>
      intro t _
      cases t with
      | object qs required' ref' => exact endsItself_of_mark_ne (by simp [mark])
      | array items' ref' => exact endsItself_of_mark_ne (by simp [mark])
      | leaf l' ref' =>
          rw [text_leaf, text_leaf]
          exact (EndsItself.refl _).append
            ((Json.endsItself_writeText _ _).append (EndsItself.refl _))

/-! ## Names as they are read back -/

mutual

/-- A schema with its names as they are read back from its text. -/
def reread : Schema → Schema
  | .object ps required ref => .object (rereadAll ps) (required.map rereadName) ref
  | .array items ref => .array (reread items) ref
  | .leaf l ref => .leaf l ref

/-- Properties with their names as they are read back. -/
def rereadAll : List (RawText × Schema) → List (RawText × Schema)
  | [] => []
  | (name, s) :: ps => (Json.reread name, reread s) :: rereadAll ps

/-- A required name as it is read back. -/
def rereadName : Json → Json
  | .str name => .str (Json.reread name)
  | v => v

end

theorem rereadAll_eq_map (ps : List (RawText × Schema)) :
    rereadAll ps = ps.map fun p => (Json.reread p.1, reread p.2) := by
  induction ps with
  | nil => rfl
  | cons p ps ih =>
      obtain ⟨name, s⟩ := p
      rw [rereadAll, ih]
      rfl

/-- Whether no name has halves side by side that would make a character. -/
def Unsplit (s : Schema) : Prop :=
  s.Everywhere fun s =>
    (∀ p ∈ s.properties, p.1.Unsplit) ∧ ∀ name, .str name ∈ s.required → name.Unsplit

/-- Names without such halves are read back as they are. -/
theorem reread_eq_of_unsplit {s : Schema} (h : s.Unsplit) : s.reread = s := by
  induction s using induct with
  | object ps required ref ih =>
      obtain ⟨⟨hnames, hrequired⟩, hps⟩ := everywhere_object_iff.mp h
      have hproperties : rereadAll ps = ps := by
        rw [rereadAll_eq_map]
        refine (List.map_congr_left fun p hp => ?_).trans (List.map_id ps)
        rw [Json.reread_eq_of_unsplit (hnames p hp), ih p hp (hps p hp)]
        rfl
      have hsame : required.map rereadName = required := by
        refine (List.map_congr_left fun v hv => ?_).trans (List.map_id required)
        cases v with
        | str name => exact congrArg Json.str (Json.reread_eq_of_unsplit (hrequired name hv))
        | _ => rfl
      rw [reread, hproperties, hsame]
  | array items ref ih => rw [reread, ih h.2]
  | leaf l ref => rfl

/-! ## What schemas of one text have in common -/

section SameText

variable {ps qs : List (RawText × Schema)} {required required' : List Json}
  {ref ref' : Option Json}

theorem parts_of_text_eq (hs : Named (.object ps required ref))
    (ht : Named (.object qs required' ref'))
    (h : text (.object ps required ref) = text (.object qs required' ref')) :
    entryTexts ps = entryTexts qs ∧ requiredTexts required = requiredTexts required' := by
  obtain ⟨hnames, hps⟩ := everywhere_object_iff.mp hs
  obtain ⟨hnames', hqs⟩ := everywhere_object_iff.mp ht
  have hentries := entryTexts_endsItself fun p hp q hq =>
    text_endsItself p.2 (hps p hp) q.2 (hqs q hq)
  rw [text_object, text_object] at h
  obtain ⟨hentry, hrest⟩ := Json.joined_append_inj hentries (by decide)
    (entryTexts_start (by decide)) (entryTexts_start (by decide)) (List.append_cancel_left h)
  have hquote : ']' ≠ '"' := by decide
  -- the brace that closes the properties is gone, the words up to the names are left
  have hlist : ", \"required\": [".toList ++ _ = ", \"required\": [".toList ++ _ := hrest
  obtain ⟨hrequired, -⟩ := Json.joined_append_inj (requiredTexts_endsItself hnames hnames')
    (by decide) (requiredTexts_start hnames hquote) (requiredTexts_start hnames' hquote)
    (List.append_cancel_left hlist)
  exact ⟨hentry, hrequired⟩

/-- Objects of one text have the same property names, as these are read back, with schemas of the
same texts. -/
theorem properties_of_text_eq (hs : Named (.object ps required ref))
    (ht : Named (.object qs required' ref'))
    (h : text (.object ps required ref) = text (.object qs required' ref')) :
    ∀ p ∈ ps, ∃ q ∈ qs, Json.reread p.1 = Json.reread q.1 ∧ p.2.text = q.2.text := by
  intro p hp
  have hmem : (entryText p).toList ∈ entryTexts qs :=
    (parts_of_text_eq hs ht h).1 ▸ mem_entryTexts.mpr ⟨p, hp, rfl⟩
  obtain ⟨q, hq, hentry⟩ := mem_entryTexts.mp hmem
  rw [toList_entryText, toList_entryText] at hentry
  obtain ⟨-, hrest⟩ := Json.writeText_append_inj hentry
  exact ⟨q, hq, (Json.reread_eq_of_writeText_append_eq hentry).symm,
    (List.append_cancel_left hrest).symm⟩

theorem required_of_text_eq (hs : Named (.object ps required ref))
    (ht : Named (.object qs required' ref'))
    (h : text (.object ps required ref) = text (.object qs required' ref')) :
    ∀ v ∈ required.map rereadName, v ∈ required'.map rereadName := by
  intro v hmem
  obtain ⟨v, hv, rfl⟩ := List.mem_map.mp hmem
  have hnames := (everywhere_object_iff.mp hs).1
  have hnames' := (everywhere_object_iff.mp ht).1
  obtain ⟨name, rfl⟩ := hnames v hv
  have htext : (writeText true name).toList ∈ requiredTexts required' :=
    (parts_of_text_eq hs ht h).2 ▸ (mem_requiredTexts hnames).mpr ⟨name, hv, rfl⟩
  obtain ⟨name', hname', hwritten⟩ := (mem_requiredTexts hnames').mp htext
  have hreread := Json.reread_eq_of_writeText_append_eq (congrArg (· ++ []) hwritten)
  exact List.mem_map.mpr ⟨.str name', hname', congrArg Json.str hreread⟩

theorem items_of_text_eq {items items' : Schema}
    (h : text (.array items ref) = text (.array items' ref')) : items.text = items'.text := by
  rw [text_array, text_array] at h
  exact List.append_cancel_right (List.append_cancel_left h)

theorem leaf_of_text_eq {l l' : Leaf} (h : text (.leaf l ref) = text (.leaf l' ref')) : l = l' := by
  rw [text_leaf, text_leaf] at h
  obtain ⟨hword, -⟩ := Json.writeText_append_inj (List.append_cancel_left h)
  revert hword
  cases l <;> cases l' <;> decide

theorem mark_eq_of_text_eq {s t : Schema} (h : s.text = t.text) : s.mark = t.mark :=
  mark_eq_of_text_append_eq (congrArg (· ++ []) h)

theorem exists_object_of_text_eq {t : Schema} (h : text (.object ps required ref) = t.text) :
    ∃ qs required' ref', t = .object qs required' ref' := by
  cases t with
  | object qs required' ref' => exact ⟨qs, required', ref', rfl⟩
  | array items ref' => exact absurd (mark_eq_of_text_eq h) (by simp [mark])
  | leaf l ref' => exact absurd (mark_eq_of_text_eq h) (by simp [mark])

theorem exists_array_of_text_eq {items t : Schema} (h : text (.array items ref) = t.text) :
    ∃ items' ref', t = .array items' ref' := by
  cases t with
  | object qs required' ref' => exact absurd (mark_eq_of_text_eq h) (by simp [mark])
  | array items' ref' => exact ⟨items', ref', rfl⟩
  | leaf l ref' => exact absurd (mark_eq_of_text_eq h) (by simp [mark])

theorem exists_leaf_of_text_eq {l : Leaf} {t : Schema} (h : text (.leaf l ref) = t.text) :
    ∃ l' ref', t = .leaf l' ref' := by
  cases t with
  | object qs required' ref' => exact absurd (mark_eq_of_text_eq h) (by simp [mark])
  | array items' ref' => exact absurd (mark_eq_of_text_eq h) (by simp [mark])
  | leaf l' ref' => exact ⟨l', ref', rfl⟩

end SameText

/-- **Schemas of one canonical text are alike**, as their names are read back from it. -/
theorem alike_reread_of_text_eq (s : Schema) (hs : Named s) :
    ∀ t, Named t → s.text = t.text → Alike s.reread t.reread := by
  induction s using induct with
  | object ps required ref ih =>
      intro t ht h
      obtain ⟨qs, required', ref', rfl⟩ := exists_object_of_text_eq h
      rw [reread, reread, rereadAll_eq_map, rereadAll_eq_map, alike_object_iff]
      have hps := (everywhere_object_iff.mp hs).2
      have hqs := (everywhere_object_iff.mp ht).2
      -- both inclusions, each by reading the parts of one object in the text of the other
      refine ⟨?_, ?_, ?_⟩
      · intro p hmem
        obtain ⟨p, hp, rfl⟩ := List.mem_map.mp hmem
        obtain ⟨q, hq, hname, htext⟩ := properties_of_text_eq hs ht h p hp
        refine ⟨q.2.reread, ?_, ih p hp (hps p hp) q.2 (hqs q hq) htext⟩
        exact List.mem_map.mpr ⟨q, hq, by rw [hname]⟩
      · intro q hmem
        obtain ⟨q, hq, rfl⟩ := List.mem_map.mp hmem
        obtain ⟨p, hp, hname, -⟩ := properties_of_text_eq ht hs h.symm q hq
        exact ⟨_, List.mem_map_of_mem hp, hname.symm⟩
      · intro v
        exact ⟨required_of_text_eq hs ht h v, required_of_text_eq ht hs h.symm v⟩
  | array items ref ih =>
      intro t ht h
      obtain ⟨items', ref', rfl⟩ := exists_array_of_text_eq h
      rw [reread, reread, Alike]
      exact ih hs.2 items' ht.2 (items_of_text_eq h)
  | leaf l ref =>
      intro t _ h
      obtain ⟨l', ref', rfl⟩ := exists_leaf_of_text_eq h
      rw [reread, reread, Alike]
      exact leaf_of_text_eq h

theorem alike_of_text_eq {s t : Schema} (hs : Named s) (hs' : s.Unsplit) (ht : Named t)
    (ht' : t.Unsplit) (h : s.text = t.text) : Alike s t := by
  have halike := alike_reread_of_text_eq s hs t ht h
  rwa [reread_eq_of_unsplit hs', reread_eq_of_unsplit ht'] at halike

/-! ## The length of a text -/

/-- The text of a property is shorter than that of its object. -/
theorem length_text_lt_object {ps : List (RawText × Schema)} (required : List Json)
    (ref : Option Json) {p : RawText × Schema} (hp : p ∈ ps) :
    p.2.text.length < (text (.object ps required ref)).length := by
  have hpart := Json.length_le_joined (mem_entryTexts.mpr ⟨p, hp, rfl⟩)
  rw [toList_entryText] at hpart
  rw [text_object]
  simp only [List.length_append] at hpart ⊢
  have hmarks : 0 < "\x7b\"properties\": \x7b".toList.length := by decide
  omega

/-- The text of the items is shorter than that of their array. -/
theorem length_text_lt_array (items : Schema) (ref : Option Json) :
    items.text.length < (text (.array items ref)).length := by
  rw [text_array]
  simp only [List.length_append]
  have hmarks : 0 < "\x7b\"items\": ".toList.length := by decide
  omega

/-! ## References are not written -/

mutual

/-- A schema without any references, and otherwise as it is. -/
def bare : Schema → Schema
  | .object ps required _ => .object (bareAll ps) required none
  | .array items _ => .array (bare items) none
  | .leaf l _ => .leaf l none

/-- Properties without any references. -/
def bareAll : List (RawText × Schema) → List (RawText × Schema)
  | [] => []
  | (name, s) :: ps => (name, bare s) :: bareAll ps

end

mutual

/-- The document without references is that of the schema without them. -/
theorem toJson_bare : ∀ s : Schema, s.bare.toJson false = s.toJson false
  | .object ps required ref => by
      simp only [bare, toJson, refEntry, toJsonAll_bareAll ps]
  | .array items ref => by simp only [bare, toJson, refEntry, toJson_bare items]
  | .leaf l ref => rfl

theorem toJsonAll_bareAll : ∀ ps, toJsonAll false (bareAll ps) = toJsonAll false ps
  | [] => rfl
  | (name, s) :: ps => by rw [bareAll, toJsonAll, toJsonAll, toJson_bare s, toJsonAll_bareAll ps]

end

theorem bareAll_eq_map (ps : List (RawText × Schema)) :
    bareAll ps = ps.map fun p => (p.1, p.2.bare) := by
  induction ps with
  | nil => rfl
  | cons p ps ih =>
      obtain ⟨name, s⟩ := p
      rw [bareAll, ih]
      rfl

/-- What does not depend on references holds everywhere with them if it does without them. -/
theorem everywhere_bare_iff {holds : Schema → Prop} (hbare : ∀ s, holds s.bare ↔ holds s)
    (s : Schema) : s.bare.Everywhere holds ↔ s.Everywhere holds := by
  induction s using induct with
  | object ps required ref ih =>
      have hself := hbare (.object ps required ref)
      rw [bare] at hself ⊢
      rw [everywhere_object_iff, everywhere_object_iff, hself, bareAll_eq_map, List.forall_mem_map]
      exact and_congr_right fun _ => forall₂_congr ih
  | array items ref ih =>
      have hself := hbare (.array items ref)
      rw [bare] at hself ⊢
      rw [Everywhere, Everywhere, hself, ih]
  | leaf l ref =>
      have hself := hbare (.leaf l ref)
      rw [bare] at hself ⊢
      exact hself

theorem required_bare (s : Schema) : s.bare.required = s.required := by
  cases s <;> rfl

theorem names_bare (s : Schema) : s.bare.properties.map (·.1) = s.properties.map (·.1) := by
  cases s with
  | object ps required ref =>
      rw [bare, properties, properties, bareAll_eq_map, List.map_map]
      rfl
  | array items ref => rfl
  | leaf l ref => rfl

theorem named_bare_iff (s : Schema) : s.bare.Named ↔ s.Named :=
  everywhere_bare_iff (fun s => by rw [required_bare]) s

theorem unsplit_bare_iff (s : Schema) : s.bare.Unsplit ↔ s.Unsplit := by
  refine everywhere_bare_iff (fun s => ?_) s
  have hnames : ∀ s : Schema, (∀ p ∈ s.properties, p.1.Unsplit) ↔
      ∀ name ∈ s.properties.map (·.1), name.Unsplit := fun _ => List.forall_mem_map.symm
  rw [hnames, hnames, names_bare, required_bare]

/-- The canonical text does not depend on references. -/
theorem canonicalText_eq_of_bare_eq {s t : Schema} (h : s.bare = t.bare) :
    s.canonicalText = t.canonicalText := by
  rw [canonicalText, canonicalText, ← toJson_bare s, ← toJson_bare t, h]

end DtoForge.Schema
