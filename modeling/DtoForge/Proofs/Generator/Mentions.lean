import DtoForge.Proofs.Generator.References

/-! # Mentions — what is imported is what type expressions name

Two recursions go through the layers of an array: one writes the type of a property, the other collects
what the property refers to. Both end at the same object, which the property mentions. So the stems that
an object refers to are those that its properties mention, without its own, each listed once where it is
mentioned first (`Lists`), and the type listed with a stem is the one that stands in the type expression
in place of the object. -/

namespace DtoForge

namespace Schema

variable {s : Schema} {ref : Json}

/-- A schema mentions what the object behind its array layers refers to. References that are there
count as given, so they are not empty. -/
def Mentions (s : Schema) (ref : Json) : Prop :=
  ∃ layers ps required, s.within layers = some (.object ps required (some ref))

theorem refOf_eq_some_iff : Writer.refOf s = some ref ↔ s.Mentions ref := by
  induction s using Schema.induct with
  | object ps required ref' =>
      constructor
      · intro h
        obtain rfl : ref' = some ref := h
        exact ⟨0, ps, required, rfl⟩
      · rintro ⟨layers, ps', required', hwithin⟩
        cases layers with
        | zero =>
            cases hwithin
            rfl
        | succ layers => cases hwithin
  | array items ref' ih =>
      have hlayer : (Schema.array items ref').Mentions ref ↔ items.Mentions ref := by
        constructor
        · rintro ⟨layers, ps, required, hwithin⟩
          cases layers with
          | zero => cases hwithin
          | succ layers => exact ⟨layers, ps, required, hwithin⟩
        · rintro ⟨layers, ps, required, hwithin⟩
          exact ⟨layers + 1, ps, required, hwithin⟩
      rw [hlayer, ← ih]
      rfl
  | leaf l ref' =>
      apply iff_of_false nofun
      rintro ⟨layers, ps, required, hwithin⟩
      cases layers with
      | zero => cases hwithin
      | succ layers => cases hwithin

/-- A schema mentions one thing at most. -/
theorem Mentions.unique {ref' : Json} (h : s.Mentions ref) (h' : s.Mentions ref') : ref = ref' := by
  rw [← refOf_eq_some_iff] at h h'
  exact Option.some.inj (h.symm.trans h')

/-- Whether the properties of a schema mention texts only. -/
def MentionsTexts (s : Schema) : Prop :=
  ∀ p ∈ s.properties, ∀ ref, p.2.Mentions ref → ∃ stem, ref = .str stem

/-- Some schema mentions the first name before any mentions the second. -/
def MentionsFirst (ss : List Schema) (x y : RawText) : Prop :=
  ∃ before s after, ss = before ++ s :: after ∧ s.Mentions (.str x) ∧
    ∀ t ∈ before ++ [s], ¬ t.Mentions (.str y)

theorem MentionsFirst.append {ss : List Schema} {x y : RawText} (h : MentionsFirst ss x y)
    (ts : List Schema) : MentionsFirst (ss ++ ts) x y := by
  obtain ⟨before, s, after, rfl, hx, hy⟩ := h
  exact ⟨before, s, after ++ ts, by simp, hx, hy⟩

end Schema

namespace Writer

open Schema

/-- The stems of what is referred to. -/
abbrev stems (refs : List (RawText × String)) : List RawText :=
  refs.map (·.1)

/-- What schemas refer to, as it is to be listed: every name that one of them mentions but the own
one, in order of the first mention, with the type of the name. -/
structure Lists (w : Writer) (own : RawText) (ss : List Schema) (refs : List (RawText × String)) :
    Prop where
  texts : ∀ s ∈ ss, ∀ ref, s.Mentions ref → ∃ stem, ref = .str stem
  typed : ∀ r ∈ refs, r.2 = w.typeName r.1.legible
  mem_iff : ∀ x, x ∈ stems refs ↔ x ≠ own ∧ ∃ s ∈ ss, s.Mentions (.str x)
  ordered : (stems refs).Pairwise (MentionsFirst ss)

variable {w : Writer} {own : RawText} {refs refs' : List (RawText × String)}

/-- A property that mentions nothing, the type itself or a stem that is listed adds nothing. Any
other name is added at the end with its type, and nothing but a text can be added. -/
theorem addReference_cases {s : Schema} (h : w.addReference (.str own) refs s = .ok refs') :
    (refs' = refs ∧ ∀ ref, s.Mentions ref →
      ref = .str own ∨ ∃ stem, ref = .str stem ∧ (stem, w.typeName stem.legible) ∈ refs) ∨
    ∃ stem, s.Mentions (.str stem) ∧ stem ≠ own ∧ (stem, w.typeName stem.legible) ∉ refs ∧
      refs' = refs ++ [(stem, w.typeName stem.legible)] := by
  rw [addReference] at h
  cases href : refOf s with
  | none =>
      rw [href] at h
      left
      refine ⟨(Except.ok.inj h).symm, fun ref hmentions => ?_⟩
      rw [← refOf_eq_some_iff, href] at hmentions
      cases hmentions
  | some ref =>
      have hmentions : s.Mentions ref := refOf_eq_some_iff.mp href
      rw [href] at h
      dsimp only at h
      split at h
      next hown =>
        left
        refine ⟨(Except.ok.inj h).symm, fun ref' h' => .inl ?_⟩
        rw [← hmentions.unique h']
        exact eq_of_beq hown
      next hown =>
        obtain ⟨stem, hstem, h⟩ := Steps.exists_of_bind_eq_ok h
        obtain rfl : ref = .str stem := by
          cases ref with
          | str text => exact congrArg Json.str (Except.ok.inj hstem)
          | _ => cases hstem
        have hne : stem ≠ own := by
          rintro rfl
          exact hown (beq_self_eq_true _)
        have hrefs := Except.ok.inj h
        split at hrefs
        next hlisted =>
          left
          refine ⟨hrefs.symm, fun ref' h' => .inr ⟨stem, (hmentions.unique h').symm, ?_⟩⟩
          exact List.contains_iff_mem.mp hlisted
        next hlisted =>
          right
          refine ⟨stem, hmentions, hne, fun hmem => ?_, hrefs.symm⟩
          exact hlisted (List.contains_iff_mem.mpr hmem)

theorem lists_nil : w.Lists own [] [] where
  texts := nofun
  typed := nofun
  mem_iff := by simp
  ordered := .nil

/-- One more property keeps the list as it is to be. -/
theorem Lists.addReference {ss : List Schema} (hlists : w.Lists own ss refs)
    {s : Schema} (h : w.addReference (.str own) refs s = .ok refs') :
    w.Lists own (ss ++ [s]) refs' := by
  have hordered : (stems refs).Pairwise (MentionsFirst (ss ++ [s])) :=
    hlists.ordered.imp fun hfirst => hfirst.append [s]
  obtain ⟨rfl, hknown⟩ | ⟨stem, hmentions, hown, hnew, rfl⟩ := addReference_cases h
  · refine ⟨?texts, hlists.typed, ?mem, hordered⟩
    case texts =>
      refine List.forall_mem_append.mpr
        ⟨hlists.texts, List.forall_mem_singleton.mpr fun ref href => ?_⟩
      obtain rfl | ⟨stem, rfl, -⟩ := hknown ref href
      · exact ⟨own, rfl⟩
      · exact ⟨stem, rfl⟩
    case mem =>
      intro x
      rw [hlists.mem_iff]
      constructor
      · rintro ⟨hne, t, ht, hx⟩
        exact ⟨hne, t, List.mem_append_left _ ht, hx⟩
      · rintro ⟨hne, t, ht, hx⟩
        rcases List.mem_append.mp ht with ht | ht
        · exact ⟨hne, t, ht, hx⟩
        · -- the last property mentions a stem that is listed
          obtain rfl := List.mem_singleton.mp ht
          obtain heq | ⟨stem, hstem, hlisted⟩ := hknown _ hx
          · exact absurd (Json.str.inj heq) hne
          · obtain rfl := Json.str.inj hstem
            exact (hlists.mem_iff x).mp (List.mem_map_of_mem hlisted)
  · -- no property before mentions the stem that is added
    have hfresh : stem ∉ stems refs := by
      intro hmem
      obtain ⟨r, hr, rfl⟩ := List.mem_map.mp hmem
      apply hnew
      rwa [← hlists.typed r hr]
    have hbefore : ∀ t ∈ ss, ¬ t.Mentions (.str stem) := by
      intro t ht hstem
      exact hfresh ((hlists.mem_iff stem).mpr ⟨hown, t, ht, hstem⟩)
    refine ⟨?texts, ?typed, ?mem, ?ordered⟩
    case texts =>
      refine List.forall_mem_append.mpr
        ⟨hlists.texts, List.forall_mem_singleton.mpr fun ref href => ?_⟩
      exact ⟨stem, href.unique hmentions⟩
    case typed =>
      exact List.forall_mem_append.mpr ⟨hlists.typed, List.forall_mem_singleton.mpr rfl⟩
    case mem =>
      intro x
      rw [stems, List.map_append, List.mem_append, hlists.mem_iff, List.map_singleton,
        List.mem_singleton]
      constructor
      · rintro (⟨hne, t, ht, hx⟩ | rfl)
        · exact ⟨hne, t, List.mem_append_left _ ht, hx⟩
        · exact ⟨hown, s, List.mem_append_right _ List.mem_cons_self, hmentions⟩
      · rintro ⟨hne, t, ht, hx⟩
        rcases List.mem_append.mp ht with ht | ht
        · exact .inl ⟨hne, t, ht, hx⟩
        · obtain rfl := List.mem_singleton.mp ht
          exact .inr (Json.str.inj (hx.unique hmentions))
    case ordered =>
      rw [stems, List.map_append, List.pairwise_append]
      refine ⟨hordered, List.pairwise_singleton _ _, fun x hx y hy => ?_⟩
      obtain rfl := List.mem_singleton.mp hy
      obtain ⟨-, t, ht, hmention⟩ := (hlists.mem_iff x).mp hx
      obtain ⟨before, after, rfl⟩ := List.append_of_mem ht
      refine ⟨before, t, after ++ [s], by simp, hmention, fun u hu => hbefore u ?_⟩
      grind

theorem lists_of_foldlM {ss : List Schema}
    (h : ss.foldlM (w.addReference (.str own)) [] = .ok refs) : w.Lists own ss refs := by
  induction ss using List.reverseRecOn generalizing refs with
  | nil =>
      cases h
      exact lists_nil
  | append_singleton ss s ih =>
      rw [List.foldlM_append] at h
      obtain ⟨middle, hmiddle, h⟩ := Steps.exists_of_bind_eq_ok h
      obtain ⟨last, hlast, h⟩ := Steps.exists_of_bind_eq_ok h
      cases h
      exact (ih hmiddle).addReference hlast

/-- What an object refers to is what its properties mention. -/
theorem lists_references {ps : List (RawText × Schema)} {required : List Json} {ref : Option Json}
    (h : w.references (.str own) (.object ps required ref) = .ok refs) :
    w.Lists own (ps.map (·.2)) refs :=
  lists_of_foldlM h

/-- A stem that is listed before another one is another one. -/
theorem Lists.nodup {ss : List Schema} (h : w.Lists own ss refs) :
    (stems refs).Nodup := by
  apply h.ordered.imp
  rintro x y ⟨before, s, after, -, hx, hy⟩ rfl
  exact hy s (List.mem_append_right _ List.mem_cons_self) hx

/-- In place of an object that refers to a name stands the type of the name, in as many lists as
there are array layers around it. -/
theorem typeOf_of_mention (w : Writer) {s : Schema} {layers : Nat} {ps : List (RawText × Schema)}
    {required : List Json} {stem : RawText}
    (h : s.within layers = some (.object ps required (some (.str stem)))) (enclosing : String) :
    w.typeOf enclosing s = .ok (w.dialect.listOf^[layers] (w.typeName stem.legible)) := by
  rw [w.typeOf_of_within enclosing h]
  rfl

end Writer

/-! ## Main result -/

/-- **What is imported is what type expressions name.** What an object refers to can be listed
exactly if its properties mention texts only. Then the stems are pairwise distinct and in order of
their first mention, they are those that a property mentions but the own one, and wherever a property
mentions a stem, its type expression is the type listed with the stem in as many lists as there are
array layers. -/
theorem Generator.references_agree (g : Generator) (name : RawText) (ps : List (RawText × Schema))
    (required : List Json) (ref : Option Json) :
    let schema := Schema.object ps required ref
    ((∃ refs, g.writer.references (.str name) schema = .ok refs) ↔ schema.MentionsTexts) ∧
    ∀ refs, g.writer.references (.str name) schema = .ok refs →
      (refs.map (·.1)).Nodup ∧ (refs.map (·.1)).Pairwise (Schema.MentionsFirst (ps.map (·.2))) ∧
      (∀ x, x ∈ refs.map (·.1) ↔ x ≠ name ∧ ∃ p ∈ ps, p.2.Mentions (.str x)) ∧
      ∀ x type, (x, type) ∈ refs → ∀ p ∈ ps, ∀ layers ps' required',
        p.2.within layers = some (.object ps' required' (some (.str x))) → ∀ enclosing,
          g.writer.typeOf enclosing (.object ps' required' (some (.str x))) = .ok type ∧
          g.writer.typeOf enclosing p.2 = .ok (g.writer.dialect.listOf^[layers] type) := by
  intro schema
  refine ⟨⟨?texts, ?listed⟩, fun refs hrefs => ?agree⟩
  case texts =>
    rintro ⟨refs, hrefs⟩ p hp
    exact (Writer.lists_references hrefs).texts p.2 (List.mem_map_of_mem hp)
  case listed =>
    intro htexts
    obtain ⟨refs, hrefs, -⟩ := g.writer.references_of_refOf (P := fun _ => True) (s := schema)
      (.str name) rfl fun p hp r hr =>
        (htexts p hp r (Schema.refOf_eq_some_iff.mp hr)).imp fun _ hstem => ⟨trivial, hstem⟩
    exact ⟨refs, hrefs⟩
  case agree =>
    have hlists := Writer.lists_references hrefs
    refine ⟨hlists.nodup, hlists.ordered, fun x => ?_, fun x type hmem p hp => ?_⟩
    · rw [hlists.mem_iff]
      simp only [List.mem_map, exists_exists_and_eq_and]
    · intro layers ps' required' hwithin enclosing
      obtain rfl : type = g.writer.typeName x.legible := hlists.typed _ hmem
      exact ⟨rfl, g.writer.typeOf_of_mention hwithin enclosing⟩

/-- A user with a parent, rows of orders and a first order refers to orders, once and not to users, and
the rows are lists of lists of them. -/
theorem Generator.references_agree_orders :
    let g : Generator := ⟨.typescript, { namePrefix := .str "Api" }⟩
    let user := Schema.object [] [] (some (.str "User"))
    let order := Schema.object [] [] (some (.str "order_item"))
    let rows := Schema.array (.array order none) none
    let ps : List (RawText × Schema) := [("parent", user), ("rows", rows), ("first", order)]
    let refs : List (RawText × String) := [("order_item", "ApiOrderItem")]
    g.writer.references (.str "User") (.object ps [] none) = .ok refs ∧
      (refs.map (·.1)).Nodup ∧
      (∀ x : RawText, x ∈ refs.map (·.1) ↔ x ≠ "User" ∧ ∃ p ∈ ps, p.2.Mentions (.str x)) ∧
      g.writer.typeOf "ApiUser" rows = .ok "ApiOrderItem[][]" := by
  intro g user order rows ps refs
  have hrefs : g.writer.references (.str "User") (.object ps [] none) = .ok refs := by
    decide +kernel
  obtain ⟨hnodup, -, hmem, htypes⟩ := (g.references_agree "User" ps [] none).2 refs hrefs
  refine ⟨hrefs, hnodup, hmem, ?_⟩
  have hrows := htypes "order_item" "ApiOrderItem" (by simp [refs]) ("rows", rows) (by simp [ps])
    2 [] [] rfl "ApiUser"
  exact hrows.2.trans (by decide +kernel)

end DtoForge
