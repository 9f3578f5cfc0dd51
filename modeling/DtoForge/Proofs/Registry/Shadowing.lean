import DtoForge.Proofs.Registry.Refusals

/-! # Shadowing — where names lead after a registration that replaces nothing

Such a registration refuses an alias that leads elsewhere already, so no alias moves a name that was
there (`find_of_addAliases`). The key of the language is looked for among the languages only, and
languages come before aliases: a language that is registered under an alias of another one takes
that name over, and this is the only name that moves. -/

namespace DtoForge.Registry

variable {α : Type} {r r' : Registry α} {language key name : String} {g : α}

theorem find_eq_ok_iff :
    r.find name = .ok (key, g) ↔ r.resolve name = .ok key ∧ r.generators.get? key = some g := by
  constructor
  · intro h
    obtain ⟨key', hresolve, hfound⟩ := Steps.exists_of_bind_eq_ok h
    split at hfound
    next g' hg =>
      cases hfound
      exact ⟨hresolve, hg⟩
    next => cases hfound
  · rintro ⟨hresolve, hg⟩
    rw [find, hresolve]
    simp only [bind, Except.bind, hg]
    rfl

/-! ## Aliases -/

/-- An alias that is not refused leads nowhere yet, or to the language that it is registered for. -/
theorem eq_of_addAlias (h : addAlias language false r name = .ok r')
    (hname : name.lowered ≠ language)
    (halias : r.aliases.get? name.lowered = some key) : key = language := by
  rw [addAlias, if_neg (by simpa using hname)] at h
  split at h
  · cases h
  · simp only [halias] at h
    split at h
    next => cases h
    next hsame => simpa using hsame

/-- One more alias moves no name. -/
theorem resolve_of_addAlias {newAlias : String} (h : addAlias language false r newAlias = .ok r')
    (hname : r.resolve name = .ok key) : r'.resolve name = .ok key := by
  have hfree : newAlias.lowered ≠ language →
      r.aliases.get? newAlias.lowered = some key → key = language := eq_of_addAlias h
  obtain rfl := eq_point_of_addAlias h
  by_cases hhas : r.generators.has name.lowered
  · rw [resolve_of_has hhas] at hname
    rw [resolve_of_has (by rwa [point_generators]), hname]
  · rw [Bool.not_eq_true] at hhas
    rw [resolve_of_not_has hhas] at hname
    rw [resolve_of_not_has (by rwa [point_generators])]
    split at hname
    next language' halias =>
      obtain rfl := Except.ok.inj hname
      have hstill : (r.point language newAlias).aliases.get? name.lowered = some language' := by
        rw [point]
        split
        next => exact halias
        next hnew =>
          -- the name is the alias itself only if it led to this language before
          rw [Entries.get?_put]
          split
          next hsame => rw [hfree hnew (hsame ▸ halias)]
          next => exact halias
      simp only [hstill]
    next => cases hname

/-- Aliases that are all registered move no name. -/
theorem find_of_addAliases {values : List Json}
    (h : addAliases language false r values = (r', .ok ())) (hname : r.find name = .ok (key, g)) :
    r'.find name = .ok (key, g) := by
  induction values generalizing r with
  | nil =>
      obtain rfl := (Prod.mk.inj h).1
      exact hname
  | cons v values ih =>
      rw [addAliases] at h
      split at h
      next => cases (Prod.mk.inj h).2
      next s hstep =>
        obtain ⟨newAlias, -, hadd⟩ := Steps.exists_of_bind_eq_ok hstep
        obtain ⟨hresolve, hg⟩ := find_eq_ok_iff.mp hname
        refine ih h (find_eq_ok_iff.mpr ⟨resolve_of_addAlias hadd hresolve, ?_⟩)
        rwa [eq_point_of_addAlias hadd, point_generators]

/-! ## Registrations -/

/-- A registration of a new language puts the language in place and then adds its aliases. -/
theorem exists_addAliases_of_register {aliases : Json}
    (hnew : r.generators.has language.lowered = false)
    (h : r.register language (some g) aliases = (r', .ok ())) :
    ∃ values, addAliases language.lowered false
      { r with generators := r.generators.put language.lowered g } values = (r', .ok ()) := by
  have hreplace : ¬ (r.generators.has language.lowered && !false) = true := by simp [hnew]
  cases hvalues : aliasValues aliases with
  | error cause =>
      rw [register_of_error hreplace hvalues] at h
      cases (Prod.mk.inj h).2
  | ok values =>
      rw [register_of_ok hreplace hvalues] at h
      exact ⟨values, h⟩

/-- A language that is put in place takes no name but its key. -/
theorem resolve_put (hname : name.lowered ≠ language) (h : r.resolve name = .ok key) :
    ({ r with generators := r.generators.put language g } : Registry α).resolve name = .ok key := by
  by_cases hhas : r.generators.has name.lowered
  · rw [resolve_of_has hhas] at h
    rw [resolve_of_has (Entries.has_put.mpr (.inr hhas)), h]
  · have hstill : (r.generators.put language g).has name.lowered = false := by
      rw [Bool.eq_false_iff, ne_eq, Entries.has_put]
      rintro (heq | hthere)
      · exact hname heq.symm
      · exact hhas hthere
    rw [resolve_of_not_has (Bool.eq_false_iff.mpr hhas)] at h
    rw [resolve_of_not_has hstill]
    split at h
    next language' halias =>
      simp only [halias]
      exact h
    next => cases h

/-- **A registration that replaces nothing moves no name but its own.** After it a name leads to the
language and the generator that it led to before, unless it is the key of the registered language and
was an alias of another one. That name leads to the new language and its generator. -/
theorem find_register (calls : List (Call α)) {generator : Option α} {aliases : Json}
    (h : (after calls).register language generator aliases = (r', .ok ()))
    (hname : (after calls).resolve name = .ok key) :
    ∃ g, (after calls).find name = .ok (key, g) ∧
      (r'.find name = .ok (key, g) ↔ (name.lowered = language.lowered → key = language.lowered)) ∧
      (name.lowered = language.lowered → key ≠ language.lowered →
        ∃ g', generator = some g' ∧ r'.find name = .ok (language.lowered, g')) := by
  have hintact : Intact (after calls) := Intact.after calls
  generalize after calls = r at h hname hintact ⊢
  obtain ⟨g, hg⟩ := hintact.exists_find hname
  refine ⟨g, hg, ?_⟩
  cases generator with
  | none => cases (Prod.mk.inj h).2
  | some g' =>
      by_cases hthere : r.generators.has language.lowered
      · -- the language is kept as it is, and a name that is its key led to it before
        have hkept : r.register language (some g') aliases = (r, .ok ()) :=
          if_pos (by rw [hthere]; rfl)
        obtain rfl := (Prod.mk.inj (hkept.symm.trans h)).1
        have hown : name.lowered = language.lowered → key = language.lowered := by
          intro heq
          rw [resolve_of_has (heq ▸ hthere)] at hname
          exact (Except.ok.inj hname).symm.trans heq
        exact ⟨⟨fun _ => hown, fun _ => hg⟩, fun heq hne => absurd (hown heq) hne⟩
      · have hother : key ≠ language.lowered := by
          rintro rfl
          exact hthere (hintact.has_of_resolve hname)
        obtain ⟨values, hvalues⟩ :=
          exists_addAliases_of_register (Bool.eq_false_iff.mpr hthere) h
        by_cases hown : name.lowered = language.lowered
        · have htaken : r'.find name = .ok (language.lowered, g') := by
            apply find_of_addAliases hvalues
            rw [find_eq_ok_iff, resolve_of_has (Entries.has_put.mpr (.inl hown.symm)), hown]
            exact ⟨rfl, by rw [Entries.get?_put, if_pos rfl]⟩
          refine ⟨⟨fun hkeeps => ?_, fun heq => absurd (heq hown) hother⟩,
            fun _ _ => ⟨g', rfl, htaken⟩⟩
          rw [htaken] at hkeeps
          exact fun _ => (Prod.mk.inj (Except.ok.inj hkeeps)).1.symm
        · have hkeeps : r'.find name = .ok (key, g) := by
            apply find_of_addAliases hvalues
            rw [find_eq_ok_iff] at hg ⊢
            refine ⟨resolve_put hown hg.1, ?_⟩
            rw [Entries.get?_put, if_neg hother.symm, hg.2]
          exact ⟨⟨fun _ heq => absurd heq hown, fun _ => hkeeps⟩, fun heq => absurd heq hown⟩

/-- Go is registered under a key that is new, and the alias of another language still leads there. -/
theorem find_register_go :
    let calls : List (Call Target) :=
      [.register (.str "TypeScript") (some .typescript) (.list [.str "ts"]) false]
    let r' : Registry :=
      { generators := [("typescript", .typescript), ("go", .go)]
        aliases := [("ts", "typescript"), ("golang", "go")] }
    (after calls).register "Go" (some .go) (.list [.str "GoLang"]) = (r', .ok ()) ∧
      (after calls).resolve "Ts" = .ok "typescript" ∧
      ∃ g, (after calls).find "Ts" = .ok ("typescript", g) ∧
        (r'.find "Ts" = .ok ("typescript", g) ↔
          ("Ts".lowered = "Go".lowered → "typescript" = "Go".lowered)) ∧
        ("Ts".lowered = "Go".lowered → "typescript" ≠ "Go".lowered →
          ∃ g', some Target.go = some g' ∧ r'.find "Ts" = .ok ("Go".lowered, g')) := by
  intro calls r'
  have hregister :
      (after calls).register "Go" (some .go) (.list [.str "GoLang"]) = (r', .ok ()) := rfl
  have hname : (after calls).resolve "Ts" = .ok "typescript" := rfl
  exact ⟨hregister, hname, find_register calls hregister hname⟩

/-- A language registered under an alias of another one takes that name over. -/
theorem alias_taken_by_register :
    let r := after [.register (.str "typescript") (some Target.typescript) (.list [.str "ts"]) false]
    let answer := r.register "ts" (some .go)
    answer.2 = .ok () ∧ r.find "ts" = .ok ("typescript", .typescript) ∧
      answer.1.find "ts" = .ok ("ts", .go) :=
  ⟨rfl, rfl, rfl⟩

end DtoForge.Registry
