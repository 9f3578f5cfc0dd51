import DtoForge.Proofs.Registry.Histories

/-! # Refusals of a registry — what a refused registration leaves behind

A registration is refused for what was given in place of a generator, before anything is written, or
for an alias that leads elsewhere already, after the language and the aliases before it were written.
The second kind leaves a registry that has changed: nothing takes back what was registered. -/

namespace DtoForge.Registry

variable {α : Type}

/-- A name that cannot become an alias of a language, and the refusal that it meets: it is the key of
another language, or an alias of one. -/
inductive Conflict (r : Registry α) (key name : String) : RegistryError → Prop where
  | language (hname : name.lowered ≠ key) (hlanguage : r.generators.has name.lowered) :
      Conflict r key name (.aliasIsLanguage name)
  | taken {other : String} (hname : name.lowered ≠ key)
      (halias : r.aliases.get? name.lowered = some other) (hother : other ≠ key) :
      Conflict r key name (.aliasTaken name other)

theorem conflict_of_addAlias {key name : String} {replace : Bool} {r : Registry α}
    {e : RegistryError} (h : addAlias key replace r name = .error e) :
    replace = false ∧ Conflict r key name e := by
  rw [addAlias] at h
  by_cases hname : name.lowered = key
  · rw [if_pos (beq_iff_eq.mpr hname)] at h
    cases h
  · rw [if_neg (by simpa using hname)] at h
    split at h
    next hlanguage =>
      rw [Bool.and_eq_true, Bool.not_eq_true'] at hlanguage
      obtain rfl := Except.error.inj h
      exact ⟨hlanguage.1, .language hname hlanguage.2⟩
    next =>
      split at h
      next other halias =>
        split at h
        next hother =>
          rw [Bool.and_eq_true, Bool.not_eq_true', bne_iff_ne] at hother
          obtain rfl := Except.error.inj h
          exact ⟨hother.1, .taken hname halias hother.2⟩
        next => cases h
      next => cases h

/-- The names of a registration lead to its language, and every other name leads where it led. -/
theorem get?_aliases_extended (r : Registry α) (key : String) (g : α) (names : List String)
    (name : String) :
    (r.extended key g names).aliases.get? name =
      if name ∈ names.map String.lowered ∧ name ≠ key then some key else r.aliases.get? name := by
  have hpoints : ∀ s : Registry α, (names.foldl (point key) s).aliases.get? name =
      if name ∈ names.map String.lowered ∧ name ≠ key then some key else s.aliases.get? name := by
    induction names with
    | nil => exact fun _ => rfl
    | cons first names ih =>
        intro s
        rw [List.foldl_cons, ih, point]
        by_cases hfirst : first.lowered = key
        · have hmem : (name ∈ (first :: names).map String.lowered ∧ name ≠ key) ↔
              name ∈ names.map String.lowered ∧ name ≠ key := by
            rw [List.map_cons, List.mem_cons, hfirst]
            tauto
          rw [if_pos hfirst]
          simp only [hmem]
        · simp only [if_neg hfirst, Entries.get?_put, List.map_cons, List.mem_cons]
          by_cases hname : name = first.lowered
          · subst hname
            simp [hfirst]
          · simp [hname, Ne.symm hname]
  exact hpoints _

/-- The names that a registration has written cause no conflict with later ones. -/
theorem Conflict.of_extended {r : Registry α} {key name : String} {g : α} {names : List String}
    {e : RegistryError} (h : Conflict (r.extended key g names) key name e) :
    Conflict r key name e := by
  cases h with
  | language hname hlanguage =>
      rw [extended_generators, Entries.has_put] at hlanguage
      exact .language hname (hlanguage.resolve_left (Ne.symm hname))
  | taken hname halias hother =>
      rw [get?_aliases_extended] at halias
      split at halias
      · exact absurd (Option.some.inj halias).symm hother
      · exact .taken hname halias hother

/-- **A refused registration changes nothing only if what it was given is no generator.** Otherwise
an alias leads elsewhere, and the language, which is new, and the aliases before that one stay
registered. -/
theorem register_refused {r r' : Registry α} {language : String} {generator : Option α}
    {aliases : Json} {replace : Bool} {e : RegistryError}
    (h : r.register language generator aliases replace = (r', .error e)) (he : e.isExpected) :
    (r' = r ↔ generator = none) ∧
    (generator = none ∨ ∃ (g : α) (names : List RawText) (refused : RawText) (rest : List Json),
      generator = some g ∧ replace = false ∧ language.lowered ∉ r.languages ∧
      aliasValues aliases = .ok (names.map .str ++ .str refused :: rest) ∧
      Conflict r language.lowered refused.legible e ∧
      r'.generators = r.generators ++ [(language.lowered, g)] ∧
      ∀ name, r'.aliases.get? name =
        if name ∈ (names.map RawText.legible).map String.lowered ∧ name ≠ language.lowered then
          some language.lowered
        else r.aliases.get? name) := by
  have hend := registration_register r language generator aliases replace
  rw [h] at hend
  cases hend with
  | notGenerator => exact ⟨⟨fun _ => rfl, fun _ => rfl⟩, .inl rfl⟩
  | malformed => cases he
  | @stopped g names refused rest e hnew hvalues hrefused =>
      cases refused with
      | str refused =>
          obtain ⟨hreplace, hconflict⟩ := conflict_of_addAlias hrefused
          have hfresh := hnew hreplace
          have hgenerators :=
            extended_generators r language.lowered g (names.map RawText.legible)
          rw [Entries.put_of_not_has hfresh] at hgenerators
          refine ⟨⟨fun hsame => ?_, nofun⟩, .inr ⟨g, names, refused, rest, rfl, hreplace, ?_, hvalues,
            hconflict.of_extended, hgenerators, get?_aliases_extended r _ g _⟩⟩
          · rw [hsame] at hgenerators
            simp at hgenerators
          · rw [mem_languages_iff, hfresh]
            exact nofun
      -- A value that is no text is refused by the text operation, not by the registry.
      | _ => cases hrefused; cases he

/-- Refused at the second of three aliases: the language and the first alias stay. -/
theorem register_refused_golang :
    let r := after [.register (.str "typescript") (some Target.typescript) (.list [.str "ts"]) false]
    let aliases := Json.list [.str "GoLang", .str "TS", .str "g"]
    let left : Registry :=
      { generators := [("typescript", .typescript), ("go", .go)]
        aliases := [("ts", "typescript"), ("golang", "go")] }
    let e := RegistryError.aliasTaken "TS" "typescript"
    r.register "Go" (some .go) aliases = (left, .error e) ∧ e.isExpected ∧
      (left = r ↔ some Target.go = none) ∧
      (some Target.go = none ∨
        ∃ (g : Target) (names : List RawText) (refused : RawText) (rest : List Json),
        some Target.go = some g ∧ false = false ∧ "Go".lowered ∉ r.languages ∧
        aliasValues aliases = .ok (names.map .str ++ .str refused :: rest) ∧
        Conflict r "Go".lowered refused.legible e ∧
        left.generators = r.generators ++ [("Go".lowered, g)] ∧
        ∀ name, left.aliases.get? name =
          if name ∈ (names.map RawText.legible).map String.lowered ∧ name ≠ "Go".lowered then
            some "Go".lowered
          else r.aliases.get? name) := by
  intro r aliases left e
  have hrefused : r.register "Go" (some .go) aliases = (left, .error e) := rfl
  have hexpected : e.isExpected := rfl
  exact ⟨hrefused, hexpected, register_refused hrefused hexpected⟩

/-- A refused registration can leave a language that was not there before. -/
theorem refused_language_registered :
    let r := after [.register (.str "typescript") (some Target.typescript) (.list [.str "ts"]) false]
    let answer := r.register "go" (some .go) (.list [.str "ts"])
    let e := RegistryError.aliasTaken "ts" "typescript"
    answer.2 = .error e ∧ e.isExpected ∧ "go" ∉ r.languages ∧ "go" ∈ answer.1.languages := by
  intro r answer e
  refine ⟨rfl, rfl, ?_, ?_⟩
  · rw [mem_languages_iff]
    decide +kernel
  · rw [mem_languages_iff]
    decide +kernel

end DtoForge.Registry
