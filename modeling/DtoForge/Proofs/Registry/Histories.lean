import DtoForge.Registry
import DtoForge.Proofs.Json.Entries
import DtoForge.Proofs.Steps
import DtoForge.Proofs.Unicode.Lower

/-! # Histories of a registry — no name leads nowhere

A call registers a language or removes one, and a registration may stop halfway with a refusal. A
registration puts its language in place before the first alias, and a removal takes the aliases of
its language along. So after any calls on a new registry every alias leads to a registered language,
and what the registry says of a name agrees: it is supported exactly if it resolves, and what it
resolves to is the key of a language with a generator.

What a registration can do is said once, in `Registration`; everything else is read off there. -/

namespace DtoForge.Registry

variable {α : Type}

/-! ## What a registration does -/

/-- The values that a registration goes through as aliases. -/
def aliasValues (aliases : Json) : Except ShapeError (List Json) :=
  match aliases.given? with
  | none => .ok []
  | some v => v.elements

/-- The registry with a name that points at a language key; the key itself needs none. -/
def point (key : String) (r : Registry α) (name : String) : Registry α :=
  if name.lowered = key then r else { r with aliases := r.aliases.put name.lowered key }

/-- The registry with a generator for a language key and names that point at it. -/
def extended (r : Registry α) (key : String) (g : α) (names : List String) : Registry α :=
  names.foldl (point key) { r with generators := r.generators.put key g }

@[simp] theorem point_generators (key : String) (r : Registry α) (name : String) :
    (r.point key name).generators = r.generators := by
  rw [point]
  split <;> rfl

/-- Names do not touch the generators. -/
@[simp] theorem extended_generators (r : Registry α) (key : String) (g : α) (names : List String) :
    (r.extended key g names).generators = r.generators.put key g := by
  have hpoints : ∀ s : Registry α, (names.foldl (point key) s).generators = s.generators := by
    induction names with
    | nil => exact fun _ => rfl
    | cons name names ih =>
        intro s
        rw [List.foldl_cons, ih, point_generators]
  exact hpoints _

/-- How a registration can end: the registry it leaves and its answer. -/
inductive Registration (r : Registry α) (language : String) (aliases : Json) (replace : Bool) :
    Option α → Registry α × Except RegistryError Unit → Prop where
  /-- What was given is no generator. -/
  | notGenerator : Registration r language aliases replace none (r, .error .notGenerator)
  /-- The language is there already and is not to be replaced. -/
  | kept {g : α} (hkey : r.generators.has language.lowered) (hreplace : replace = false) :
      Registration r language aliases replace (some g) (r, .ok ())
  /-- All aliases are registered. -/
  | complete {g : α} {names : List RawText}
      (hvalues : aliasValues aliases = .ok (names.map .str)) :
      Registration r language aliases replace (some g)
        (r.extended language.lowered g (names.map RawText.legible), .ok ())
  /-- The aliases are no collection. -/
  | malformed {g : α} {cause : ShapeError} :
      Registration r language aliases replace (some g)
        (r.extended language.lowered g [], .error (.plain (.options (.shape cause))))
  /-- An alias is refused; those before it are registered. -/
  | stopped {g : α} {names : List RawText} {refused : Json} {rest : List Json} {e : RegistryError}
      (hnew : replace = false → r.generators.has language.lowered = false)
      (hvalues : aliasValues aliases = .ok (names.map .str ++ refused :: rest))
      (hrefused : (languageText refused >>= addAlias language.lowered replace
        (r.extended language.lowered g (names.map RawText.legible))) = .error e) :
      Registration r language aliases replace (some g)
        (r.extended language.lowered g (names.map RawText.legible), .error e)

/-- An alias that is not refused points at the language; that is all that happens to the registry.
-/
theorem eq_point_of_addAlias {key name : String} {replace : Bool} {r s : Registry α}
    (h : addAlias key replace r name = .ok s) : s = r.point key name := by
  rw [addAlias] at h
  rw [point]
  by_cases hkey : name.lowered = key
  · rw [if_pos (beq_iff_eq.mpr hkey)] at h
    rw [if_pos hkey]
    exact (Except.ok.inj h).symm
  · rw [if_neg (by simpa using hkey)] at h
    rw [if_neg hkey]
    split at h
    · cases h
    · split at h
      · split at h
        · cases h
        · exact (Except.ok.inj h).symm
      · exact (Except.ok.inj h).symm

/-- Aliases are registered one by one, all of them or up to one that is refused. -/
theorem addAliases_cases (key : String) (replace : Bool) (r : Registry α) (values : List Json) :
    (∃ names : List RawText, values = names.map .str ∧
      addAliases key replace r values =
        ((names.map RawText.legible).foldl (point key) r, .ok ())) ∨
    ∃ (names : List RawText) (refused : Json) (rest : List Json) (e : RegistryError),
      values = names.map .str ++ refused :: rest ∧
      (languageText refused >>= addAlias key replace
        ((names.map RawText.legible).foldl (point key) r)) = .error e ∧
      addAliases key replace r values =
        ((names.map RawText.legible).foldl (point key) r, .error e) := by
  induction values generalizing r with
  | nil => exact .inl ⟨[], rfl, rfl⟩
  | cons v rest ih =>
      rw [addAliases]
      cases hstep : languageText v >>= addAlias key replace r with
      | error e => exact .inr ⟨[], v, rest, e, rfl, hstep, rfl⟩
      | ok s =>
          obtain ⟨text, htext, hadd⟩ := Steps.exists_of_bind_eq_ok hstep
          obtain ⟨name, rfl, rfl⟩ : ∃ name : RawText, v = .str name ∧ name.legible = text := by
            cases v <;> cases htext
            exact ⟨_, rfl, rfl⟩
          obtain rfl := eq_point_of_addAlias hadd
          obtain ⟨names, rfl, hall⟩ | ⟨names, refused, rest, e, rfl, hrefused, hall⟩ :=
            ih (r.point key name.legible)
          · exact .inl ⟨name :: names, rfl, hall⟩
          · exact .inr ⟨name :: names, refused, rest, e, rfl, hrefused, hall⟩

section New

variable {r : Registry α} {language : String} {aliases : Json} {replace : Bool}

/-- Aliases that are no collection stop a registration right behind its language. -/
theorem register_of_error (hnew : ¬ (r.generators.has language.lowered && !replace) = true)
    {g : α} {cause : ShapeError} (h : aliasValues aliases = .error cause) :
    r.register language (some g) aliases replace =
      (r.extended language.lowered g [], .error (.plain (.options (.shape cause)))) := by
  rw [aliasValues] at h
  rw [register, if_neg hnew]
  cases hgiven : aliases.given? with
  | none =>
      rw [hgiven] at h
      cases h
  | some v =>
      rw [hgiven] at h
      simp only [h]
      rfl

/-- Otherwise the language is put in place and the aliases follow one by one. -/
theorem register_of_ok (hnew : ¬ (r.generators.has language.lowered && !replace) = true)
    {g : α} {values : List Json} (h : aliasValues aliases = .ok values) :
    r.register language (some g) aliases replace =
      addAliases language.lowered replace (r.extended language.lowered g []) values := by
  rw [aliasValues] at h
  rw [register, if_neg hnew]
  cases hgiven : aliases.given? with
  | none =>
      rw [hgiven] at h
      obtain rfl : [] = values := Except.ok.inj h
      rfl
  | some v =>
      rw [hgiven] at h
      simp only [h]
      rfl

end New

/-- Every registration ends in one of these ways. -/
theorem registration_register (r : Registry α) (language : String) (generator : Option α)
    (aliases : Json) (replace : Bool) :
    Registration r language aliases replace generator
      (r.register language generator aliases replace) := by
  cases generator with
  | none => exact .notGenerator
  | some g =>
      by_cases hkept : r.generators.has language.lowered && !replace
      · have hregister : r.register language (some g) aliases replace = (r, .ok ()) := if_pos hkept
        rw [Bool.and_eq_true, Bool.not_eq_true'] at hkept
        rw [hregister]
        exact .kept hkept.1 hkept.2
      · cases hgiven : aliasValues aliases with
        | error cause =>
            rw [register_of_error hkept hgiven]
            exact .malformed
        | ok values =>
            rw [register_of_ok hkept hgiven]
            obtain ⟨names, rfl, hall⟩ | ⟨names, refused, rest, e, rfl, hrefused, hall⟩ :=
              addAliases_cases language.lowered replace (r.extended language.lowered g []) values
            · rw [hall]
              exact .complete hgiven
            · rw [hall]
              refine .stopped ?_ hgiven hrefused
              rintro rfl
              simpa using hkept

/-! ## Calls -/

/-- A call on a registry. Any value can stand where the name of a language is wanted. -/
inductive Call (α : Type) where
  | register (language : Json) (generator : Option α) (aliases : Json) (replace : Bool)
  | unregister (language : Json)

/-- The registry after a call, and the refusal if there is one. -/
def Call.perform (r : Registry α) : Call α → Registry α × Except RegistryError Unit
  | .register _ none _ _ => (r, .error .notGenerator)
  | .register language (some g) aliases replace =>
    match languageText language with
    | .ok name => r.register name (some g) aliases replace
    | .error e => (r, .error e)
  | .unregister language =>
    match languageText language with
    | .ok name => (r.unregister name, .ok ())
    | .error e => (r, .error e)

/-- The registry after calls on a new one, the refused calls among them. -/
def after (calls : List (Call α)) : Registry α :=
  calls.foldl (fun r c => (c.perform r).1) {}

/-- What every call keeps: language keys are in lower case, and an alias leads to one of them. -/
structure Intact (r : Registry α) : Prop where
  lowered_eq : ∀ key, r.generators.has key → key.lowered = key
  leads : ∀ a ∈ r.aliases, r.generators.has a.2

namespace Intact

theorem new : Intact ({} : Registry α) where
  lowered_eq := nofun
  leads := nofun

theorem point {r : Registry α} (h : Intact r) {key : String} (hkey : r.generators.has key)
    (name : String) : Intact (r.point key name) where
  lowered_eq := by
    rw [point_generators]
    exact h.lowered_eq
  leads := by
    intro a ha
    rw [point_generators]
    rw [Registry.point] at ha
    split at ha
    · exact h.leads a ha
    · obtain rfl | ha := Entries.mem_of_mem_put ha
      · exact hkey
      · exact h.leads a ha

/-- A registration keeps it, for the language is there before the names that point at it. -/
theorem extended {r : Registry α} (h : Intact r) {key : String} (hkey : key.lowered = key) (g : α)
    (names : List String) : Intact (r.extended key g names) := by
  have hstart : Intact { r with generators := r.generators.put key g } := by
    constructor
    · intro k hk
      obtain rfl | hk := Entries.has_put.mp hk
      · exact hkey
      · exact h.lowered_eq k hk
    · exact fun a ha => Entries.has_put.mpr (.inr (h.leads a ha))
  have hthere : (r.generators.put key g).has key := Entries.has_put.mpr (.inl rfl)
  -- The names come after the language, so each of them finds its key.
  have hpoints : ∀ s : Registry α, Intact s → s.generators.has key →
      Intact (names.foldl (Registry.point key) s) := by
    induction names with
    | nil => exact fun _ hs _ => hs
    | cons name names ih =>
        intro s hs hskey
        refine ih _ (hs.point hskey name) ?_
        rw [point_generators]
        exact hskey
  exact hpoints _ hstart hthere

/-- However a registration ends, it is kept. -/
theorem register {r : Registry α} (h : Intact r) (language : String) (generator : Option α)
    (aliases : Json) (replace : Bool) :
    Intact (r.register language generator aliases replace).1 := by
  have hkey : language.lowered.lowered = language.lowered := String.lowered_lowered language
  have hend := registration_register r language generator aliases replace
  generalize r.register language generator aliases replace = answer at hend ⊢
  cases hend with
  | notGenerator => exact h
  | kept => exact h
  | complete => exact h.extended hkey _ _
  | malformed => exact h.extended hkey _ _
  | stopped => exact h.extended hkey _ _

/-- A removal takes the names of its language along. -/
theorem unregister {r : Registry α} (h : Intact r) (language : String) :
    Intact (r.unregister language) where
  lowered_eq := fun key hkey => h.lowered_eq key (Entries.has_erase.mp hkey).2
  leads := by
    intro a ha
    obtain ⟨ha, hother⟩ := List.mem_filter.mp ha
    exact Entries.has_erase.mpr ⟨Ne.symm (bne_iff_ne.mp hother), h.leads a ha⟩

theorem perform {r : Registry α} (h : Intact r) (c : Call α) : Intact (c.perform r).1 := by
  match c with
  | .register _ none _ _ => exact h
  | .register language (some g) aliases replace =>
      rw [Call.perform]
      split
      · exact h.register _ _ _ _
      · exact h
  | .unregister language =>
      rw [Call.perform]
      split
      · exact h.unregister _
      · exact h

/-- So it holds after any calls, refused ones among them. -/
theorem after (calls : List (Call α)) : Intact (after calls) := by
  have hrun : ∀ r : Registry α, Intact r →
      Intact (calls.foldl (fun r c => (c.perform r).1) r) := by
    induction calls with
    | nil => exact fun _ hr => hr
    | cons c calls ih => exact fun r hr => ih _ (hr.perform c)
  exact hrun _ new

end Intact

/-! ## Names -/

variable {r : Registry α} {name key : String}

/-- The languages are the keys with a generator. -/
theorem mem_languages_iff : key ∈ r.languages ↔ r.generators.has key := by
  rw [languages, List.mem_mergeSort, Entries.mem_keys_iff]

theorem resolve_of_has (h : r.generators.has name.lowered) : r.resolve name = .ok name.lowered :=
  if_pos h

theorem resolve_of_not_has (h : r.generators.has name.lowered = false) :
    r.resolve name = match r.aliases.get? name.lowered with
      | some language => .ok language
      | none => .error (.unsupported name r.languages) :=
  if_neg (Bool.eq_false_iff.mp h)

/-- What is supported resolves, on any registry. -/
theorem supports_iff_exists_resolve : r.supports name ↔ ∃ key, r.resolve name = .ok key := by
  rw [supports, Bool.or_eq_true]
  by_cases hhas : r.generators.has name.lowered
  · simp [hhas, resolve_of_has hhas]
  · rw [Bool.not_eq_true] at hhas
    have halias : r.aliases.has name.lowered ↔ ∃ key, r.aliases.get? name.lowered = some key :=
      Entries.has_iff_exists_get?
    rw [resolve_of_not_has hhas, halias]
    cases r.aliases.get? name.lowered <;> simp [hhas]

/-- What a name resolves to is a language key with a generator. -/
theorem Intact.has_of_resolve (h : r.Intact) (hname : r.resolve name = .ok key) :
    r.generators.has key := by
  by_cases hhas : r.generators.has name.lowered
  · rw [resolve_of_has hhas] at hname
    obtain rfl := Except.ok.inj hname
    exact hhas
  · rw [resolve_of_not_has (Bool.eq_false_iff.mpr hhas)] at hname
    split at hname
    next language halias =>
      obtain rfl := Except.ok.inj hname
      exact h.leads _ (Entries.mem_of_get? halias)
    next => cases hname

/-- A key that a name resolves to resolves to itself. -/
theorem Intact.resolve_resolved (h : r.Intact) (hname : r.resolve name = .ok key) :
    r.resolve key = .ok key := by
  have hhas := h.has_of_resolve hname
  have hlowered := h.lowered_eq key hhas
  rw [resolve_of_has (by rwa [hlowered]), hlowered]

theorem Intact.exists_find (h : r.Intact) (hname : r.resolve name = .ok key) :
    ∃ g, r.find name = .ok (key, g) := by
  obtain ⟨g, hg⟩ := Entries.has_iff_exists_get?.mp (h.has_of_resolve hname)
  refine ⟨g, ?_⟩
  rw [find, hname]
  simp only [bind, Except.bind, hg]
  rfl

/-- Options are never refused for a key without a generator. -/
theorem optionsFor_ne_dangling (files : Files.Tree) (key language : String) (choice : Choice)
    (k : String) : optionsFor files key language choice ≠ .error (.dangling k) := by
  have hloaded : ∀ loaded : Except ConfigError Options,
      (loaded.mapError fun e => if e.isConfiguration then .options language e else .plain e) ≠
        .error (RegistryError.dangling k) := by
    intro loaded
    cases loaded with
    | ok options => exact nofun
    | error e =>
        show Except.error (if e.isConfiguration then RegistryError.options language e
          else .plain e) ≠ _
        split <;> exact nofun
  match choice with
  | .exactly _ => exact nofun
  | .given (.str _) => exact hloaded _
  | .given (.object _) => exact hloaded _
  | .given .null => exact hloaded _
  | .given (.bool _) => exact nofun
  | .given (.int _) => exact nofun
  | .given (.float _) => exact nofun
  | .given (.list _) => exact nofun

theorem create_of_find {g : α} (h : r.find name = .ok (key, g)) (files : Files.Tree)
    (choice : Choice) :
    r.create files name choice = (optionsFor files key name choice).map (g, ·) := by
  rw [create, h]
  show (optionsFor files key name choice >>= fun options => .ok (g, options)) = _
  cases optionsFor files key name choice <;> rfl

/-- So a generator is missed under no key: a name that resolves has one, and any other is not
supported. -/
theorem Intact.create_ne_dangling (h : r.Intact) (files : Files.Tree) (name : String)
    (choice : Choice) (k : String) : r.create files name choice ≠ .error (.dangling k) := by
  intro hfail
  cases hname : r.resolve name with
  | error e =>
      rw [create, find, hname] at hfail
      obtain rfl : e = .dangling k := Except.error.inj hfail
      by_cases hhas : r.generators.has name.lowered
      · rw [resolve_of_has hhas] at hname
        cases hname
      · rw [resolve_of_not_has (Bool.eq_false_iff.mpr hhas)] at hname
        split at hname <;> cases hname
  | ok key =>
      obtain ⟨g, hg⟩ := h.exists_find hname
      rw [create_of_find hg] at hfail
      cases hoptions : optionsFor files key name choice with
      | error e =>
          rw [hoptions] at hfail
          obtain rfl : e = .dangling k := Except.error.inj hfail
          exact optionsFor_ne_dangling files key name choice k hoptions
      | ok options =>
          rw [hoptions] at hfail
          cases hfail

/-- **After any calls on a new registry no name leads nowhere.** Every alias points at a registered
language; a name is supported exactly if it resolves; it resolves to a registered language, which
resolves to itself and has a generator; and no generator is missed under a key. -/
theorem after_aliases_registered (calls : List (Call α)) :
    (∀ a ∈ (after calls).aliases, a.2 ∈ (after calls).languages) ∧
    ∀ name,
      ((after calls).supports name ↔ ∃ key, (after calls).resolve name = .ok key) ∧
      (∀ key, (after calls).resolve name = .ok key →
        key ∈ (after calls).languages ∧ (after calls).resolve key = .ok key ∧
          ∃ g, (after calls).find name = .ok (key, g)) ∧
      ∀ files choice key, (after calls).create files name choice ≠ .error (.dangling key) := by
  have hintact : Intact (after calls) := Intact.after calls
  refine ⟨fun a ha => mem_languages_iff.mpr (hintact.leads a ha), fun name =>
    ⟨supports_iff_exists_resolve, fun key hname => ?_, fun files choice key => ?_⟩⟩
  · exact ⟨mem_languages_iff.mpr (hintact.has_of_resolve hname), hintact.resolve_resolved hname,
      hintact.exists_find hname⟩
  · exact hintact.create_ne_dangling files name choice key

/-- A registration refused at its second alias, an alias that hides a language, and the removal of
that language: its name now leads to the language of the alias. -/
theorem after_aliases_registered_hidden :
    let calls : List (Call Target) :=
      [.register (.str "TypeScript") (some .typescript) (.list [.str "ts"]) false,
        .register (.str "go") (some .go) (.list [.str "golang", .str "TS"]) false,
        .register (.str "java") (some .java) (.list [.str "Go"]) true, .unregister (.str "GO")]
    ("go", "java") ∈ (after calls).aliases ∧ "java" ∈ (after calls).languages ∧
      ((after calls).supports "gO" ↔ ∃ key, (after calls).resolve "gO" = .ok key) ∧
      (after calls).resolve "gO" = .ok "java" ∧ (after calls).resolve "java" = .ok "java" ∧
      ∃ g, (after calls).find "gO" = .ok ("java", g) := by
  intro calls
  have halias : ("go", "java") ∈ (after calls).aliases := by decide +kernel
  have hname : (after calls).resolve "gO" = .ok "java" := by rfl
  obtain ⟨haliases, hnames⟩ := after_aliases_registered calls
  obtain ⟨hsupports, hresolved, -⟩ := hnames "gO"
  obtain ⟨-, hagain, hfound⟩ := hresolved "java" hname
  exact ⟨halias, haliases _ halias, hsupports, hname, hagain, hfound⟩

end DtoForge.Registry
