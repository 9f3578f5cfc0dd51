import Mathlib.Data.List.Forall2

/-! # Steps — computations that can fail, one after the other

A sequence of steps succeeds exactly if every step does, and what it gives comes from the steps. -/

namespace DtoForge.Steps

variable {α β ε : Type}

/-- When two steps succeed, the first gave something from which the second gave the result. -/
theorem exists_of_bind_eq_ok {x : Except ε α} {f : α → Except ε β} {b : β}
    (h : (x >>= f) = .ok b) : ∃ a, x = .ok a ∧ f a = .ok b := by
  cases x with
  | error e => cases h
  | ok a => exact ⟨a, rfl, h⟩

/-- A result that was changed is a result. -/
theorem exists_of_map_eq_ok {x : Except ε α} {f : α → β} {b : β} (h : x.map f = .ok b) :
    ∃ a, x = .ok a ∧ f a = b := by
  cases x with
  | error e => cases h
  | ok a => exact ⟨a, rfl, Except.ok.inj h⟩

theorem exists_map_eq_ok_iff {x : Except ε α} {f : α → β} :
    (∃ b, x.map f = .ok b) ↔ ∃ a, x = .ok a := by
  constructor
  · rintro ⟨b, h⟩
    obtain ⟨a, ha, -⟩ := exists_of_map_eq_ok h
    exact ⟨a, ha⟩
  · rintro ⟨a, rfl⟩
    exact ⟨f a, rfl⟩

/-- Refusals stay as they are when results change. -/
theorem map_eq_error_iff {x : Except ε α} {f : α → β} {e : ε} :
    x.map f = .error e ↔ x = .error e := by
  cases x with
  | error e' => simp [Except.map]
  | ok a => exact iff_of_false nofun nofun

theorem exists_bind_eq_ok_iff {x : Except ε α} {f : α → Except ε β} :
    (∃ b, (x >>= f) = .ok b) ↔ ∃ a, x = .ok a ∧ ∃ b, f a = .ok b := by
  cases x with
  | error e => exact iff_of_false nofun nofun
  | ok a => simp only [Except.ok.injEq, exists_eq_left']; rfl

/-- Another wording of refusals leaves the results. -/
theorem eq_ok_of_mapError {ε' : Type} {x : Except ε α} {f : ε → ε'} {a : α}
    (h : x.mapError f = .ok a) : x = .ok a := by
  cases x with
  | error e => cases h
  | ok a' => rw [Except.ok.inj h]

theorem mapError_eq_ok_iff {ε' : Type} {x : Except ε α} {f : ε → ε'} {a : α} :
    x.mapError f = .ok a ↔ x = .ok a := by
  refine ⟨eq_ok_of_mapError, ?_⟩
  rintro rfl
  rfl

theorem exists_pure (a : α) : ∃ b, (pure a : Except ε α) = .ok b :=
  ⟨a, rfl⟩

/-- Another wording of the refusals of two steps in a row. -/
theorem mapError_bind {ε' : Type} (x : Except ε α) (f : α → Except ε β) (g : ε → ε') :
    (x >>= f).mapError g = x.mapError g >>= fun a => (f a).mapError g := by
  cases x <;> rfl

theorem exists_eq_ok {x : Except ε α} (h : x.isOk) : ∃ a, x = .ok a := by
  cases x with
  | error e => cases h
  | ok a => exact ⟨a, rfl⟩

/-- A step that succeeds hands its result and its state on. -/
theorem run_bind_of_ok {σ : Type} {x : ExceptT ε (StateM σ) α} {f : α → ExceptT ε (StateM σ) β}
    {s s' : σ} {a : α} (h : x.run.run s = (.ok a, s')) : (x >>= f).run.run s = (f a).run.run s' := by
  rw [ExceptT.run_bind, StateT.run_bind, h]
  rfl

theorem run_bind_of_error {σ : Type} {x : ExceptT ε (StateM σ) α} {f : α → ExceptT ε (StateM σ) β}
    {s s' : σ} {e : ε} (h : x.run.run s = (.error e, s')) :
    (x >>= f).run.run s = (.error e, s') := by
  rw [ExceptT.run_bind, StateT.run_bind, h]
  rfl

/-- A run that ends in a result went through its first step. -/
theorem exists_of_run_bind_eq_ok {σ : Type} {x : ExceptT ε (StateM σ) α}
    {f : α → ExceptT ε (StateM σ) β} {s s' : σ} {b : β} (h : (x >>= f).run.run s = (.ok b, s')) :
    ∃ a s₁, x.run.run s = (.ok a, s₁) ∧ (f a).run.run s₁ = (.ok b, s') := by
  rw [ExceptT.run_bind, StateT.run_bind] at h
  cases hx : x.run.run s with
  | mk outcome s₁ =>
      rw [hx] at h
      cases outcome with
      | ok a => exact ⟨a, s₁, rfl, h⟩
      | error e => cases h

/-- Whether a run ends in a result, and passes a check of the result and the state. -/
def passes {σ : Type} (run : Except ε α × σ) (check : α → σ → Bool) : Bool :=
  match run with
  | (.ok a, s) => check a s
  | (.error _, _) => false

theorem exists_of_passes {σ : Type} {run : Except ε α × σ} {check : α → σ → Bool}
    (h : passes run check = true) : ∃ a s, run = (.ok a, s) ∧ check a s = true := by
  obtain ⟨outcome, s⟩ := run
  cases outcome with
  | ok a => exact ⟨a, s, rfl, h⟩
  | error e => cases h

/-- Each step of a run that ends in results ran and gave its result. -/
theorem forall₂_of_run_mapM {σ : Type} {f : α → ExceptT ε (StateM σ) β} {as : List α} {bs : List β}
    {s s' : σ} (h : (as.mapM f).run.run s = (.ok bs, s')) :
    List.Forall₂ (fun a b => ∃ t t', (f a).run.run t = (.ok b, t')) as bs := by
  induction as generalizing bs s with
  | nil =>
      cases h
      exact .nil
  | cons a as ih =>
      rw [List.mapM_cons] at h
      obtain ⟨b, s₁, hb, h⟩ := exists_of_run_bind_eq_ok h
      obtain ⟨bs', s₂, hbs, h⟩ := exists_of_run_bind_eq_ok h
      cases h
      exact .cons ⟨s, s₁, hb⟩ (ih hbs)

section Items

variable {f : α → Except ε β} {as : List α}

/-- When all steps succeed, every item has its result and every result is that of an item. -/
theorem mem_of_mapM_eq_ok {bs : List β} (h : as.mapM f = .ok bs) :
    (∀ a ∈ as, ∃ b ∈ bs, f a = .ok b) ∧ ∀ b ∈ bs, ∃ a ∈ as, f a = .ok b := by
  induction as generalizing bs with
  | nil =>
      cases h
      exact ⟨by simp, by simp⟩
  | cons a as ih =>
      rw [List.mapM_cons] at h
      obtain ⟨b, ha, h⟩ := exists_of_bind_eq_ok h
      obtain ⟨bs', has, h⟩ := exists_of_bind_eq_ok h
      cases h
      obtain ⟨hitems, hresults⟩ := ih has
      refine ⟨List.forall_mem_cons.mpr ⟨⟨b, List.mem_cons_self, ha⟩, ?_⟩,
        List.forall_mem_cons.mpr ⟨⟨a, List.mem_cons_self, ha⟩, ?_⟩⟩
      · intro a' ha'
        obtain ⟨b', hb', hf⟩ := hitems a' ha'
        exact ⟨b', List.mem_cons_of_mem _ hb', hf⟩
      · intro b' hb'
        obtain ⟨a', ha', hf⟩ := hresults b' hb'
        exact ⟨a', List.mem_cons_of_mem _ ha', hf⟩

theorem exists_mapM_eq_ok (h : ∀ a ∈ as, ∃ b, f a = .ok b) : ∃ bs, as.mapM f = .ok bs := by
  induction as with
  | nil => exact ⟨[], rfl⟩
  | cons a as ih =>
      obtain ⟨⟨b, hb⟩, has⟩ := List.forall_mem_cons.mp h
      obtain ⟨bs, hbs⟩ := ih has
      exact ⟨b :: bs, by rw [List.mapM_cons, hb, hbs]; rfl⟩

theorem exists_mapM_eq_ok_iff : (∃ bs, as.mapM f = .ok bs) ↔ ∀ a ∈ as, ∃ b, f a = .ok b := by
  refine ⟨?_, exists_mapM_eq_ok⟩
  rintro ⟨bs, h⟩ a ha
  obtain ⟨b, -, hb⟩ := (mem_of_mapM_eq_ok h).1 a ha
  exact ⟨b, hb⟩

/-- Steps fail with what the first of them fails with that does not succeed. -/
theorem mapM_eq_error_iff {e : ε} : as.mapM f = .error e ↔
    ∃ before a after, as = before ++ a :: after ∧ (∀ b ∈ before, ∃ c, f b = .ok c) ∧
      f a = .error e := by
  induction as with
  | nil =>
      refine iff_of_false nofun ?_
      rintro ⟨before, a, after, h, -⟩
      cases before <;> cases h
  | cons a as ih =>
      rw [List.mapM_cons]
      cases ha : f a with
      | error e' =>
          constructor
          · intro h
            obtain rfl : e' = e := Except.error.inj h
            exact ⟨[], a, as, rfl, nofun, ha⟩
          · rintro ⟨before, a', after, h, hbefore, ha'⟩
            cases before with
            | nil =>
                cases h
                rw [Except.error.inj (ha.symm.trans ha')]
                rfl
            | cons b before =>
                cases h
                obtain ⟨c, hc⟩ := hbefore _ List.mem_cons_self
                cases ha.symm.trans hc
      | ok c =>
          have hrest : (do let cs ← as.mapM f; return c :: cs : Except ε (List β)) = .error e ↔
              as.mapM f = .error e := by
            cases as.mapM f with
            | error e' =>
                exact Iff.rfl
            | ok cs => exact iff_of_false nofun nofun
          refine hrest.trans (ih.trans ?_)
          constructor
          · rintro ⟨before, a', after, rfl, hbefore, ha'⟩
            exact ⟨a :: before, a', after, rfl,
              List.forall_mem_cons.mpr ⟨⟨c, ha⟩, hbefore⟩, ha'⟩
          · rintro ⟨before, a', after, h, hbefore, ha'⟩
            cases before with
            | nil =>
                cases h
                cases ha.symm.trans ha'
            | cons b before =>
                cases h
                exact ⟨before, a', after, rfl, (List.forall_mem_cons.mp hbefore).2, ha'⟩

end Items

/-- Results that are changed after all steps are changed after each. -/
theorem map_mapM {γ : Type} {m : Type → Type} [Monad m] [LawfulMonad m] (f : α → m β) (g : β → γ)
    (as : List α) : List.map g <$> as.mapM f = as.mapM fun a => g <$> f a := by
  induction as with
  | nil => simp
  | cons a as ih =>
      simp only [List.mapM_cons, map_bind, map_pure, List.map_cons, ← ih, bind_map_left]

/-! ## What steps fail with -/

section Failures

variable {P : ε → Prop} {x : Except ε α}

/-- Whatever a step fails with has a property. -/
def FailsWith (P : ε → Prop) (x : Except ε α) : Prop :=
  ∀ e, x = .error e → P e

theorem failsWith_iff : FailsWith P x ↔ (∃ a, x = .ok a) ∨ ∃ e, x = .error e ∧ P e := by
  cases x with
  | error e => simp [FailsWith]
  | ok a => simp [FailsWith]

theorem failsWith_ok (a : α) : FailsWith P (.ok a : Except ε α) :=
  nofun

theorem failsWith_error_iff {e : ε} : FailsWith P (.error e : Except ε α) ↔ P e := by
  simp [FailsWith]

theorem failsWith_error {e : ε} (h : P e) : FailsWith P (.error e : Except ε α) :=
  failsWith_error_iff.mpr h

theorem FailsWith.bind {f : α → Except ε β} (hx : FailsWith P x)
    (hf : ∀ a, x = .ok a → FailsWith P (f a)) : FailsWith P (x >>= f) := by
  cases x with
  | error e => exact failsWith_error (hx e rfl)
  | ok a => exact hf a rfl

theorem failsWith_bind_iff {f : α → Except ε β} (hf : ∀ a, FailsWith P (f a)) :
    FailsWith P (x >>= f) ↔ FailsWith P x := by
  refine ⟨?_, fun hx => hx.bind fun a _ => hf a⟩
  rintro h e rfl
  exact h e rfl

theorem FailsWith.map {f : α → β} (hx : FailsWith P x) : FailsWith P (x.map f) := by
  cases x with
  | error e => exact failsWith_error (hx e rfl)
  | ok a => exact failsWith_ok (f a)

theorem FailsWith.mapError {ε' : Type} {Q : ε' → Prop} {f : ε → ε'}
    (hx : FailsWith (fun e => Q (f e)) x) : FailsWith Q (x.mapError f) := by
  cases x with
  | error e => exact failsWith_error (hx e rfl)
  | ok a => exact failsWith_ok a

theorem FailsWith.of_mapError {ε' : Type} {Q : ε' → Prop} {f : ε → ε'}
    (h : FailsWith Q (x.mapError f)) : FailsWith (fun e => Q (f e)) x := by
  rintro e rfl
  exact h (f e) rfl

theorem failsWith_mapM {f : α → Except ε β} {as : List α} (h : ∀ a ∈ as, FailsWith P (f a)) :
    FailsWith P (as.mapM f) := by
  intro e he
  obtain ⟨before, a, after, rfl, -, ha⟩ := mapM_eq_error_iff.mp he
  exact h a (by simp) e ha

end Failures

/-! ## What runs yield -/

section Runs

variable {σ : Type} {Q : α → Prop} {P : ε → Prop} {x : ExceptT ε (StateM σ) α}

/-- Whatever state it starts from, a run gives a result with one property or fails with another. -/
def Yields (Q : α → Prop) (P : ε → Prop) (x : ExceptT ε (StateM σ) α) : Prop :=
  ∀ s, (∀ a, (x.run.run s).1 = .ok a → Q a) ∧ FailsWith P (x.run.run s).1

theorem yields_pure {a : α} (h : Q a) : Yields Q P (pure a : ExceptT ε (StateM σ) α) := by
  refine fun s => ⟨?_, failsWith_ok a⟩
  rintro _ ⟨⟩
  exact h

theorem yields_throw {e : ε} (h : P e) : Yields Q P (throw e : ExceptT ε (StateM σ) α) :=
  fun _ => ⟨nofun, failsWith_error h⟩

theorem yields_lift {y : Except ε α} (hy : FailsWith P y) :
    Yields (fun a => y = .ok a) P (ExceptT.mk (pure y) : ExceptT ε (StateM σ) α) :=
  fun _ => ⟨fun _ h => h, hy⟩

theorem Yields.bind {R : β → Prop} {f : α → ExceptT ε (StateM σ) β} (hx : Yields Q P x)
    (hf : ∀ a, Q a → Yields R P (f a)) : Yields R P (x >>= f) := by
  intro s
  obtain ⟨hok, herror⟩ := hx s
  cases h : x.run.run s with
  | mk answer s' =>
      rw [h] at hok herror
      cases answer with
      | ok a =>
          rw [run_bind_of_ok h]
          exact hf a (hok a rfl) s'
      | error e =>
          rw [run_bind_of_error h]
          exact ⟨nofun, failsWith_error (herror e rfl)⟩

theorem yields_mapM {Q : β → Prop} {f : α → ExceptT ε (StateM σ) β} {as : List α}
    (h : ∀ a ∈ as, Yields Q P (f a)) : Yields (fun bs => ∀ b ∈ bs, Q b) P (as.mapM f) := by
  induction as with
  | nil => exact yields_pure nofun
  | cons a as ih =>
      obtain ⟨ha, has⟩ := List.forall_mem_cons.mp h
      rw [List.mapM_cons]
      refine ha.bind fun b hb => (ih has).bind fun bs hbs => yields_pure ?_
      exact List.forall_mem_cons.mpr ⟨hb, hbs⟩

/-- Another wording of the refusals of a run. -/
theorem run_adapt {ε' : Type} (x : ExceptT ε (StateM σ) α) (f : ε → ε') (s : σ) :
    (ExceptT.adapt f x).run.run s = ((x.run.run s).1.mapError f, (x.run.run s).2) :=
  rfl

end Runs

/-! ## Runs that follow others -/

section Follows

variable {σ γ δ : Type} {R : α → β → Prop} {x : ExceptT ε (StateM σ) α} {y : ExceptT ε (StateM σ) β}

/-- Whenever one run gives a result the other gives a related one, whatever states they start from. -/
def Follows (R : α → β → Prop) (x : ExceptT ε (StateM σ) α) (y : ExceptT ε (StateM σ) β) : Prop :=
  ∀ s s' a, x.run.run s = (.ok a, s') → ∀ t, ∃ b t', y.run.run t = (.ok b, t') ∧ R a b

theorem follows_pure {a : α} {b : β} (h : R a b) :
    Follows R (pure a : ExceptT ε (StateM σ) α) (pure b) := by
  rintro s s' _ ⟨⟩ t
  exact ⟨b, t, rfl, h⟩

theorem follows_throw (e : ε) (y : ExceptT ε (StateM σ) β) :
    Follows R (throw e : ExceptT ε (StateM σ) α) y := by
  rintro s s' _ ⟨⟩

/-- A step that has no part in the state gives what it gives. -/
theorem follows_lift (z : Except ε α) :
    Follows Eq (ExceptT.mk (pure z) : ExceptT ε (StateM σ) α) (ExceptT.mk (pure z)) := by
  rintro s s' a h t
  obtain rfl : z = .ok a := congrArg Prod.fst h
  exact ⟨a, t, rfl, rfl⟩

theorem Follows.bind {S : γ → δ → Prop} {f : α → ExceptT ε (StateM σ) γ}
    {g : β → ExceptT ε (StateM σ) δ} (hxy : Follows R x y)
    (hfg : ∀ a b, R a b → Follows S (f a) (g b)) : Follows S (x >>= f) (y >>= g) := by
  intro s s' c h t
  obtain ⟨a, s₁, ha, hc⟩ := exists_of_run_bind_eq_ok h
  obtain ⟨b, t₁, hb, hab⟩ := hxy s s₁ a ha t
  rw [run_bind_of_ok hb]
  exact hfg a b hab s₁ s' c hc t₁

theorem follows_mapM {R : β → β → Prop} {f : α → ExceptT ε (StateM σ) β} {as : List α}
    (h : ∀ a, Follows R (f a) (f a)) : Follows (List.Forall₂ R) (as.mapM f) (as.mapM f) := by
  induction as with
  | nil => exact follows_pure .nil
  | cons a as ih =>
      rw [List.mapM_cons]
      refine (h a).bind fun b b' hb => ih.bind fun bs bs' hbs => follows_pure ?_
      exact .cons hb hbs

end Follows

end DtoForge.Steps
