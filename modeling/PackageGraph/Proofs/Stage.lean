/-!
# Stages that may fail

A computation in stages succeeds exactly when each of its stages does, and rewording the errors of a
stage does not make it succeed. A stage that goes through a list does the same for every member
(`mapM_congr`), and gives the list back if it undoes what was done to it (`mapM_map_eq_pure`).

If each stage makes a check of its own, the computation fails as the first of the checks that fails
(`bind_eq_error_iff_isFirst`), and the later ones make no difference (`IsFirst`).
-/

namespace PackageGraph

variable {ε ε' α β : Type}

/-- Two stages succeed exactly if the first one does, and the second one with its result. -/
theorem bind_eq_ok {x : Except ε α} {f : α → Except ε β} {b : β} :
    x >>= f = .ok b ↔ ∃ a, x = .ok a ∧ f a = .ok b := by
  cases x with
  | ok a =>
    constructor
    · exact fun h => ⟨a, rfl, h⟩
    · rintro ⟨_, ha, h⟩
      cases ha
      exact h
  | error e =>
    constructor
    · exact fun h => nomatch h
    · rintro ⟨_, ha, -⟩
      cases ha

/-- Two stages fail as the first one does, or as the second one behind it. -/
theorem bind_eq_error {x : Except ε α} {f : α → Except ε β} {e : ε} :
    x >>= f = .error e ↔ x = .error e ∨ ∃ a, x = .ok a ∧ f a = .error e := by
  cases x with
  | ok a =>
    constructor
    · exact fun h => .inr ⟨a, rfl, h⟩
    · rintro (h | ⟨_, ha, h⟩)
      · cases h
      · cases ha
        exact h
  | error e' =>
    constructor
    · exact fun h => .inl (congrArg _ (Except.error.inj h))
    · rintro (h | ⟨_, ha, -⟩)
      · exact congrArg _ (Except.error.inj h)
      · cases ha

/-- A stage behind another one that always succeeds makes no difference. -/
theorem bind_pure_eq_error {x : Except ε α} {f : α → β} {e : ε} :
    (x >>= fun a => pure (f a)) = .error e ↔ x = .error e := by
  cases x with
  | ok a => exact iff_of_false nofun nofun
  | error e' => exact ⟨fun h => congrArg _ (Except.error.inj h),
      fun h => congrArg _ (Except.error.inj h)⟩

/-- A stage with reworded errors fails exactly if the stage does, in the new wording. -/
theorem mapError_eq_error {f : ε → ε'} {x : Except ε α} {e : ε'} :
    x.mapError f = .error e ↔ ∃ e', x = .error e' ∧ f e' = e := by
  cases x with
  | ok a =>
    constructor
    · exact fun h => nomatch h
    · rintro ⟨_, h, -⟩
      cases h
  | error e' =>
    constructor
    · exact fun h => ⟨e', rfl, Except.error.inj h⟩
    · rintro ⟨_, h, rfl⟩
      cases h
      rfl

/-- Rewording errors makes no stage succeed. -/
theorem mapError_eq_ok {f : ε → ε'} {x : Except ε α} {a : α} :
    x.mapError f = .ok a ↔ x = .ok a := by
  cases x with
  | ok b => exact ⟨fun h => congrArg _ (Except.ok.inj h), fun h => congrArg _ (Except.ok.inj h)⟩
  | error e => exact ⟨fun h => (nomatch h), fun h => (nomatch h)⟩

theorem mapError_bind {f : ε → ε'} {x : Except ε α} {g : α → Except ε β} :
    (x >>= g).mapError f = x.mapError f >>= fun a => (g a).mapError f := by
  cases x <;> rfl

/-- A stage that goes through a list gives the results of its members and nothing else. -/
theorem mem_of_mapM_eq_ok {f : α → Except ε β} {as : List α} {bs : List β}
    (h : as.mapM f = .ok bs) {b : β} : b ∈ bs ↔ ∃ a ∈ as, f a = .ok b := by
  induction as generalizing bs with
  | nil =>
    rw [List.mapM_nil] at h
    rw [← Except.ok.inj h]
    simp
  | cons a as ih =>
    rw [List.mapM_cons] at h
    -- what the first member gives stands in front of what the others give
    obtain ⟨first, hfirst, h⟩ := bind_eq_ok.1 h
    obtain ⟨rest, hrest, h⟩ := bind_eq_ok.1 h
    rw [← Except.ok.inj h, List.mem_cons, ih hrest]
    simp [hfirst, eq_comm]

/-- A stage that goes through a list succeeds only if it does for every member. -/
theorem exists_ok_of_mapM_eq_ok {f : α → Except ε β} {as : List α} {bs : List β}
    (h : as.mapM f = .ok bs) : ∀ a ∈ as, ∃ b, f a = .ok b := by
  induction as generalizing bs with
  | nil => exact nofun
  | cons a as ih =>
    rw [List.mapM_cons] at h
    obtain ⟨first, hfirst, h⟩ := bind_eq_ok.1 h
    obtain ⟨rest, hrest, -⟩ := bind_eq_ok.1 h
    exact List.forall_mem_cons.2 ⟨⟨first, hfirst⟩, ih hrest⟩

/-- Stages that do the same for every member of a list do the same for the list. -/
theorem mapM_congr {m : Type → Type} [Monad m] [LawfulMonad m] {f g : α → m β} {as : List α}
    (h : ∀ a ∈ as, f a = g a) : as.mapM f = as.mapM g := by
  induction as with
  | nil => rw [List.mapM_nil, List.mapM_nil]
  | cons a as ih =>
    obtain ⟨hfirst, hrest⟩ := List.forall_mem_cons.1 h
    rw [List.mapM_cons, List.mapM_cons, hfirst, ih hrest]

/-- A stage that goes through a list succeeds if it does for every member. -/
theorem mapM_eq_pure {m : Type → Type} [Monad m] [LawfulMonad m] {f : α → m β} {g : α → β}
    {as : List α} (h : ∀ a ∈ as, f a = pure (g a)) : as.mapM f = pure (as.map g) :=
  (mapM_congr h).trans List.mapM_pure

/-- A stage that undoes what was done to every member of a list gives the list back. -/
theorem mapM_map_eq_pure {m : Type → Type} [Monad m] [LawfulMonad m] {f : β → m α} {g : α → β}
    {as : List α} (h : ∀ a ∈ as, f (g a) = pure a) : (as.map g).mapM f = pure as := by
  have hundone : as.mapM (f ∘ g) = pure (as.map id) := mapM_eq_pure h
  rw [List.mapM_map, hundone, List.map_id]

/-- A stage that goes through a list fails at the first member that it fails for. -/
theorem mapM_eq_error {f : α → Except ε β} {as : List α} {e : ε} :
    as.mapM f = .error e ↔ ∃ a, as.find? (fun a => !(f a).isOk) = some a ∧ f a = .error e := by
  induction as with
  | nil =>
    rw [List.mapM_nil]
    exact iff_of_false (fun h => nomatch h) fun ⟨_, h, _⟩ => nomatch h
  | cons a as ih =>
    rw [List.mapM_cons, List.find?_cons, bind_eq_error]
    cases hfirst : f a with
    | error e' =>
      -- nothing behind a member that fails is looked at
      have hfails : (!(Except.error e' : Except ε β).isOk) = true := rfl
      rw [hfails]
      constructor
      · rintro (h | ⟨_, h, -⟩)
        · exact ⟨a, rfl, hfirst.trans h⟩
        · cases h
      · rintro ⟨_, hsome, he⟩
        obtain rfl := Option.some.inj hsome
        exact .inl (hfirst.symm.trans he)
    | ok b =>
      -- behind a member that does not fail, the failure is one of the others
      have hfits : (!(Except.ok b : Except ε β).isOk) = false := rfl
      rw [hfits, ← ih]
      constructor
      · rintro (h | ⟨_, -, h⟩)
        · cases h
        · -- the results are put together behind the last member, which cannot fail
          rcases bind_eq_error.1 h with h | ⟨_, -, h⟩
          · exact h
          · cases h
      · exact fun h => .inr ⟨b, rfl, bind_eq_error.2 (.inl h)⟩

/-- A stage that does not fail has a result. -/
theorem exists_ok_of_forall_ne_error {x : Except ε α} (h : ∀ e, x ≠ .error e) :
    ∃ a, x = .ok a := by
  cases x with
  | ok a => exact ⟨a, rfl⟩
  | error e => exact absurd rfl (h e)

theorem exists_ok_of_isOk {x : Except ε α} (h : x.isOk = true) : ∃ a, x = .ok a := by
  cases x with
  | ok a => exact ⟨a, rfl⟩
  | error e => cases h

/-! ### The first of several checks -/

section Checks

variable {κ : Type} {fails : κ → ε → Prop} {check : κ} {later : List κ}

/-- The failure is that of the first of some checks that fails. -/
inductive IsFirst (fails : κ → ε → Prop) : List κ → ε → Prop
  | here {check later failure} : fails check failure → IsFirst fails (check :: later) failure
  | later {check later failure} :
      (∀ other, ¬fails check other) → IsFirst fails later failure →
        IsFirst fails (check :: later) failure

theorem not_isFirst_nil {failure : ε} : ¬IsFirst fails [] failure := nofun

/-- Behind a check that fails, the later ones make no difference. -/
theorem isFirst_cons_of_fails {failure other : ε} (h : fails check other) :
    IsFirst fails (check :: later) failure ↔ fails check failure := by
  constructor
  · rintro (hhere | ⟨hnot, -⟩)
    · exact hhere
    · exact absurd h (hnot other)
  · exact .here

/-- A check that passes leaves the failure to the later ones. -/
theorem isFirst_cons_of_not_fails {failure : ε} (h : ∀ other, ¬fails check other) :
    IsFirst fails (check :: later) failure ↔ IsFirst fails later failure := by
  constructor
  · rintro (hhere | ⟨-, hlater⟩)
    · exact absurd hhere (h failure)
    · exact hlater
  · exact .later h

/-- The first failure is the failure of some check. -/
theorem IsFirst.exists_fails {checks : List κ} {failure : ε} (h : IsFirst fails checks failure) :
    ∃ check, fails check failure := by
  induction h with
  | here h => exact ⟨_, h⟩
  | later _ _ ih => exact ih

/-- If any check fails, one of them is the first. -/
theorem exists_isFirst {checks : List κ} {failure : ε} (hmem : check ∈ checks)
    (h : fails check failure) : ∃ failure, IsFirst fails checks failure := by
  induction checks with
  | nil => cases hmem
  | cons first checks ih =>
    by_cases hfirst : ∃ other, fails first other
    · -- the check in front fails, whichever of them is known to
      obtain ⟨other, hother⟩ := hfirst
      exact ⟨other, .here hother⟩
    · -- it passes, so that the one known to fail is behind it
      rw [not_exists] at hfirst
      rcases List.mem_cons.1 hmem with rfl | hmem
      · exact absurd h (hfirst failure)
      · obtain ⟨other, hother⟩ := ih hmem
        exact ⟨other, .later hfirst hother⟩

/-- **A stage that makes a check fails before the stages behind it**, and these fail only if it does
not. -/
theorem bind_eq_error_iff_isFirst {x : Except ε α} {f : α → Except ε β}
    (hcheck : ∀ e, x = .error e ↔ fails check e)
    (hlater : ∀ a, x = .ok a → ∀ e, f a = .error e ↔ IsFirst fails later e) (e : ε) :
    x >>= f = .error e ↔ IsFirst fails (check :: later) e := by
  cases hx : x with
  | error other =>
    -- the check fails, and the stages behind it are not reached
    rw [isFirst_cons_of_fails ((hcheck other).1 hx), ← hcheck, hx, bind_eq_error]
    exact or_iff_left fun ⟨_, h, _⟩ => nomatch h
  | ok a =>
    -- the check passes, and what is left are the later ones
    have hpasses : ∀ other, ¬fails check other := fun other hother => by
      cases hx.symm.trans ((hcheck other).2 hother)
    rw [isFirst_cons_of_not_fails hpasses]
    exact hlater a hx e

end Checks

end PackageGraph
