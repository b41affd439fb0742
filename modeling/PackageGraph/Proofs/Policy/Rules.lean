import PackageGraph.Policy
import PackageGraph.Proofs.Stage

/-!
# What checked rules consist of

The policy of some rules is put together from three parts that are checked one after another
(`Policy.ofRules_eq_ok`). Of the forbidden rules, the policy keeps a table of targets by source;
looking a pair up in it is the same as looking for a rule that names the pair
(`Policy.isForbidden_ofRules`).
-/

namespace PackageGraph

open Sorted

/-- The pairs that a forbidden rule names. A target that is blank names nothing. -/
def ForbiddenRule.Names (rule : ForbiddenRule) (source target : String) : Prop :=
  Policy.trimmed rule.source = source ∧ target ∈ rule.targets.map Policy.trimmed ∧ target ≠ ""

namespace Policy

variable {rules : PolicyRules} {moduleRoot project : String} {disk : Disk} {policy : Policy}

/-- The parts of a policy. -/
theorem ofRules_eq_ok :
    ofRules rules moduleRoot disk project = .ok policy ↔
      ∃ grouping below forbidden,
        checkGrouping rules.grouping = .ok grouping ∧
        expandDirectories disk project moduleRoot rules.excludedDirectories = .ok below ∧
        gatherForbidden rules.forbidden = .ok forbidden ∧
        policy = ⟨moduleRoot, grouping,
          Set.ofList ((rules.excludedPackages.map trimmed).filter (!·.isEmpty) ++ below),
          forbidden⟩ := by
  rw [ofRules, bind_eq_ok]
  refine exists_congr fun grouping => ?_
  rw [bind_eq_ok]
  constructor
  · -- the checks succeed one after another, and the policy is made of their results
    rintro ⟨hgrouping, below, hbelow, h⟩
    obtain ⟨forbidden, hforbidden, heq⟩ := bind_eq_ok.1 h
    exact ⟨below, forbidden, hgrouping, hbelow, hforbidden, (Except.ok.inj heq).symm⟩
  · rintro ⟨below, forbidden, hgrouping, hbelow, hforbidden, rfl⟩
    exact ⟨hgrouping, below, hbelow, bind_eq_ok.2 ⟨forbidden, hforbidden, rfl⟩⟩

theorem moduleRoot_ofRules (h : ofRules rules moduleRoot disk project = .ok policy) :
    policy.moduleRoot = moduleRoot := by
  obtain ⟨_, _, _, _, _, _, rfl⟩ := ofRules_eq_ok.1 h
  rfl

/-! ### Forbidden rules -/

/-- Does a table of targets by source hold a pair? -/
def Holds (table : Sorted.Map String (Sorted.Set String)) (source target : String) : Prop :=
  ∃ targets, table.get? source = some targets ∧ targets.contains target = true

/-- A pair is forbidden if the table of the policy holds it. -/
theorem isForbidden_iff {source target : String} :
    policy.isForbidden source target = true ↔ Holds policy.forbidden source target := by
  rw [isForbidden, Holds]
  cases policy.forbidden.get? source with
  | none => simp
  | some targets => simp

/-- A rule adds the pairs that it names. -/
theorem holds_addForbidden {known table : Sorted.Map String (Sorted.Set String)}
    {rule : ForbiddenRule} (h : addForbidden known rule = .ok table) {source target : String} :
    Holds table source target ↔ rule.Names source target ∨ Holds known source target := by
  rw [addForbidden] at h
  dsimp only at h
  split at h
  · cases h
  · rw [← Except.ok.inj h]
    -- the rule changes the targets of its own source and no others
    by_cases hsame : source = trimmed rule.source
    · subst hsame
      simp only [Holds, ForbiddenRule.Names, Map.get?_upsert_self, Option.some.injEq,
        exists_eq_left', true_and, Set.contains_insertAll, List.mem_filter]
      cases known.get? (trimmed rule.source) with
      | none => simp
      | some targets => simp
    · simp only [Holds, ForbiddenRule.Names, Map.get?_upsert_of_ne _ _ hsame, Ne.symm hsame,
        false_and, false_or]

theorem contains_addForbidden {known table : Sorted.Map String (Sorted.Set String)}
    {rule : ForbiddenRule} (h : addForbidden known rule = .ok table) {source : String} :
    table.contains source = true ↔ trimmed rule.source = source ∨ known.contains source = true := by
  rw [addForbidden] at h
  dsimp only at h
  split at h
  · cases h
  · rw [← Except.ok.inj h]
    -- a rule writes under its own source, even if all its targets are blank
    by_cases hsame : source = trimmed rule.source
    · subst hsame
      simp [Map.contains]
    · simp [Map.contains, Map.get?_upsert_of_ne _ _ hsame, Ne.symm hsame]

/-- **A table says what its rules add.** If each rule adds to what the table before it says, then
the table of all rules says what one of them adds, and what was said before. -/
theorem says_foldlM (Says : Sorted.Map String (Sorted.Set String) → Prop)
    (Adds : ForbiddenRule → Prop)
    (hstep : ∀ {known rule table}, addForbidden known rule = .ok table →
      (Says table ↔ Adds rule ∨ Says known))
    {written : List ForbiddenRule} {known table : Sorted.Map String (Sorted.Set String)}
    (h : written.foldlM addForbidden known = .ok table) :
    Says table ↔ (∃ rule ∈ written, Adds rule) ∨ Says known := by
  induction written generalizing known with
  | nil =>
    rw [List.foldlM_nil] at h
    rw [← Except.ok.inj h]
    simp
  | cons rule written ih =>
    rw [List.foldlM_cons] at h
    obtain ⟨next, hnext, hrest⟩ := bind_eq_ok.1 h
    rw [ih hrest, hstep hnext, ← or_assoc]
    simp [or_comm]

/-- The pairs of a gathered table are those that the rules name. -/
theorem holds_gatherForbidden {written : List ForbiddenRule}
    {table : Sorted.Map String (Sorted.Set String)} (h : gatherForbidden written = .ok table)
    {source target : String} :
    Holds table source target ↔ ∃ rule ∈ written, rule.Names source target := by
  have hnone : ¬Holds .empty source target := by simp [Holds]
  have hsays := says_foldlM (Holds · source target) (·.Names source target)
    (fun hnext => holds_addForbidden hnext) h
  exact hsays.trans (or_iff_left hnone)

/-- The sources of a gathered table are those of the rules. -/
theorem contains_gatherForbidden {written : List ForbiddenRule}
    {table : Sorted.Map String (Sorted.Set String)} (h : gatherForbidden written = .ok table)
    {source : String} :
    table.contains source = true ↔ ∃ rule ∈ written, trimmed rule.source = source := by
  have hsays := says_foldlM (·.contains source = true) (trimmed ·.source = source)
    (fun hnext => contains_addForbidden hnext) h
  exact hsays.trans (or_iff_left nofun)

/-- **A pair is forbidden exactly when a rule names it.** -/
theorem isForbidden_ofRules (h : ofRules rules moduleRoot disk project = .ok policy)
    {source target : String} :
    policy.isForbidden source target = true ↔
      ∃ rule ∈ rules.forbidden, rule.Names source target := by
  obtain ⟨_, _, forbidden, _, _, hforbidden, rfl⟩ := ofRules_eq_ok.1 h
  -- the table of the policy is the one that was gathered
  rw [isForbidden_iff, holds_gatherForbidden hforbidden]

end Policy

end PackageGraph
