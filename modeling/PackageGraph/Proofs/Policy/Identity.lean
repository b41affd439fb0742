import PackageGraph.Proofs.Path.Normal
import PackageGraph.Proofs.Policy.Grouping

/-!
# Directories of one node

Two directories have one node exactly when they are the same or one grouping entry is above both of
them (`Policy.GroupsApart.groupOf_eq_groupOf_iff`). Nothing else is put together: the directory that
stands for another one is at or above it, stands for itself, and is read back from the identifier of
the node, because qualifying a directory loses nothing.

That no entry lies below another one is what the rules were checked for. It is needed twice: to know
that an entry stands for all that is below it, and that it stands for itself.
-/

namespace PackageGraph.Policy

variable {policy : Policy} {directory other entry : String}

/-- The directory that stands for another one is at or above it. -/
theorem isUnder_groupOf (policy : Policy) (directory : String) :
    Path.isUnder directory (policy.groupOf directory) = true := by
  rw [groupOf]
  cases hfind : policy.groupRoot? directory with
  | none => exact Path.isUnder_self directory
  | some entry => exact List.find?_some hfind

theorem GroupsApart.groupOf_of_mem (h : policy.GroupsApart) (hentry : entry ∈ policy.grouping) :
    policy.groupOf entry = entry :=
  (h.groupOf_eq_iff hentry).2 (Path.isUnder_self entry)

/-- **A directory that stands for another one stands for itself.** -/
theorem GroupsApart.groupOf_groupOf (h : policy.GroupsApart) (directory : String) :
    policy.groupOf (policy.groupOf directory) = policy.groupOf directory := by
  by_cases hgroup : policy.groupOf directory ∈ policy.grouping
  · exact h.groupOf_of_mem hgroup
  · rw [groupOf_eq_self hgroup, groupOf_eq_self hgroup]

/-- **One directory stands for two** if they are the same, or if an entry is above both. -/
theorem GroupsApart.groupOf_eq_groupOf_iff (h : policy.GroupsApart) :
    policy.groupOf directory = policy.groupOf other ↔
      directory = other ∨ ∃ entry ∈ policy.grouping,
        Path.isUnder directory entry = true ∧ Path.isUnder other entry = true := by
  constructor
  · intro hsame
    by_cases hgroup : policy.groupOf directory ∈ policy.grouping
    · -- the entry that stands for both is above both
      have hother := isUnder_groupOf policy other
      rw [← hsame] at hother
      exact .inr ⟨policy.groupOf directory, hgroup, isUnder_groupOf policy directory, hother⟩
    · -- neither is grouped, so both stand for themselves
      have hgroup' : policy.groupOf other ∉ policy.grouping := hsame ▸ hgroup
      rw [groupOf_eq_self hgroup, groupOf_eq_self hgroup'] at hsame
      exact .inl hsame
  · rintro (rfl | ⟨entry, hentry, hunder, hunder'⟩)
    · rfl
    · rw [(h.groupOf_eq_iff hentry).2 hunder, (h.groupOf_eq_iff hentry).2 hunder']

/-- **A node merges exactly the members of a group.** Under a policy that was made from rules, two
directories have one node exactly when they are the same or begin with the parts of one grouping
entry. The directory that stands for a directory is at or above it, stands for itself, and is read
back from the identifier of the node. -/
theorem ofRules_merges {rules : PolicyRules} {moduleRoot project : String} {disk : Disk}
    (h : ofRules rules moduleRoot disk project = .ok policy) :
    (∀ directory other, policy.effectiveId directory = policy.effectiveId other ↔
      directory = other ∨ ∃ entry ∈ groupingDirectories rules.grouping,
        Path.parts entry <+: Path.parts directory ∧ Path.parts entry <+: Path.parts other) ∧
    (∀ directory, Path.parts (policy.groupOf directory) <+: Path.parts directory) ∧
    (∀ directory, policy.groupOf (policy.groupOf directory) = policy.groupOf directory) ∧
    ∀ directory, Path.relativeTo? moduleRoot (policy.effectiveId directory) =
      some (policy.groupOf directory) := by
  have hapart := groupsApart_ofRules h
  refine ⟨fun directory other => ?_, fun directory => ?_, hapart.groupOf_groupOf,
    fun directory => ?_⟩
  · -- nodes are the same if the directories that stand for them are
    rw [effectiveId_eq_iff, hapart.groupOf_eq_groupOf_iff]
    simp only [mem_grouping_ofRules h, Path.isUnder_iff_parts]
  · exact Path.isUnder_iff_parts.1 (isUnder_groupOf policy directory)
  · -- the identifier is that directory, qualified
    rw [effectiveId, moduleRoot_ofRules h]
    exact Path.relativeTo?_qualify moduleRoot (policy.groupOf directory)

/-- An entry is merged with what is below it, and not with a sibling whose name begins alike; the
root of the project has a node of its own. -/
theorem ofRules_merges_siblings :
    ∃ policy, ofRules ⟨["./app//a/", "app/ab", "app\\a"], [], [], []⟩ "corp/mod"
        ⟨.directory [], []⟩ "" = .ok policy ∧
      policy.effectiveId "app/a" = policy.effectiveId "app/a/x/y" ∧
      policy.effectiveId "app/a/x" ≠ policy.effectiveId "app/ab/x" ∧
      policy.groupOf (policy.groupOf "app/ab/x") = "app/ab" ∧
      Path.relativeTo? "corp/mod" (policy.effectiveId "") = some "" := by
  have hpolicy : ofRules ⟨["./app//a/", "app/ab", "app\\a"], [], [], []⟩ "corp/mod"
      ⟨.directory [], []⟩ "" = .ok ⟨"corp/mod", ["app/a", "app/ab"], .empty, .empty⟩ := by rfl
  obtain ⟨hmerges, -, hidempotent, hread⟩ := ofRules_merges hpolicy
  refine ⟨_, hpolicy, ?_, ?_, ?_, hread ""⟩
  · exact (hmerges _ _).2 (.inr ⟨"app/a", by decide +kernel, by decide +kernel, by decide +kernel⟩)
  · rw [Ne, hmerges]
    decide +kernel
  · exact (hidempotent "app/ab/x").trans (by decide +kernel)

end PackageGraph.Policy
