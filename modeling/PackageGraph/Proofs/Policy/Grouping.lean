import PackageGraph.Proofs.Graph.Quotient
import PackageGraph.Proofs.Path.Nesting
import PackageGraph.Proofs.Policy.Refused

/-!
# Groups of a policy

The grouping entries of a policy that was made from rules are canonical, none of them is the root,
and none lies below another (`Policy.groupsApart_ofRules`). So there is no more than one of them
above a directory, which is then the group of the directory
(`Policy.GroupsApart.groupOf_eq_iff`).
-/

namespace PackageGraph.Policy

open Sorted

variable {rules : PolicyRules} {moduleRoot project : String} {disk : Disk} {policy : Policy}
  {directory entry : String}

/-- The grouping entries of a policy are those of its rules, in canonical spelling. -/
theorem mem_grouping_ofRules (h : ofRules rules moduleRoot disk project = .ok policy) :
    entry ∈ policy.grouping ↔ entry ∈ groupingDirectories rules.grouping := by
  obtain ⟨grouping, below, forbidden, hgrouping, -, -, rfl⟩ := ofRules_eq_ok.1 h
  obtain ⟨-, rfl⟩ := checkGrouping_eq_ok.1 hgrouping
  exact mem_ofList_groupingDirectories

/-- Every grouping entry is the canonical spelling of some directory. -/
theorem exists_normalize_eq_of_mem_grouping
    (h : ofRules rules moduleRoot disk project = .ok policy) (hentry : entry ∈ policy.grouping) :
    ∃ written, Path.normalize written = entry := by
  have hmem := (List.mem_filter.1 ((mem_grouping_ofRules h).1 hentry)).1
  obtain ⟨written, -, hwritten⟩ := List.mem_map.1 hmem
  exact ⟨written, hwritten⟩

/-- No grouping entry is the root, and none lies below another one. -/
structure GroupsApart (policy : Policy) : Prop where
  /-- No entry is the root. -/
  ne_empty : ∀ entry ∈ policy.grouping, entry ≠ ""
  /-- An entry is under no other one. -/
  eq_of_isUnder : ∀ entry ∈ policy.grouping, ∀ other ∈ policy.grouping,
    Path.isUnder entry other = true → entry = other

/-- **Rules that are accepted make groups that lie apart.** -/
theorem groupsApart_ofRules (h : ofRules rules moduleRoot disk project = .ok policy) :
    policy.GroupsApart where
  ne_empty := by
    intro entry hentry
    have hkept := (List.mem_filter.1 ((mem_grouping_ofRules h).1 hentry)).2
    simpa using hkept
  eq_of_isUnder := by
    intro entry hentry other hother hunder
    by_contra hne
    obtain ⟨_, _, _, hgrouping, -⟩ := ofRules_eq_ok.1 h
    refine (checkGrouping_eq_ok.1 hgrouping).1 other entry ⟨?_, ?_, hne, hunder⟩
    · exact (mem_grouping_ofRules h).1 hother
    · exact (mem_grouping_ofRules h).1 hentry

/-- **A directory has the group that it lies under**, as no other one lies above it. -/
theorem GroupsApart.groupRoot?_eq_some_iff (h : policy.GroupsApart) :
    policy.groupRoot? directory = some entry ↔
      entry ∈ policy.grouping ∧ Path.isUnder directory entry = true := by
  unfold groupRoot?
  constructor
  · intro hfind
    exact ⟨List.mem_of_find?_eq_some hfind, List.find?_some hfind⟩
  · rintro ⟨hentry, hunder⟩
    cases hfind : policy.grouping.find? (Path.isUnder directory) with
    | none => exact absurd hunder (List.find?_eq_none.1 hfind entry hentry)
    | some found =>
      have hfound := List.mem_of_find?_eq_some hfind
      -- both entries lie above the directory, so one of them lies above the other
      rcases Path.isUnder_or_isUnder (List.find?_some hfind) hunder with hbelow | habove
      · rw [h.eq_of_isUnder entry hentry found hfound hbelow]
      · rw [h.eq_of_isUnder found hfound entry hentry habove]

/-- **An entry is the group of what is at or below it.** -/
theorem GroupsApart.groupOf_eq_iff (h : policy.GroupsApart) (hentry : entry ∈ policy.grouping) :
    policy.groupOf directory = entry ↔ Path.isUnder directory entry = true := by
  constructor
  · rintro rfl
    -- a directory whose group is an entry is grouped, so that the entry was found above it
    have hgrouped : policy.isGrouped directory = true := isGrouped_iff.2 hentry
    obtain ⟨found, hfound⟩ := Option.isSome_iff_exists.1 hgrouped
    rw [groupOf, hfound, Option.getD_some]
    exact (h.groupRoot?_eq_some_iff.1 hfound).2
  · intro hunder
    rw [groupOf, h.groupRoot?_eq_some_iff.2 ⟨hentry, hunder⟩, Option.getD_some]

theorem isGrouped_eq_false_iff :
    policy.isGrouped directory = false ↔
      ∀ entry ∈ policy.grouping, Path.isUnder directory entry = false := by
  unfold isGrouped groupRoot?
  rw [Option.isSome_eq_false_iff, Option.isNone_iff_eq_none, List.find?_eq_none]
  simp only [Bool.not_eq_true]

end PackageGraph.Policy
