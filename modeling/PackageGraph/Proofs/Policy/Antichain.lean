import PackageGraph.Proofs.Policy.Grouping

/-!
# Which grouping directories are accepted

Grouping directories are refused if one of them goes on where another one ends
(`Policy.Contains`). They are compared in the order of their texts, where what stands between a
directory and those below it may be anything: `a`, `a-b`, `a/c`. But the check goes through all
pairs, so only the entries in canonical spelling count, and neither their order nor how often they
are written (`Policy.checkGrouping_of_mem_iff`).

Of two directories above one path the first contains the second, or the second the first, or they
are the same. So at most one of the accepted entries is above a path, and it is found wherever the
search for it begins (`Policy.GroupsApart.find?_eq_groupRoot?`). The main statement is
`Policy.ofRules_antichain`.
-/

namespace PackageGraph.Policy

open Sorted

variable {entries entries' : List String} {policy : Policy}

/-! ### Entries that contain others -/

/-- The segments of a path are those of a directory, and there are more behind them. -/
def Contains (outer inner : String) : Prop :=
  ∃ more, more ≠ [] ∧ Path.segments inner.toList = Path.segments outer.toList ++ more

/-- A directory contains what is below it and not the same. -/
theorem contains_iff {outer inner : String} (h : outer ≠ "") :
    Contains outer inner ↔ inner ≠ outer ∧ Path.isUnder inner outer = true := by
  rw [Path.isUnder_iff_segments h]
  constructor
  · rintro ⟨more, hmore, hsegments⟩
    refine ⟨?_, more, hsegments.symm⟩
    rintro rfl
    exact hmore (List.append_right_eq_self.1 hsegments.symm)
  · rintro ⟨hne, more, hsegments⟩
    refine ⟨more, ?_, hsegments.symm⟩
    rintro rfl
    -- a path is joined from its segments, so the two would be the same
    rw [List.append_nil] at hsegments
    have hjoin := congrArg Path.join hsegments
    rw [Path.join_segments, Path.join_segments, String.toList_inj] at hjoin
    exact hne hjoin.symm

/-- An entry is the canonical spelling of something that is written, and not the root. -/
theorem mem_groupingDirectories {entry : String} : entry ∈ groupingDirectories entries ↔
    entry ≠ "" ∧ ∃ written ∈ entries, Path.normalize written = entry := by
  rw [groupingDirectories, List.mem_filter, List.mem_map, and_comm]
  simp

/-- Two grouping entries, of which the first one contains the second. -/
def ContainsIn (entries : List String) (outer inner : String) : Prop :=
  outer ∈ groupingDirectories entries ∧ inner ∈ groupingDirectories entries ∧ Contains outer inner

/-- Grouping entries nest if one contains the other. -/
theorem nestsIn_groupingDirectories (entries : List String) :
    NestsIn (groupingDirectories entries) = ContainsIn entries := by
  funext outer inner
  refine propext ⟨fun h => ⟨h.outer_mem, h.inner_mem, ?_⟩, ?_⟩
  · exact (contains_iff (mem_groupingDirectories.1 h.outer_mem).1).2 ⟨h.ne, h.under⟩
  · rintro ⟨houter, hinner, hcontains⟩
    obtain ⟨hne, hunder⟩ := (contains_iff (mem_groupingDirectories.1 houter).1).1 hcontains
    exact ⟨houter, hinner, hne, hunder⟩

/-! ### The check -/

/-- **The check of grouping directories reads their entries off them, and nothing else.** -/
theorem checkGrouping_of_mem_iff
    (h : ∀ entry, entry ∈ groupingDirectories entries' ↔ entry ∈ groupingDirectories entries) :
    checkGrouping entries' = checkGrouping entries := by
  have hsame :
      Set.ofList (groupingDirectories entries') = Set.ofList (groupingDirectories entries) := by
    refine Sorted.Set.ext fun entry => ?_
    rw [Set.contains_ofList, Set.contains_ofList, h]
  rw [checkGrouping_eq, checkGrouping_eq, hsame]

/-- The check fails if some entry contains another one. -/
theorem exists_checkGrouping_eq_error_iff :
    (∃ outer inner, checkGrouping entries = .error (.nested outer inner)) ↔
      ∃ outer inner, ContainsIn entries outer inner := by
  rw [← nestsIn_groupingDirectories]
  constructor
  · -- the pair that is named nests
    rintro ⟨outer, inner, herror⟩
    obtain ⟨outer, inner, -, hleast⟩ := checkGrouping_eq_error.1 herror
    exact ⟨outer, inner, hleast.1⟩
  · -- the check does not succeed on entries that nest
    rintro ⟨outer, inner, hnests⟩
    cases hcheck : checkGrouping entries with
    | ok grouping => exact absurd hnests ((checkGrouping_eq_ok.1 hcheck).1 outer inner)
    | error error =>
      obtain ⟨outer, inner, rfl, -⟩ := checkGrouping_eq_error.1 hcheck
      exact ⟨outer, inner, rfl⟩

/-- **Rules are refused for nested directories by this check alone.** -/
theorem ofRules_eq_nested_iff {rules : PolicyRules} {moduleRoot project : String} {disk : Disk}
    {outer inner : String} :
    ofRules rules moduleRoot disk project = .error (.nested outer inner) ↔
      checkGrouping rules.grouping = .error (.nested outer inner) := by
  rw [ofRules, bind_eq_error]
  refine or_iff_left ?_
  -- what comes behind the check of grouping directories fails for other reasons
  rintro ⟨grouping, -, hrest⟩
  rcases bind_eq_error.1 hrest with hexpand | ⟨below, -, hrest⟩
  · obtain ⟨_, -, hmissing⟩ := expandDirectories_eq_error.1 hexpand
    cases hmissing
  · rcases bind_eq_error.1 hrest with hgather | ⟨forbidden, -, hpure⟩
    · cases (gatherForbidden_eq_error.1 hgather).1
    · cases hpure

/-- **The check names the least pair** of entries of which one contains the other. -/
theorem checkGrouping_eq_nested_iff {outer inner : String} :
    checkGrouping entries = .error (.nested outer inner) ↔
      IsLeast (ContainsIn entries) outer inner := by
  rw [checkGrouping_eq_error, nestsIn_groupingDirectories]
  constructor
  · rintro ⟨_, _, heq, hleast⟩
    cases heq
    exact hleast
  · exact fun hleast => ⟨outer, inner, rfl, hleast⟩

/-! ### The groups of directories -/

/-- **The search for a group may try the entries in any order.** -/
theorem GroupsApart.find?_eq_groupRoot? (h : policy.GroupsApart) {tried : List String}
    (htried : ∀ entry, entry ∈ tried ↔ entry ∈ policy.grouping) (directory : String) :
    tried.find? (Path.isUnder directory) = policy.groupRoot? directory := by
  cases hfind : tried.find? (Path.isUnder directory) with
  | some found =>
    -- at most one entry is above the directory, so it is the one that was found
    have hmem := (htried found).1 (List.mem_of_find?_eq_some hfind)
    exact (h.groupRoot?_eq_some_iff.2 ⟨hmem, List.find?_some hfind⟩).symm
  | none =>
    rw [List.find?_eq_none] at hfind
    symm
    rw [groupRoot?, List.find?_eq_none]
    exact fun entry hentry => hfind entry ((htried entry).2 hentry)

/-- What is accepted of grouping directories: their entries, each of them once and in order, and no
two of them above one directory. So the group of a directory is found whatever entry is tried
first. -/
structure Accepts (policy : Policy) (entries : List String) : Prop where
  /-- The entries are in order, and each of them is there once. -/
  sorted : policy.grouping.Pairwise fun entry other => Key.before entry other = true
  /-- They are what was written, in canonical spelling, but for the root. -/
  mem_iff : ∀ entry, entry ∈ policy.grouping ↔
    entry ≠ "" ∧ ∃ written ∈ entries, Path.normalize written = entry
  /-- At most one of them is above a directory. -/
  eq_of_prefix : ∀ directory : String, ∀ entry ∈ policy.grouping, ∀ other ∈ policy.grouping,
    Path.segments entry.toList <+: Path.segments directory.toList →
    Path.segments other.toList <+: Path.segments directory.toList → entry = other
  /-- The group of a directory is found in any order. -/
  groupOf_eq : ∀ tried : List String, (∀ entry, entry ∈ tried ↔ entry ∈ policy.grouping) →
    ∀ directory, (tried.find? (Path.isUnder directory)).getD directory = policy.groupOf directory

/-- **Rules that are accepted have grouping entries that are apart.** -/
theorem accepts_ofRules {rules : PolicyRules} {moduleRoot project : String} {disk : Disk}
    (h : ofRules rules moduleRoot disk project = .ok policy) : policy.Accepts rules.grouping where
  sorted := by
    obtain ⟨grouping, _, _, hgrouping, -, -, rfl⟩ := ofRules_eq_ok.1 h
    obtain ⟨-, rfl⟩ := checkGrouping_eq_ok.1 hgrouping
    exact Set.toList_sorted _
  mem_iff entry := by
    rw [mem_grouping_ofRules h, mem_groupingDirectories]
  eq_of_prefix directory entry hentry other hother habove habove' := by
    have hapart := groupsApart_ofRules h
    rw [← Path.isUnder_iff_segments (hapart.ne_empty entry hentry)] at habove
    rw [← Path.isUnder_iff_segments (hapart.ne_empty other hother)] at habove'
    -- both are the one that is found
    have hfound := hapart.groupRoot?_eq_some_iff.2 ⟨hentry, habove⟩
    have hfound' := hapart.groupRoot?_eq_some_iff.2 ⟨hother, habove'⟩
    exact Option.some.inj (hfound.symm.trans hfound')
  groupOf_eq tried htried directory := by
    rw [(groupsApart_ofRules h).find?_eq_groupRoot? htried, groupOf]

/-- **Grouping directories are accepted if their entries form an antichain.** Rules are refused for
nested directories exactly if one of their entries contains another one, whatever else they say, and
the pair that is named is the least one of this kind. Lists with the same entries are accepted, or
refused, alike. If rules are accepted, then the grouping of the policy has their entries in
increasing order, at most one of them is above any directory, and the group of a directory does not
depend on the order in which they are tried. -/
theorem ofRules_antichain (rules : PolicyRules) (moduleRoot : String) (disk : Disk)
    (project : String) :
    ((∃ outer inner, ofRules rules moduleRoot disk project = .error (.nested outer inner)) ↔
      ∃ outer inner, ContainsIn rules.grouping outer inner) ∧
    (∀ outer inner, ofRules rules moduleRoot disk project = .error (.nested outer inner) ↔
      IsLeast (ContainsIn rules.grouping) outer inner) ∧
    (∀ grouping,
      (∀ entry, entry ∈ groupingDirectories grouping ↔ entry ∈ groupingDirectories rules.grouping) →
      ofRules { rules with grouping } moduleRoot disk project =
        ofRules rules moduleRoot disk project) ∧
    ∀ policy, ofRules rules moduleRoot disk project = .ok policy →
      policy.Accepts rules.grouping := by
  refine ⟨?_, fun outer inner => ?_, fun grouping hsame => ?_, fun policy => accepts_ofRules⟩
  · simp only [ofRules_eq_nested_iff]
    exact exists_checkGrouping_eq_error_iff
  · rw [ofRules_eq_nested_iff, checkGrouping_eq_nested_iff]
  · rw [ofRules, ofRules, checkGrouping_of_mem_iff hsame]

/-- Between a directory and the one below it stands another one that is not. Without the one below,
the others are accepted. -/
example :
    checkGrouping ["a-b", "./a/c", "a", "a/"] = .error (.nested "a" "a/c") ∧
      checkGrouping ["a-b", "a", "a/"] = .ok ["a", "a-b"] := by
  decide +kernel

end PackageGraph.Policy
