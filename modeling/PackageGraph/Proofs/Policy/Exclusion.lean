import PackageGraph.Proofs.Disk.Lookup
import PackageGraph.Proofs.Policy.Rules

/-!
# What rules leave out

A policy leaves out the packages that are named and those that the excluded directories have been
expanded to (`Policy.isExcluded_ofRules`). The expansion reaches every directory that the project
has at or below an excluded one, under its canonical spelling (`Policy.isExcluded_of_hasBelow`). It
is made on the disk when the rules are checked, so that what the project does not have is not
reached.
-/

namespace PackageGraph

open Sorted

/-- The project has a directory at or below `top` whose canonical spelling is `directory`. -/
def Disk.HasBelow (disk : Disk) (project top directory : String) : Prop :=
  ∃ written, Path.isUnder written top = true ∧ Path.IsPlain written ∧
    disk.isDirectory (Disk.joinPath project written) = true ∧ Path.normalize written = directory

namespace Policy

variable {rules : PolicyRules} {moduleRoot project : String} {disk : Disk} {policy : Policy}

/-- The expansion lists what is at or below one of the directories. Entries that normalise to
nothing are passed over. -/
theorem mem_expandDirectories {directories below : List String} {id : String}
    (h : expandDirectories disk project moduleRoot directories = .ok below) :
    id ∈ below ↔ ∃ entry ∈ directories, Path.normalize entry ≠ "" ∧
      ∃ ids, packagesBelow disk project moduleRoot (Path.normalize entry) = .ok ids ∧ id ∈ ids := by
  obtain ⟨lists, hlists, h⟩ := bind_eq_ok.1 h
  rw [← Except.ok.inj h, List.mem_flatten]
  simp only [mem_of_mapM_eq_ok hlists, List.mem_filter, List.mem_map]
  constructor
  · rintro ⟨ids, ⟨_, ⟨⟨entry, hentry, rfl⟩, hne⟩, hids⟩, hid⟩
    exact ⟨entry, hentry, by simpa using hne, ids, hids, hid⟩
  · rintro ⟨entry, hentry, hne, ids, hids, hid⟩
    exact ⟨ids, ⟨_, ⟨⟨entry, hentry, rfl⟩, by simpa using hne⟩, hids⟩, hid⟩

/-- **What a policy leaves out.** -/
theorem isExcluded_ofRules (h : ofRules rules moduleRoot disk project = .ok policy) {id : String} :
    policy.isExcluded id = true ↔
      (id ≠ "" ∧ id ∈ rules.excludedPackages.map trimmed) ∨
        ∃ entry ∈ rules.excludedDirectories, Path.normalize entry ≠ "" ∧
          ∃ ids, packagesBelow disk project moduleRoot (Path.normalize entry) = .ok ids ∧
            id ∈ ids := by
  obtain ⟨_, below, _, _, hbelow, _, rfl⟩ := ofRules_eq_ok.1 h
  -- the named packages and the expanded directories are put into one set
  rw [isExcluded, Set.contains_ofList, List.mem_append, mem_expandDirectories hbelow,
    List.mem_filter, and_comm]
  simp

/-- A directory is expanded to itself and to all directories below it. -/
theorem packagesBelow_of_locate {directory : String} {names : Names}
    {children : List (String × Entry)}
    (h : disk.locate (Disk.joinPath project directory) = .ok (names, .directory children)) :
    packagesBelow disk project moduleRoot directory =
      .ok ((Entry.directory children).directories.map fun names =>
        Path.qualify moduleRoot (Path.normalize (Text.joinWith "/" (directory :: names)))) := by
  rw [packagesBelow, h]

/-- A directory that a path leads to from `top` is among those that `top` is expanded to. -/
theorem mem_packagesBelow_of_descends {top written : String} (htop : top ≠ "")
    (hdescends : Path.Descends top written)
    (hdirectory : disk.isDirectory (Disk.joinPath project written) = true) :
    ∃ ids, packagesBelow disk project moduleRoot top = .ok ids ∧
      Path.qualify moduleRoot (Path.normalize written) ∈ ids := by
  obtain ⟨names, children, hlocate⟩ := Disk.isDirectory_iff.1 hdirectory
  rcases hdescends with rfl | ⟨rest, hrest, rfl⟩
  · -- the excluded directory itself, which is the root of its own listing
    refine ⟨_, packagesBelow_of_locate hlocate, List.mem_map.2 ⟨[], ?_, ?_⟩⟩
    · exact Entry.mem_directories (Entry.descendant?_nil _)
    · rw [Text.joinWith]
  · -- a directory below it, whose names from there on are listed
    rw [Disk.joinPath_append htop] at hlocate
    obtain ⟨above, children', habove, hbelow⟩ :=
      Disk.locate_below (Disk.joinPath_ne_empty htop) hrest hlocate
    refine ⟨_, packagesBelow_of_locate habove,
      List.mem_map.2 ⟨Disk.components rest, Entry.mem_directories hbelow, ?_⟩⟩
    rw [Disk.joinWith_components]

/-- A directory that the project has below `top` is among those that `top` is expanded to. -/
theorem mem_packagesBelow {top directory : String} (htop : top ≠ "")
    (h : disk.HasBelow project top directory) :
    ∃ ids, packagesBelow disk project moduleRoot top = .ok ids ∧
      Path.qualify moduleRoot directory ∈ ids := by
  obtain ⟨written, hunder, hplain, hdirectory, rfl⟩ := h
  exact mem_packagesBelow_of_descends htop (hplain.descends htop hunder) hdirectory

/-- **Every directory that the project has below an excluded one is left out.** -/
theorem isExcluded_of_hasBelow (h : ofRules rules moduleRoot disk project = .ok policy)
    {entry directory : String} (hentry : entry ∈ rules.excludedDirectories)
    (hne : Path.normalize entry ≠ "")
    (hbelow : disk.HasBelow project (Path.normalize entry) directory) :
    policy.isExcluded (Path.qualify policy.moduleRoot directory) = true := by
  rw [moduleRoot_ofRules h, isExcluded_ofRules h]
  exact .inr ⟨entry, hentry, hne, mem_packagesBelow hne hbelow⟩

end Policy

end PackageGraph
