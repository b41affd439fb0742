import PackageGraph.Proofs.Disk.Distinct
import PackageGraph.Proofs.Disk.Lookup
import PackageGraph.Sources.Walk

/-!
# The walk through a project, path by path

The walk goes down from directory to directory and passes over whole parts of the tree. Whether it
comes to a file is said here of the file's path alone: the file is there, and each step on the way
to it is one that the walk takes (`mem_filesBelow`). It comes to each file once
(`nodup_filesBelow`).

The tree has to be one in which a name stands for one child (`Entry.Distinct`), since the walk goes
through the children of a directory while a path is looked up name by name.
-/

namespace PackageGraph

/-! ### Levels above -/

/-- One level above a child are the ignore files of its directory, and then those above that. -/
theorem Ignore.Level.above_append (disk : Disk) {here : Names} {entry : Entry}
    (h : disk.root.descendant? here = some entry) (name : String) :
    above disk (here ++ [name]) = ofDirectory disk here entry :: above disk here := by
  -- a shorter path does not see the name
  have htake : ((List.range here.length).reverse.map (here ++ [name]).take) =
      (List.range here.length).reverse.map here.take := by
    refine List.map_congr_left fun length hlength => ?_
    rw [List.mem_reverse, List.mem_range] at hlength
    exact List.take_append_of_le_length (Nat.le_of_lt hlength)
  have hself : (here ++ [name]).take here.length = here := by simp
  rw [above, above, List.length_append, List.length_singleton, List.range_succ, List.reverse_append,
    List.reverse_singleton, List.singleton_append, List.map_cons, htake, hself, List.filterMap_cons,
    h]
  rfl

namespace Sources

open Ignore (Level)

variable {disk : Disk} {options : ScanOptions} {levels : List Level} {here names : Names}

/-! ### Members of the walk -/

/-- In a directory the walk reads its ignore files, and goes on to its children. -/
theorem filesBelow_directory (children : List (String × Entry)) :
    filesBelow disk options levels here (.directory children) =
      filesAmong disk options (Level.ofDirectory disk here (.directory children) :: levels) here
        children := by
  rw [filesBelow]

/-- The walk comes to what is below the children that it visits. -/
theorem mem_filesAmong {children : List (String × Entry)} :
    names ∈ filesAmong disk options levels here children ↔
      ∃ name child, (name, child) ∈ children ∧ visits options levels here name child = true ∧
        names ∈ filesBelow disk options levels (here ++ [name]) child := by
  induction children with
  | nil => simp
  | cons first rest ih =>
    obtain ⟨name, child⟩ := first
    rw [filesAmong, List.mem_append, ih]
    constructor
    · -- the file is below the first child, or below a later one
      rintro (h | ⟨name', child', hmem, hvisits, hbelow⟩)
      · split at h
        · next hvisits => exact ⟨name, child, List.mem_cons_self, hvisits, h⟩
        · cases h
      · exact ⟨name', child', List.mem_cons_of_mem _ hmem, hvisits, hbelow⟩
    · rintro ⟨name', child', hmem, hvisits, hbelow⟩
      rcases List.mem_cons.1 hmem with hfirst | hmem
      · obtain ⟨rfl, rfl⟩ := Prod.mk.inj hfirst
        exact .inl (by rwa [if_pos hvisits])
      · exact .inr ⟨name', child', hmem, hvisits, hbelow⟩

/-- What is below an entry has a path that begins with the path of the entry. -/
theorem prefix_of_mem_filesBelow {entry : Entry}
    (h : names ∈ filesBelow disk options levels here entry) : here <+: names := by
  induction entry using Entry.childInduction generalizing levels here with
  | file content =>
    rw [filesBelow_file, List.mem_singleton] at h
    exact h ▸ List.prefix_refl _
  | directory children ih =>
    rw [filesBelow_directory] at h
    obtain ⟨name, child, hmem, -, hbelow⟩ := mem_filesAmong.1 h
    exact (List.prefix_append here [name]).trans (ih name child hmem hbelow)

/-- One name behind `here`, a path goes on by the name of the child that it leads to. -/
theorem eq_of_mem_filesBelow {child : Entry} {name name' : String} {rest : Names}
    (h : here ++ name :: rest ∈ filesBelow disk options levels (here ++ [name']) child) :
    name' = name := by
  obtain ⟨after, hafter⟩ := prefix_of_mem_filesBelow h
  rw [List.append_assoc, List.append_cancel_left_eq] at hafter
  exact (List.cons.inj hafter).1

/-- The walk goes on to one of the names that lead to a file. -/
theorem append_mem_filesAmong {children : List (String × Entry)} {name : String} {rest : Names} :
    here ++ name :: rest ∈ filesAmong disk options levels here children ↔
      ∃ child, (name, child) ∈ children ∧ visits options levels here name child = true ∧
        here ++ name :: rest ∈ filesBelow disk options levels (here ++ [name]) child := by
  rw [mem_filesAmong]
  constructor
  · rintro ⟨name', child, hmem, hvisits, hbelow⟩
    obtain rfl := eq_of_mem_filesBelow hbelow
    exact ⟨child, hmem, hvisits, hbelow⟩
  · rintro ⟨child, hmem, hvisits, hbelow⟩
    exact ⟨name, child, hmem, hvisits, hbelow⟩

/-! ### Paths that the walk takes -/

/-- Each step from a directory down to one of its descendants is one that the walk takes. -/
def Reaches (disk : Disk) (options : ScanOptions) (here names : Names) : Prop :=
  ∀ way name rest, names = way ++ name :: rest →
    ∃ child, disk.root.descendant? (here ++ way ++ [name]) = some child ∧
      visits options (Level.above disk (here ++ way ++ [name])) (here ++ way) name child = true

/-- A path is taken step by step: the first one, and then the others from there. -/
theorem reaches_cons {name : String} :
    Reaches disk options here (name :: names) ↔
      (∃ child, disk.root.descendant? (here ++ [name]) = some child ∧
        visits options (Level.above disk (here ++ [name])) here name child = true) ∧
      Reaches disk options (here ++ [name]) names := by
  constructor
  · intro h
    refine ⟨by simpa using h [] name names rfl, fun way next rest hnames => ?_⟩
    simpa using h (name :: way) next rest (by rw [hnames, List.cons_append])
  · rintro ⟨hfirst, hrest⟩ way next rest hnames
    -- the step is the first one, or one of those after it
    rcases List.cons_eq_append_iff.1 hnames with ⟨rfl, hnames⟩ | ⟨way, rfl, hnames⟩
    · obtain ⟨rfl, -⟩ := List.cons.inj hnames
      simpa using hfirst
    · simpa using hrest way next rest (List.cons.inj hnames).2

/-- **The walk comes to a file** if the file is there and the walk takes every step to it. -/
theorem mem_filesBelow {entry : Entry} (hdistinct : entry.Distinct)
    (hentry : disk.root.descendant? here = some entry) :
    here ++ names ∈ filesBelow disk options (Level.above disk here) here entry ↔
      (∃ content, disk.root.descendant? (here ++ names) = some (.file content)) ∧
        Reaches disk options here names := by
  -- along the path, with the directory that is left to it
  induction names generalizing here entry with
  | nil =>
    have hnowhere : Reaches disk options here [] := by
      intro way name rest hnames
      simp at hnames
    rw [List.append_nil, and_iff_left hnowhere, hentry]
    cases entry with
    | file content => simp
    | directory children =>
      rw [filesBelow_directory]
      -- what is below a directory has a longer path than the directory
      refine iff_of_false (fun h => ?_) (by simp)
      obtain ⟨name, child, -, -, hbelow⟩ := mem_filesAmong.1 h
      have hlength := (prefix_of_mem_filesBelow hbelow).length_le
      rw [List.length_append, List.length_singleton] at hlength
      omega
  | cons name names ih =>
    have hchild (child : Entry) : disk.root.descendant? (here ++ [name]) = some child ↔
        entry.child? name = some child := by
      rw [Entry.descendant?_append, hentry, Option.bind_some, Entry.descendant?]
      cases entry.child? name <;> simp
    rw [reaches_cons]
    cases entry with
    | file content =>
      -- nothing is below a file
      refine iff_of_false (fun h => ?_) ?_
      · rw [filesBelow_file, List.mem_singleton] at h
        exact List.cons_ne_nil name names (List.append_right_eq_self.1 h)
      · rintro ⟨-, ⟨child, hlookup, -⟩, -⟩
        cases (hchild child).1 hlookup
    | directory children =>
      rw [filesBelow_directory, ← Level.above_append disk hentry name, append_mem_filesAmong]
      have hstep {child : Entry} (hlookup : disk.root.descendant? (here ++ [name]) = some child) :=
        ih (hdistinct.child ((hchild child).1 hlookup)) hlookup
      simp only [List.append_assoc, List.singleton_append] at hstep
      constructor
      · -- the child that the walk goes on to is the one that the name leads to
        rintro ⟨child, hmem, hvisits, hbelow⟩
        have hlookup := (hchild child).2 (hdistinct.mem_iff.1 hmem)
        obtain ⟨hfile, hreaches⟩ := (hstep hlookup).1 hbelow
        exact ⟨hfile, ⟨child, hlookup, hvisits⟩, hreaches⟩
      · -- conversely, the walk takes the step to that child, and the steps below it
        rintro ⟨hfile, ⟨child, hlookup, hvisits⟩, hreaches⟩
        exact ⟨child, hdistinct.mem_iff.2 ((hchild child).1 hlookup), hvisits,
          (hstep hlookup).2 ⟨hfile, hreaches⟩⟩

/-! ### Each file once -/

/-- The walk comes to the files below one child before those below another, and no two children have
a file in common. -/
theorem nodup_filesAmong {children : List (String × Entry)}
    (hnodup : (children.map Prod.fst).Nodup)
    (h : ∀ name child, (name, child) ∈ children →
      (filesBelow disk options levels (here ++ [name]) child).Nodup) :
    (filesAmong disk options levels here children).Nodup := by
  induction children with
  | nil => simp
  | cons first rest ih =>
    obtain ⟨name, child⟩ := first
    obtain ⟨hnew, hrest⟩ := List.nodup_cons.1 hnodup
    rw [filesAmong]
    -- nothing is repeated below the first child, behind it, or between the two
    refine List.Nodup.append ?_
      (ih hrest fun name child hmem => h name child (List.mem_cons_of_mem _ hmem)) ?_
    · split
      · exact h name child List.mem_cons_self
      · exact List.nodup_nil
    · intro names hnames hlater
      obtain ⟨name', child', hmem, -, hbelow⟩ := mem_filesAmong.1 hlater
      split at hnames
      · -- a path has one name behind `here`
        obtain ⟨after, rfl⟩ := prefix_of_mem_filesBelow hnames
        rw [List.append_assoc] at hbelow
        obtain rfl := eq_of_mem_filesBelow hbelow
        exact hnew (List.mem_map.2 ⟨_, hmem, rfl⟩)
      · cases hnames

/-- **The walk comes to each file once.** -/
theorem nodup_filesBelow {entry : Entry} (h : entry.Distinct) :
    (filesBelow disk options levels here entry).Nodup := by
  induction entry using Entry.childInduction generalizing levels here with
  | file content => simp
  | directory children ih =>
    rw [filesBelow_directory]
    refine nodup_filesAmong h.children fun name child hmem => ?_
    exact ih name child hmem (h.child (h.mem_iff.1 hmem))

end Sources

end PackageGraph
