import PackageGraph.Proofs.Sources.Walk
import PackageGraph.Proofs.Stage
import PackageGraph.Sources

/-!
# Selected files

Which files of a project are scanned is said of each path by itself (`Sources.Selected`): of the
file, of the directories on the way to it, and of what ignore files say about each of them. The
listing has these files and no others, least first (`Sources.files_selected`).

So no rule in an ignore file brings back what lies below a directory that is not entered, and the
project's own directory need not be one that would be entered; filters look at files only. There is
no listing if an ignore file above the project has a fault.
-/

namespace PackageGraph

namespace Sources

open Ignore (Level admits)

/-! ### Conditions on a path -/

/-- A file of a project is selected. Its names lead to it from the project, and `here` leads to the
project. -/
structure Selected (disk : Disk) (options : ScanOptions) (filters : Filters)
    (here names : Names) : Prop where
  /-- The names lead to a file. -/
  exists_content : ∃ content, disk.root.descendant? (here ++ names) = some (.file content)
  /-- It has the extension of a source, and is no test unless tests are scanned. -/
  source : ∃ above stem, names = above ++ [stem ++ ".go"] ∧ stem ≠ "" ∧
    (options.includeTests = true ∨ ∀ start, stem ++ ".go" ≠ start ++ "_test.go")
  /-- The filters allow its path. -/
  allowed : filters.allows (pathOf names) = true
  /-- Ignore files admit it and every directory on the way to it. -/
  admitted : ∀ way name rest, names = way ++ name :: rest →
    admits (Level.above disk (here ++ way ++ [name])) (here ++ way ++ [name]) (!rest.isEmpty) = true
  /-- No directory on the way to it is set apart by its name, is skipped or holds a module. -/
  entered : ∀ way name rest, names = way ++ name :: rest → rest ≠ [] →
    name.toList.head? ≠ some '_' ∧ name.toList.head? ≠ some '.' ∧
      name ∉ options.skippedDirectories ∧
      ∀ content, disk.root.descendant? (here ++ way ++ [name, "go.mod"]) ≠ some (.file content)

/-- Sources have the extension of a source and more than that, and end otherwise than tests. -/
theorem isSourceName_iff {options : ScanOptions} {name : String} :
    isSourceName options name = true ↔ ∃ stem, name = stem ++ ".go" ∧ stem ≠ "" ∧
      (options.includeTests = true ∨ ∀ start, stem ++ ".go" ≠ start ++ "_test.go") := by
  have hsuffix (ending : String) : Text.hasSuffix ending.toList name.toList = true ↔
      ∃ start, name = start ++ ending := by
    rw [Text.hasSuffix_iff]
    constructor
    · rintro ⟨start, h⟩
      exact ⟨.ofList start, String.toList_inj.1 (by simpa using h)⟩
    · rintro ⟨start, rfl⟩
      exact ⟨start.toList, String.toList_append⟩
  have htest : (!Text.hasSuffix "_test.go".toList name.toList) = true ↔
      ∀ start, name ≠ start ++ "_test.go" := by
    rw [Bool.not_eq_true', ← Bool.not_eq_true, hsuffix, not_exists]
  rw [isSourceName, Bool.and_eq_true, Bool.and_eq_true, Bool.or_eq_true, htest, hsuffix, bne_iff_ne]
  constructor
  · -- the name is the extension alone just if nothing stands before it
    rintro ⟨⟨⟨stem, rfl⟩, hname⟩, htests⟩
    exact ⟨stem, rfl, fun hstem => hname (by rw [hstem]; rfl), htests⟩
  · rintro ⟨stem, rfl, hstem, htests⟩
    refine ⟨⟨⟨stem, rfl⟩, fun hname => hstem ?_⟩, htests⟩
    simpa using congrArg String.toList hname

/-- The walk enters a directory unless it is set apart by its name, is skipped or holds a module. -/
theorem enters_iff {options : ScanOptions} {name : String} {directory : Entry} :
    enters options name directory = true ↔
      name.toList.head? ≠ some '_' ∧ name.toList.head? ≠ some '.' ∧
        name ∉ options.skippedDirectories ∧
        ∀ content, directory.child? "go.mod" ≠ some (.file content) := by
  have hapart : isSetApart name = false ↔
      name.toList.head? ≠ some '_' ∧ name.toList.head? ≠ some '.' := by
    rw [isSetApart]
    cases name.toList <;> simp
  have hmodule : holdsModule directory = false ↔
      ∀ content, directory.child? "go.mod" ≠ some (.file content) := by
    rw [holdsModule, Manifest.fileName]
    cases directory.child? "go.mod" with
    | none => simp
    | some entry => cases entry <;> simp [Entry.isFile]
  rw [enters, Bool.and_eq_true, Bool.and_eq_true, Bool.not_eq_true', Bool.not_eq_true',
    Bool.not_eq_true', hapart, hmodule, ← Bool.not_eq_true (List.contains _ _),
    List.contains_iff_mem]
  simp only [and_assoc]

/-- What stands on the way to a file is a directory, and the file itself is none. -/
theorem exists_descendant_of_file {root : Entry} {above rest : Names} {content : Content}
    (h : root.descendant? (above ++ rest) = some (.file content)) :
    ∃ entry, root.descendant? above = some entry ∧ entry.isDirectory = !rest.isEmpty := by
  rw [Entry.descendant?_append] at h
  obtain ⟨entry, hentry, hrest⟩ := Option.bind_eq_some_iff.1 h
  refine ⟨entry, hentry, ?_⟩
  cases rest with
  -- the way ends at the file
  | nil =>
    obtain rfl := Option.some.inj hrest
    rfl
  -- what has a child is a directory
  | cons name rest =>
    cases entry with
    | file other => cases hrest
    | directory children => rfl

/-- **The steps that the walk takes to a file** are those that ignore files admit, into directories
that are entered. -/
theorem reaches_iff {disk : Disk} {options : ScanOptions} {here names : Names} {content : Content}
    (hfile : disk.root.descendant? (here ++ names) = some (.file content)) :
    Reaches disk options here names ↔
      (∀ way name rest, names = way ++ name :: rest →
        admits (Level.above disk (here ++ way ++ [name])) (here ++ way ++ [name]) (!rest.isEmpty) =
          true) ∧
      ∀ way name rest, names = way ++ name :: rest → rest ≠ [] →
        name.toList.head? ≠ some '_' ∧ name.toList.head? ≠ some '.' ∧
          name ∉ options.skippedDirectories ∧
          ∀ content, disk.root.descendant? (here ++ way ++ [name, "go.mod"]) ≠
            some (.file content) := by
  -- the entry that a step leads to, and what has to hold for the walk to take the step
  have hstep {way rest : Names} {name : String} (hnames : names = way ++ name :: rest) :
      ∃ entry, disk.root.descendant? (here ++ way ++ [name]) = some entry ∧
        entry.isDirectory = !rest.isEmpty ∧
        (visits options (Level.above disk (here ++ way ++ [name])) (here ++ way) name entry = true ↔
          admits (Level.above disk (here ++ way ++ [name])) (here ++ way ++ [name])
            (!rest.isEmpty) = true ∧ (rest ≠ [] → enters options name entry = true)) := by
    rw [hnames, List.append_cons, ← List.append_assoc, ← List.append_assoc] at hfile
    obtain ⟨entry, hentry, hkind⟩ := exists_descendant_of_file hfile
    refine ⟨entry, hentry, hkind, ?_⟩
    have hisFile : entry.isFile = rest.isEmpty := by
      cases entry <;> cases rest <;> simp_all [Entry.isFile, Entry.isDirectory]
    rw [visits, Bool.and_eq_true, Bool.or_eq_true, hkind, hisFile, List.isEmpty_iff,
      Classical.or_iff_not_imp_left]
  -- a manifest is looked up from the directory, or by its own path
  have hmodule {way : Names} {name : String} {entry : Entry}
      (hentry : disk.root.descendant? (here ++ way ++ [name]) = some entry) :
      disk.root.descendant? (here ++ way ++ [name, "go.mod"]) = entry.child? "go.mod" := by
    rw [List.append_cons, Entry.descendant?_append, hentry, Option.bind_some, Entry.descendant?]
    cases entry.child? "go.mod" <;> rfl
  constructor
  · -- each step that is taken is admitted, and leads into a directory that is entered if it goes on
    intro h
    constructor
    · intro way name rest hnames
      obtain ⟨entry, hentry, -, hvisits⟩ := hstep hnames
      obtain ⟨child, hchild, hvisited⟩ := h way name rest hnames
      obtain rfl := Option.some.inj (hentry.symm.trans hchild)
      exact (hvisits.1 hvisited).1
    · intro way name rest hnames hrest
      obtain ⟨entry, hentry, -, hvisits⟩ := hstep hnames
      obtain ⟨child, hchild, hvisited⟩ := h way name rest hnames
      obtain rfl := Option.some.inj (hentry.symm.trans hchild)
      simpa only [hmodule hentry] using enters_iff.1 ((hvisits.1 hvisited).2 hrest)
  · -- conversely, these conditions are all that a step asks for
    rintro ⟨hadmitted, hentered⟩ way name rest hnames
    obtain ⟨entry, hentry, -, hvisits⟩ := hstep hnames
    refine ⟨entry, hentry, hvisits.2 ⟨hadmitted way name rest hnames, fun hrest => ?_⟩⟩
    exact enters_iff.2 (by simpa only [hmodule hentry] using hentered way name rest hnames hrest)

/-! ### Listings -/

/-- The levels above a project are the ones that apply, as long as none of them has a fault. -/
theorem levelsAbove_eq_ok {disk : Disk} {project : String} {here : Names} {levels : List Level} :
    levelsAbove disk project here = .ok levels ↔
      levels = Level.above disk here ∧ ∀ level ∈ Level.above disk here, level.faults = [] := by
  have hfaults : (Level.above disk here).reverse.flatMap (·.faults) = [] ↔
      ∀ level ∈ Level.above disk here, level.faults = [] := by
    simp [List.flatMap_eq_nil_iff]
  rw [← hfaults, levelsAbove]
  split
  · next hnone => simp [hnone, eq_comm]
  · next hone => simp [hone]
  · next hsome hnone _ => exact iff_of_false (fun h => nomatch h) fun h => hnone h.2

section Project

variable {disk : Disk} {project : String} {options : ScanOptions} {filters : Filters}
  {here names : Names} {children : List (String × Entry)}

/-- A walk comes to the files below the project, unless an ignore file above it has a fault. -/
theorem walk_eq_ok (hpath : isStandardInput project = false)
    (hproject : disk.locate project = .ok (here, .directory children))
    {found : Names × List Names} :
    walk disk project options = .ok found ↔
      found = (here, filesBelow disk options (Level.above disk here) here (.directory children)) ∧
        ∀ level ∈ Level.above disk here, level.faults = [] := by
  rw [walk, hpath, if_neg Bool.false_ne_true, bind_eq_ok]
  simp only [mapError_eq_ok, hproject, Except.ok.injEq, exists_eq_left', Entry.isDirectory, if_true,
    bind_eq_ok, levelsAbove_eq_ok]
  constructor
  · rintro ⟨levels, ⟨rfl, hfaults⟩, hfound⟩
    exact ⟨(Except.ok.inj hfound).symm, hfaults⟩
  · rintro ⟨rfl, hfaults⟩
    exact ⟨_, ⟨rfl, hfaults⟩, rfl⟩

/-- A file below a directory is a source if its last name is that of one. -/
theorem any_getLast?_append (hnames : names ≠ []) :
    (here ++ names).getLast?.any (isSourceName options) = true ↔
      ∃ above stem, names = above ++ [stem ++ ".go"] ∧ stem ≠ "" ∧
        (options.includeTests = true ∨ ∀ start, stem ++ ".go" ≠ start ++ "_test.go") := by
  rcases List.eq_nil_or_concat' names with rfl | ⟨above, name, rfl⟩
  · exact absurd rfl hnames
  · -- the last name of the path is the last one of the names
    rw [← List.append_assoc, List.getLast?_concat, Option.any_some, isSourceName_iff]
    constructor
    · rintro ⟨stem, rfl, hstem⟩
      exact ⟨above, stem, rfl, hstem⟩
    · rintro ⟨above', stem, hname, hstem⟩
      exact ⟨stem, (List.append_inj' hname rfl).2 |> List.cons.inj |>.1, hstem⟩

/-- **What is selected of the files that the walk comes to.** -/
theorem mem_select_filesBelow (hdistinct : (Entry.directory children).Distinct)
    (hentry : disk.root.descendant? here = some (.directory children)) :
    names ∈ select options filters here
        (filesBelow disk options (Level.above disk here) here (.directory children)) ↔
      Selected disk options filters here names := by
  have hbelow (names : Names) : here ++ names ∈
        filesBelow disk options (Level.above disk here) here (.directory children) ↔
      (∃ content, disk.root.descendant? (here ++ names) = some (.file content)) ∧
        Reaches disk options here names := mem_filesBelow hdistinct hentry
  -- the project itself is no file
  have hne {names : Names}
      (hfile : ∃ content, disk.root.descendant? (here ++ names) = some (.file content)) :
      names ≠ [] := by
    rintro rfl
    obtain ⟨content, hcontent⟩ := hfile
    rw [List.append_nil, hentry] at hcontent
    cases hcontent
  rw [select, Sorted.mem_sort, List.mem_filter, List.mem_map]
  simp only [List.mem_filter]
  constructor
  · -- a selected file was found by the walk, so each step to it was taken
    rintro ⟨⟨file, ⟨hfound, hsource⟩, hnames⟩, hallowed⟩
    obtain ⟨after, rfl⟩ := prefix_of_mem_filesBelow hfound
    rw [List.drop_left] at hnames
    subst hnames
    obtain ⟨⟨content, hcontent⟩, hreaches⟩ := (hbelow after).1 hfound
    obtain ⟨hadmitted, hentered⟩ := (reaches_iff hcontent).1 hreaches
    exact ⟨⟨content, hcontent⟩, (any_getLast?_append (hne ⟨content, hcontent⟩)).1 hsource, hallowed,
      hadmitted, hentered⟩
  · -- the walk comes to the file, and its relative path is the one it is looked up by
    rintro ⟨⟨content, hcontent⟩, hsource, hallowed, hadmitted, hentered⟩
    have hreaches := (reaches_iff hcontent).2 ⟨hadmitted, hentered⟩
    refine ⟨⟨here ++ names, ⟨(hbelow names).2 ⟨⟨content, hcontent⟩, hreaches⟩, ?_⟩,
      List.drop_left⟩, hallowed⟩
    exact (any_getLast?_append (hne ⟨content, hcontent⟩)).2 hsource

/-- What is selected of different files stands in strictly increasing order. -/
theorem select_strictly_sorted {found : List Names} (hnodup : found.Nodup)
    (hbegins : ∀ file ∈ found, here <+: file) :
    (select options filters here found).Pairwise fun a b => Sorted.Key.before a b = true := by
  refine Sorted.sort_strictly_sorted (List.Nodup.filter _ ?_)
  -- a file is determined by its path relative to the project
  refine List.Nodup.map_on (fun file hfile other hother hdrop => ?_) (List.Nodup.filter _ hnodup)
  obtain ⟨after, rfl⟩ := hbegins file (List.mem_of_mem_filter hfile)
  obtain ⟨after', rfl⟩ := hbegins other (List.mem_of_mem_filter hother)
  rw [List.drop_left, List.drop_left] at hdrop
  rw [hdrop]

/-- **The files that are listed**, if the project is a directory. There is a listing unless an
ignore file above the project has a fault. It has the selected files and no others, each once and
least first. -/
theorem files_selected (options : ScanOptions) (filters : Filters)
    (hpath : isStandardInput project = false)
    (hproject : disk.locate project = .ok (here, .directory children))
    (hdistinct : (Entry.directory children).Distinct) :
    ((∃ listed, files disk project options filters = .ok listed) ↔
      ∀ level ∈ Level.above disk here, level.faults = []) ∧
    ∀ listed, files disk project options filters = .ok listed →
      (listed.Pairwise fun file next => Sorted.Key.before file next = true) ∧
        ∀ names, names ∈ listed ↔ Selected disk options filters here names := by
  have hfiles (listed : List Names) : files disk project options filters = .ok listed ↔
      listed = select options filters here
          (filesBelow disk options (Level.above disk here) here (.directory children)) ∧
        ∀ level ∈ Level.above disk here, level.faults = [] := by
    rw [files, bind_eq_ok]
    simp only [walk_eq_ok hpath hproject]
    constructor
    · rintro ⟨found, ⟨rfl, hfaults⟩, hlisted⟩
      exact ⟨(Except.ok.inj hlisted).symm, hfaults⟩
    · rintro ⟨rfl, hfaults⟩
      exact ⟨_, ⟨rfl, hfaults⟩, rfl⟩
  have hentry := (Disk.locate_eq_ok.1 hproject).2.2
  refine ⟨⟨?_, fun hfaults => ⟨_, (hfiles _).2 ⟨rfl, hfaults⟩⟩⟩, fun listed hlisted => ?_⟩
  · -- a listing exists only if the walk gets past the ignore files above
    rintro ⟨listed, hlisted⟩
    exact ((hfiles listed).1 hlisted).2
  · -- and then it is what is selected
    rw [((hfiles listed).1 hlisted).1]
    exact ⟨select_strictly_sorted (nodup_filesBelow hdistinct)
      fun file hfile => prefix_of_mem_filesBelow hfile,
      fun names => mem_select_filesBelow hdistinct hentry⟩

end Project

/-- A project with files that are left out for one reason each. Rules would bring some of them
back. -/
def orchard : List (String × Entry) :=
  [("go.mod", .file (.text "module m\n")),
    (".ignore", .file (.text "*_gen.go\n!_old/\n!_old/f.go\n!vendor\n")),
    ("z.go", .file (.text "package m\n")), ("z_test.go", .file (.text "package m\n")),
    (".h.go", .file (.text "package m\n")),
    ("b-x", .directory [("e.go", .file (.text "package e\n"))]),
    ("b", .directory [(".pkgrelignore", .file (.text "!d_gen.go\n")),
      ("d_gen.go", .file (.text "package b\n")), ("c.go", .file (.text "package b\n"))]),
    ("_old", .directory [("f.go", .file (.text "package f\n"))]),
    ("vendor", .directory [("g.go", .file (.text "package g\n"))]),
    ("nested", .directory [("go.mod", .file (.text "module n\n")),
      ("i.go", .file (.text "package i\n"))]),
    ("drafts", .directory [("j.go", .file (.text "package j\n"))])]

/-- The project below an ignore file. -/
def orchardDisk : Disk where
  root := .directory [(".ignore", .file (.text "p/drafts\n")), ("p", .directory orchard)]
  here := []

/-- Four files are listed, and no rule brings back one of those that are left out. -/
theorem files_selected_orchard :
    files orchardDisk "p" .default .none =
      .ok [["b", "c.go"], ["b", "d_gen.go"], ["b-x", "e.go"], ["z.go"]] ∧
    ∀ names, Selected orchardDisk .default .none ["p"] names ↔
      names ∈ [["b", "c.go"], ["b", "d_gen.go"], ["b-x", "e.go"], ["z.go"]] := by
  have hproject : orchardDisk.locate "p" = .ok (["p"], .directory orchard) := rfl
  obtain ⟨-, hselected⟩ :=
    files_selected .default .none (by decide) hproject (by decide +kernel)
  have hlisted : files orchardDisk "p" .default .none =
      .ok [["b", "c.go"], ["b", "d_gen.go"], ["b-x", "e.go"], ["z.go"]] := by
    decide +kernel
  exact ⟨hlisted, fun names => ((hselected _ hlisted).2 names).symm⟩

/-- A project below an ignore file with a fault. -/
def blightedDisk : Disk where
  root := .directory [(".ignore", .file (.text "\x7ba\n")),
    ("p", .directory [("a.go", .file (.text "package a\n"))])]
  here := []

/-- A project that is called by the name of the standard input. -/
def dashDisk : Disk where
  root := .directory [("-", .directory [("a.go", .file (.text "package a\n"))])]
  here := []

/-- Two projects with a file that is selected and not listed: there is no listing of the first one,
and nothing is listed of the second one. -/
theorem selected_not_listed :
    (Selected blightedDisk .default .none ["p"] ["a.go"] ∧
      ∀ listed, files blightedDisk "p" .default .none ≠ .ok listed) ∧
    Selected dashDisk .default .none ["-"] ["a.go"] ∧
      files dashDisk "-" .default .none = .ok [] := by
  have hdistinct : (Entry.directory [("a.go", .file (.text "package a\n"))]).Distinct := by decide
  have hfails : (files blightedDisk "p" .default .none).isOk = false := by decide +kernel
  refine ⟨⟨?_, fun listed hlisted => ?_⟩, ?_, rfl⟩
  · exact (mem_select_filesBelow hdistinct rfl).1 (by decide +kernel)
  · rw [hlisted] at hfails
    cases hfails
  · exact (mem_select_filesBelow hdistinct rfl).1 (by decide +kernel)

end Sources

end PackageGraph
