import PackageGraph.Proofs.Fact.Merged
import PackageGraph.Proofs.Go.PackageName
import PackageGraph.Proofs.Stage
import PackageGraph.Sources

/-!
# Collected facts are exact

What is known of a project's packages is what its listed files say between them (`Collects`): there
is a fact for each directory with a listed file, it has the name that the least file there gives,
and the symbols that all files there use. Whatever has this property is one set of facts
(`Collects.unique`), so it makes no difference in which order a walk comes to the files, or in which
files of a directory a symbol is used (`facts_collected`).

Directories are told apart by their normal spelling, so the files of one package need not stand next
to each other in a listing. The first of them is the least one, since listings are sorted.
-/

namespace PackageGraph.Sources

open Sorted

/-! ### What files say -/

/-- The directory of the package that a file belongs to. -/
def directoryOf (file : Names) : String := Path.normalize (pathOf file.dropLast)

variable {disk : Disk} {project : String} {listed : List Names} {directory : String}

/-- The least listed file in a directory gives the package this name. -/
def IsNamed (disk : Disk) (project : String) (listed : List Names) (directory name : String) :
    Prop :=
  ∃ file ∈ listed, directoryOf file = directory ∧
    (∀ other ∈ listed, directoryOf other = directory → Key.before other file = false) ∧
    ∃ said, usage disk project file = .ok said ∧ said.package = name

/-- A listed file in a directory uses a symbol through a path. -/
def IsUsed (disk : Disk) (project : String) (listed : List Names) (directory path symbol : String) :
    Prop :=
  ∃ file ∈ listed, directoryOf file = directory ∧
    ∃ said, usage disk project file = .ok said ∧ said.usage.Uses path symbol

/-- The facts are what the listed files say. -/
structure Collects (disk : Disk) (project : String) (listed : List Names) (facts : FactSet) :
    Prop where
  /-- There is a fact for each directory with a listed file. -/
  present : ∀ directory, (∃ fact, facts.get? directory = some fact) ↔
    ∃ file ∈ listed, directoryOf file = directory
  /-- It has the name that the least file gives. -/
  name : ∀ directory fact, facts.get? directory = some fact →
    IsNamed disk project listed directory fact.name
  /-- It has the symbols that the files use. -/
  symbols : ∀ directory fact, facts.get? directory = some fact → ∀ path symbols,
    fact.usage.get? path = some symbols →
      ∀ symbol, symbols.contains symbol = true ↔ IsUsed disk project listed directory path symbol
  /-- It names no path that none of the files uses. -/
  absent : ∀ directory fact, facts.get? directory = some fact → ∀ path,
    fact.usage.get? path = none ↔ ∀ file ∈ listed, directoryOf file = directory →
      ∀ said, usage disk project file = .ok said → said.usage.get? path = none

/-! ### Single files -/

/-- What a file says was read off its text. -/
theorem exists_source_of_usage {file : Names} {said : Go.Usage}
    (h : usage disk project file = .ok said) : ∃ source, Go.Usage.ofSource source = .ok said := by
  rw [usage] at h
  split at h
  · cases h
  · next source _ => exact ⟨source, mapError_eq_ok.1 h⟩

/-- A file that can be read names its package. -/
theorem package_ne_empty_of_usage {file : Names} {said : Go.Usage}
    (h : usage disk project file = .ok said) : said.package ≠ "" := by
  obtain ⟨source, hsource⟩ := exists_source_of_usage h
  exact Go.Usage.package_ne_empty hsource

/-- A file names no path that it uses nothing through. -/
theorem occupied_of_usage {file : Names} {said : Go.Usage}
    (h : usage disk project file = .ok said) : said.usage.Occupied := by
  obtain ⟨source, hsource⟩ := exists_source_of_usage h
  rw [Go.Usage.ofSource] at hsource
  split at hsource
  · cases hsource
  · next tree _ =>
    rw [Go.Usage.ofTree] at hsource
    split at hsource
    · cases hsource
    · obtain rfl := Except.ok.inj hsource
      exact tree.occupied_usage

/-! ### Collecting -/

section Facts

variable {said : Names → Go.Usage} {fact : Fact}

/-- The first of the facts on a directory is that of the least file there. -/
theorem isNamed_of_first (hsorted : listed.Pairwise fun file next => Key.before next file = false)
    (hsaid : ∀ file ∈ listed, usage disk project file = .ok (said file))
    {before after : List Fact}
    (hfacts : (listed.map fun file => factOf file (said file)) = before ++ fact :: after)
    (hdirectory : fact.directory = directory)
    (hbefore : ∀ other ∈ before, other.directory ≠ directory) :
    IsNamed disk project listed directory fact.name := by
  -- the facts are those of the files, one for one
  obtain ⟨earlier, found, rfl, hearlier, hfound⟩ := List.map_eq_append_iff.1 hfacts
  obtain ⟨file, later, rfl, rfl, -⟩ := List.map_eq_cons_iff.1 hfound
  refine ⟨file, List.mem_append_cons_self, hdirectory, fun other hother hsame => ?_, said file,
    hsaid file List.mem_append_cons_self, rfl⟩
  rcases List.mem_append.1 hother with hother | hother
  · -- a file that stands before the first one in the directory is in another directory
    refine absurd hsame (hbefore (factOf other (said other)) ?_)
    exact hearlier ▸ List.mem_map_of_mem hother
  · rcases List.mem_cons.1 hother with rfl | hother
    · exact Key.before_irrefl other
    · -- no later file is less, since the listing is sorted
      exact (List.pairwise_cons.1 (List.pairwise_append.1 hsorted).2.1).1 other hother

/-- **The facts of files that can be read are collected as the files say.** -/
theorem collects_ofList (hsorted : listed.Pairwise fun file next => Key.before next file = false)
    (hsaid : ∀ file ∈ listed, usage disk project file = .ok (said file)) :
    Collects disk project listed (.ofList (listed.map fun file => factOf file (said file))) := by
  have hnames : ∀ fact ∈ listed.map fun file => factOf file (said file), fact.name ≠ "" := by
    intro fact hfact
    obtain ⟨file, hfile, rfl⟩ := List.mem_map.1 hfact
    exact package_ne_empty_of_usage (hsaid file hfile)
  constructor
  case present =>
    intro directory
    rw [← Option.isSome_iff_exists, FactSet.isSome_get?_ofList]
    simp only [List.mem_map, exists_exists_and_eq_and]
    rfl
  case name =>
    intro directory fact hfact
    obtain ⟨⟨first, before, after, hfacts, hdirectory, hbefore, hname⟩, -⟩ :=
      FactSet.get?_ofList_eq_some hnames hfact
    rw [hname]
    exact isNamed_of_first hsorted hsaid hfacts hdirectory hbefore
  case symbols =>
    intro directory fact hfact path symbols hsymbols symbol
    obtain ⟨-, huses, -⟩ := FactSet.get?_ofList_eq_some hnames hfact
    have hcontains : symbols.contains symbol = true ↔ fact.usage.Uses path symbol := by
      simp [ImportUsage.Uses, hsymbols]
    rw [hcontains, huses]
    constructor
    · -- each fact that was put in is that of a listed file
      rintro ⟨other, hother, hdirectory, huses⟩
      obtain ⟨file, hfile, rfl⟩ := List.mem_map.1 hother
      exact ⟨file, hfile, hdirectory, said file, hsaid file hfile, huses⟩
    · rintro ⟨file, hfile, hdirectory, other, hother, huses⟩
      obtain rfl := Except.ok.inj ((hsaid file hfile).symm.trans hother)
      exact ⟨factOf file (said file), List.mem_map_of_mem hfile, hdirectory, huses⟩
  case absent =>
    intro directory fact hfact path
    obtain ⟨-, -, hcontains⟩ := FactSet.get?_ofList_eq_some hnames hfact
    rw [← Option.not_isSome_iff_eq_none, ← Map.contains, hcontains]
    constructor
    · -- a file that uses the path would bring it into the fact
      intro hnone file hfile hdirectory other hother
      obtain rfl := Except.ok.inj ((hsaid file hfile).symm.trans hother)
      refine Option.not_isSome_iff_eq_none.1 fun hsome => hnone ?_
      exact ⟨factOf file (said file), List.mem_map_of_mem hfile, hdirectory, hsome⟩
    · rintro hnone ⟨other, hother, hdirectory, hsome⟩
      obtain ⟨file, hfile, rfl⟩ := List.mem_map.1 hother
      refine Option.not_isSome_iff_eq_none.2 ?_ hsome
      exact hnone file hfile hdirectory (said file) (hsaid file hfile)

end Facts

/-- **Listed files that can be read are collected.** -/
theorem factsOf_collects (hsorted : listed.Pairwise fun file next => Key.before next file = false)
    (hparsed : ∀ file ∈ listed, ∃ said, usage disk project file = .ok said) :
    ∃ facts, factsOf disk project listed = .ok facts ∧ Collects disk project listed facts := by
  -- what each file says, as a function of the file
  obtain ⟨said, hsaid⟩ : ∃ said : Names → Go.Usage,
      ∀ file ∈ listed, usage disk project file = .ok (said file) := by
    refine ⟨fun file => (usage disk project file).toOption.getD default, fun file hfile => ?_⟩
    obtain ⟨said, hsaid⟩ := hparsed file hfile
    dsimp only
    rw [hsaid]
    rfl
  refine ⟨_, ?_, collects_ofList hsorted hsaid⟩
  have hmapM : (listed.mapM fun file => factOf file <$> usage disk project file) =
      .ok (listed.map fun file => factOf file (said file)) :=
    mapM_eq_pure fun file hfile => by rw [hsaid file hfile]; rfl
  rw [factsOf, hmapM]
  rfl

/-- Facts are collected only if every listed file can be read. -/
theorem exists_usage_of_factsOf {facts : FactSet} (h : factsOf disk project listed = .ok facts) :
    ∀ file ∈ listed, ∃ said, usage disk project file = .ok said := by
  intro file hfile
  obtain ⟨stated, hstated, -⟩ := bind_eq_ok.1 h
  obtain ⟨fact, hfact⟩ := exists_ok_of_mapM_eq_ok hstated file hfile
  rw [map_eq_pure_bind] at hfact
  obtain ⟨said, hsaid, -⟩ := bind_eq_ok.1 hfact
  exact ⟨said, hsaid⟩

/-! ### One result -/

/-- There is one least file, so there is one name. -/
theorem IsNamed.unique {name name' : String} (h : IsNamed disk project listed directory name)
    (h' : IsNamed disk project listed directory name') : name = name' := by
  obtain ⟨file, hfile, hdirectory, hleast, said, hsaid, rfl⟩ := h
  obtain ⟨file', hfile', hdirectory', hleast', said', hsaid', rfl⟩ := h'
  obtain rfl := Key.before_connected (hleast' file hfile hdirectory)
    (hleast file' hfile' hdirectory')
  rw [hsaid] at hsaid'
  rw [Except.ok.inj hsaid']

namespace Collects

variable {facts : FactSet} {fact : Fact} {path symbol : String}

/-- **A fact uses what the files in its directory use.** -/
theorem uses_iff (h : Collects disk project listed facts)
    (hfact : facts.get? directory = some fact) :
    fact.usage.Uses path symbol ↔ IsUsed disk project listed directory path symbol := by
  constructor
  · rintro ⟨symbols, hsymbols, hsymbol⟩
    exact (h.symbols directory fact hfact path symbols hsymbols symbol).1 hsymbol
  · intro hused
    cases hsymbols : fact.usage.get? path with
    | some symbols =>
      have hsymbol := (h.symbols directory fact hfact path symbols hsymbols symbol).2 hused
      exact ⟨symbols, hsymbols, hsymbol⟩
    | none =>
      -- then no file in the directory has the path
      obtain ⟨file, hfile, hdirectory, said, hsaid, symbols, hsome, -⟩ := hused
      have hnone := (h.absent directory fact hfact path).1 hsymbols file hfile hdirectory said hsaid
      cases hsome.symm.trans hnone

/-- No path is left in a fact without a symbol. -/
theorem occupied (h : Collects disk project listed facts)
    (hfact : facts.get? directory = some fact) : fact.usage.Occupied := by
  intro path hcontains
  by_contra hidle
  refine Option.not_isSome_iff_eq_none.2 ((h.absent directory fact hfact path).2 ?_) hcontains
  intro file hfile hdirectory said hsaid
  refine Option.not_isSome_iff_eq_none.1 fun hsome => hidle ?_
  obtain ⟨symbol, huses⟩ := occupied_of_usage hsaid path hsome
  exact ⟨symbol, (h.uses_iff hfact).2 ⟨file, hfile, hdirectory, said, hsaid, huses⟩⟩

/-- **Files that say the same are collected as the same facts**: those whose packages have the same
names and use the same symbols. -/
theorem unique {disk' : Disk} {project' : String} {listed' : List Names} {facts' : FactSet}
    (h : Collects disk project listed facts) (h' : Collects disk' project' listed' facts')
    (hnamed : ∀ directory name, IsNamed disk project listed directory name ↔
      IsNamed disk' project' listed' directory name)
    (hused : ∀ directory path symbol, IsUsed disk project listed directory path symbol ↔
      IsUsed disk' project' listed' directory path symbol) : facts = facts' := by
  refine FactSet.ext fun directory => ?_
  -- a directory with a fact is one whose package has a name
  have hpresent : (∃ fact, facts.get? directory = some fact) ↔
      ∃ fact, facts'.get? directory = some fact := by
    constructor
    · rintro ⟨fact, hfact⟩
      obtain ⟨file, hfile, hdirectory, -⟩ :=
        (hnamed directory fact.name).1 (h.name directory fact hfact)
      exact (h'.present directory).2 ⟨file, hfile, hdirectory⟩
    · rintro ⟨fact, hfact⟩
      obtain ⟨file, hfile, hdirectory, -⟩ :=
        (hnamed directory fact.name).2 (h'.name directory fact hfact)
      exact (h.present directory).2 ⟨file, hfile, hdirectory⟩
  cases hfact : facts.get? directory with
  | none =>
    cases hfact' : facts'.get? directory with
    | none => rfl
    | some fact' => simp [hfact, hfact'] at hpresent
  | some fact =>
    obtain ⟨fact', hfact'⟩ := hpresent.1 ⟨fact, hfact⟩
    have hname : fact.name = fact'.name :=
      IsNamed.unique (h.name directory fact hfact) ((hnamed _ _).2 (h'.name directory fact' hfact'))
    have hdirectory : fact.directory = fact'.directory :=
      (facts.keyed hfact).trans (facts'.keyed hfact').symm
    -- no path is there without a symbol, so the symbols determine the paths as well
    have husage : fact.usage = fact'.usage :=
      (h.occupied hfact).ext (h'.occupied hfact') fun path symbol => by
        rw [h.uses_iff hfact, h'.uses_iff hfact', hused]
    rw [hfact']
    cases fact
    cases fact'
    simp_all

end Collects

/-! ### Whole projects -/

variable {options : ScanOptions} {filters : Filters}

/-- A listing is what is selected of the files that a walk comes to. -/
theorem files_eq_ok :
    files disk project options filters = .ok listed ↔
      ∃ here found, walk disk project options = .ok (here, found) ∧
        listed = select options filters here found := by
  rw [files, bind_eq_ok]
  constructor
  · rintro ⟨⟨here, found⟩, hwalk, hlisted⟩
    exact ⟨here, found, hwalk, (Except.ok.inj hlisted).symm⟩
  · rintro ⟨here, found, hwalk, rfl⟩
    exact ⟨(here, found), hwalk, rfl⟩

/-- The order of a walk makes no difference to what is selected. -/
theorem select_eq_of_perm {here : Names} {found found' : List Names} (h : found.Perm found') :
    select options filters here found = select options filters here found' :=
  sort_eq_of_perm (((h.filter _).map _).filter _)

/-- The listing of a project is sorted, so its files are collected as they say. -/
theorem collects_facts (hlisted : files disk project options filters = .ok listed)
    (hparsed : ∀ file ∈ listed, ∃ said, usage disk project file = .ok said) :
    ∃ collected, facts disk project options filters = .ok collected ∧
      factsOf disk project listed = .ok collected ∧ Collects disk project listed collected := by
  obtain ⟨here, found, -, hselect⟩ := files_eq_ok.1 hlisted
  have hsorted : listed.Pairwise fun file next => Key.before next file = false :=
    hselect ▸ sort_sorted _
  obtain ⟨collected, hfacts, hcollects⟩ := factsOf_collects hsorted hparsed
  exact ⟨collected, by rw [facts, hlisted]; exact hfacts, hfacts, hcollects⟩

/-- **Collecting loses and adds nothing.** If every listed file of a project can be read, the facts
that are collected are what the files say. They are the same in whatever order the walk comes to the
files, and for any other project, or another state of this one, in which the packages have the same
names and use the same symbols. -/
theorem facts_collected (hlisted : files disk project options filters = .ok listed)
    (hparsed : ∀ file ∈ listed, ∃ said, usage disk project file = .ok said) :
    ∃ collected, facts disk project options filters = .ok collected ∧
      Collects disk project listed collected ∧
      (∀ here found found', walk disk project options = .ok (here, found) → found.Perm found' →
        factsOf disk project (select options filters here found') = .ok collected) ∧
      ∀ disk' project' options' filters' listed',
        files disk' project' options' filters' = .ok listed' →
        (∀ file ∈ listed', ∃ said, usage disk' project' file = .ok said) →
        (∀ directory name, IsNamed disk' project' listed' directory name ↔
          IsNamed disk project listed directory name) →
        (∀ directory path symbol, IsUsed disk' project' listed' directory path symbol ↔
          IsUsed disk project listed directory path symbol) →
        facts disk' project' options' filters' = .ok collected := by
  obtain ⟨collected, hfacts, hfactsOf, hcollects⟩ := collects_facts hlisted hparsed
  refine ⟨collected, hfacts, hcollects, fun here found found' hwalk hperm => ?_, ?_⟩
  · -- another order of the walk is sorted to the same listing
    obtain ⟨here', found₀, hwalk', rfl⟩ := files_eq_ok.1 hlisted
    rw [hwalk] at hwalk'
    obtain ⟨rfl, rfl⟩ := Prod.mk.inj (Except.ok.inj hwalk')
    rw [← select_eq_of_perm hperm]
    exact hfactsOf
  · -- what is collected of the other files has the same names and symbols
    intro disk' project' options' filters' listed' hlisted' hparsed' hnamed hused
    obtain ⟨collected', hfacts', -, hcollects'⟩ := collects_facts hlisted' hparsed'
    rw [hfacts', hcollects'.unique hcollects hnamed hused]

/-- A project in which two directories hold one package, since their spellings differ by a blank,
and the files of another package are listed between them. -/
def scatteredDisk : Disk where
  root := .directory [("p", .directory [("a", .directory [("y.go",
        .file (.text "package two\nimport \"m/b\"\nimport \"m/c\"\nvar _ = b.B + b.D + c.C\n"))]),
      ("Z", .directory [("z.go", .file (.text "package z\n"))]),
      (" a", .directory [("x.go",
        .file (.text "package one\nimport \"m/b\"\nvar _ = b.A + b.B\n"))])])]
  here := []

/-- Of such a project the least file gives the name, and what both files use is put together. -/
theorem facts_collected_scattered : ∃ listed collected,
    files scatteredDisk "p" .default .none = .ok listed ∧
      listed = [[" a", "x.go"], ["Z", "z.go"], ["a", "y.go"]] ∧
      (∀ file ∈ listed, ∃ said, usage scatteredDisk "p" file = .ok said) ∧
      facts scatteredDisk "p" .default .none = .ok collected ∧
      Collects scatteredDisk "p" listed collected ∧
      collected.get? "a" = some ⟨"one", "a",
        (ImportUsage.record .empty "m/b" ["A", "B", "D"]).record "m/c" ["C"]⟩ := by
  have hlisted : files scatteredDisk "p" .default .none =
      .ok [[" a", "x.go"], ["Z", "z.go"], ["a", "y.go"]] := by
    decide +kernel
  have hreadable : ∀ file ∈ [[" a", "x.go"], ["Z", "z.go"], ["a", "y.go"]],
      (usage scatteredDisk "p" file).isOk = true := by
    decide +kernel
  have hparsed : ∀ file ∈ [[" a", "x.go"], ["Z", "z.go"], ["a", "y.go"]],
      ∃ said, usage scatteredDisk "p" file = .ok said := by
    exact fun file hfile => exists_ok_of_isOk (hreadable file hfile)
  obtain ⟨collected, hfacts, hcollects, -⟩ := facts_collected hlisted hparsed
  have hfact : (facts scatteredDisk "p" .default .none).toOption.bind (·.get? "a") =
      some ⟨"one", "a", (ImportUsage.record .empty "m/b" ["A", "B", "D"]).record "m/c" ["C"]⟩ := by
    decide +kernel
  rw [hfacts] at hfact
  exact ⟨_, collected, hlisted, rfl, hparsed, hfacts, hcollects, hfact⟩

end PackageGraph.Sources
