import Mathlib.Data.Finset.Card
import PackageGraph.Proofs.Fact.Union
import PackageGraph.Proofs.Path.Normal
import PackageGraph.Proofs.Sources.Unread
import PackageGraph.Proofs.Text.Trim

/-!
# When directories are different packages

Files contribute to one fact if their directories have one canonical spelling
(`Sources.share_iff`), so there are as many facts as there are such spellings
(`Sources.size_of_facts`). Two directories of a disk may have one spelling: a blank at an end of the
path is left out of it, and a backslash in a name becomes a slash. So directories are different
packages just if the facts are as many as the directories, and this holds for all trees without such
names (`Sources.facts_apart`), but not for all trees (`Sources.facts_merged`).
-/

namespace PackageGraph.Sources

open Text

variable {disk : Disk} {project : String} {options : ScanOptions} {filters : Filters}
  {listed : List Names} {collected : FactSet} {file other : Names}

/-! ### Shared facts -/

/-- The fact that a file states was collected into this one. -/
def Contributes (disk : Disk) (project : String) (collected : FactSet) (file : Names)
    (fact : Fact) : Prop :=
  ∃ said, usage disk project file = .ok said ∧
    collected.get? (factOf file said).directory = some fact

/-- Two files contribute to one fact. -/
def Share (disk : Disk) (project : String) (collected : FactSet) (file other : Names) : Prop :=
  ∃ fact, Contributes disk project collected file fact ∧
    Contributes disk project collected other fact

/-- Files contribute to one fact exactly if they have the same parent directory. -/
def IsApart (disk : Disk) (project : String) (listed : List Names) (collected : FactSet) : Prop :=
  ∀ file ∈ listed, ∀ other ∈ listed,
    Share disk project collected file other ↔ file.dropLast = other.dropLast

/-- If facts are collected, every listed file can be read. -/
theorem exists_usage_of_facts (hlisted : files disk project options filters = .ok listed)
    (hcollected : facts disk project options filters = .ok collected) :
    ∀ file ∈ listed, ∃ said, usage disk project file = .ok said := by
  rw [facts, hlisted] at hcollected
  exact exists_usage_of_factsOf hcollected

/-- What is collected is what the listed files say. -/
theorem collects_of_facts (hlisted : files disk project options filters = .ok listed)
    (hcollected : facts disk project options filters = .ok collected) :
    Collects disk project listed collected := by
  obtain ⟨collected', hcollected', -, hcollects⟩ :=
    collects_facts hlisted (exists_usage_of_facts hlisted hcollected)
  obtain rfl := Except.ok.inj (hcollected.symm.trans hcollected')
  exact hcollects

/-- **Files share a fact if their directories have one canonical spelling.** -/
theorem share_iff (hlisted : files disk project options filters = .ok listed)
    (hcollected : facts disk project options filters = .ok collected) (hfile : file ∈ listed)
    (hother : other ∈ listed) :
    Share disk project collected file other ↔ directoryOf file = directoryOf other := by
  have hcollects := collects_of_facts hlisted hcollected
  have hparsed := exists_usage_of_facts hlisted hcollected
  constructor
  · -- a fact has one directory, which is that of both files
    rintro ⟨fact, ⟨said, -, hfact⟩, said', -, hfact'⟩
    exact (collected.keyed hfact).symm.trans (collected.keyed hfact')
  · -- both files state a fact on this directory, so there is one
    intro hsame
    obtain ⟨fact, hfact⟩ := (hcollects.present (directoryOf file)).2 ⟨file, hfile, rfl⟩
    obtain ⟨said, hsaid⟩ := hparsed file hfile
    obtain ⟨said', hsaid'⟩ := hparsed other hother
    exact ⟨fact, ⟨said, hsaid, hfact⟩, said', hsaid', (hsame ▸ hfact :)⟩

/-- **There is one fact for each canonical spelling** of a directory with a listed file. -/
theorem size_of_facts (hlisted : files disk project options filters = .ok listed)
    (hcollected : facts disk project options filters = .ok collected) :
    collected.size = (listed.map directoryOf).toFinset.card := by
  have hcollects := collects_of_facts hlisted hcollected
  rw [List.card_toFinset]
  refine FactSet.size_eq_of_isSome fun directory => ?_
  rw [Option.isSome_iff_exists, hcollects.present, List.mem_map]

/-- **Directories are apart just if the facts are as many as the directories.** -/
theorem isApart_iff_size (hlisted : files disk project options filters = .ok listed)
    (hcollected : facts disk project options filters = .ok collected) :
    IsApart disk project listed collected ↔
      collected.size = (listed.map List.dropLast).toFinset.card := by
  -- the spellings are the image of the directories, which has their number if nothing is merged
  have himage : (listed.map directoryOf).toFinset =
      (listed.map List.dropLast).toFinset.image fun names => Path.normalize (pathOf names) := by
    ext directory
    simp [directoryOf]
  rw [size_of_facts hlisted hcollected, himage, Finset.card_image_iff]
  constructor
  · -- directories with one spelling have files that share a fact
    intro hapart directory hdirectory directory' hdirectory' hsame
    simp only [List.coe_toFinset, List.mem_map, Set.mem_ofPred_eq] at hdirectory hdirectory'
    obtain ⟨file, hfile, rfl⟩ := hdirectory
    obtain ⟨other, hother, rfl⟩ := hdirectory'
    exact (hapart file hfile other hother).1 ((share_iff hlisted hcollected hfile hother).2 hsame)
  · -- conversely, the spelling determines the directory
    intro hinj file hfile other hother
    rw [share_iff hlisted hcollected hfile hother]
    refine ⟨fun hsame => hinj ?_ ?_ hsame, fun hsame => ?_⟩
    · simpa using ⟨file, hfile, rfl⟩
    · simpa using ⟨other, hother, rfl⟩
    · rw [directoryOf, directoryOf, hsame]

/-! ### Paths that are canonical as they stand -/

/-- The path of a directory has no backslash and no blank at an end. -/
structure IsSpelled (directory : Names) : Prop where
  /-- It has no backslash. -/
  slash : '\\' ∉ (pathOf directory).toList
  /-- It does not begin with a blank. -/
  head : ∀ c ∈ (pathOf directory).toList.head?, isBlank c = false
  /-- It does not end with a blank. -/
  last : ∀ c ∈ (pathOf directory).toList.getLast?, isBlank c = false

theorem isSpelled_iff {directory : Names} : IsSpelled directory ↔
    '\\' ∉ (pathOf directory).toList ∧ (pathOf directory).toList.head?.all (!isBlank ·) = true ∧
      (pathOf directory).toList.getLast?.all (!isBlank ·) = true := by
  simp only [Option.all_eq_true, Bool.not_eq_true']
  exact ⟨fun h => ⟨h.slash, h.head, h.last⟩, fun ⟨hslash, hhead, hlast⟩ => ⟨hslash, hhead, hlast⟩⟩

instance (directory : Names) : Decidable (IsSpelled directory) :=
  decidable_of_iff _ isSpelled_iff.symm

/-- Only no names at all have the empty path. -/
theorem pathOf_ne_empty {names : Names} (hne : names ≠ []) (hnames : ∀ name ∈ names, IsName name) :
    pathOf names ≠ "" :=
  (Disk.isRelative_joinWith hne hnames).ne_empty

/-- **Names have a path of their own.** -/
theorem pathOf_inj {names names' : Names} (hnames : ∀ name ∈ names, IsName name)
    (hnames' : ∀ name ∈ names', IsName name) (h : pathOf names = pathOf names') :
    names = names' := by
  by_cases hne : names = []
  · subst hne
    by_contra hne'
    exact pathOf_ne_empty (Ne.symm hne') hnames' h.symm
  · have hne' : names' ≠ [] := by
      rintro rfl
      exact pathOf_ne_empty hne hnames h
    -- the components of the path are the names
    rw [← Disk.components_joinWith hne hnames, ← Disk.components_joinWith hne' hnames']
    exact congrArg Disk.components h

/-- **The path of a directory without such names is canonical as it stands.** -/
theorem IsSpelled.normalize_eq {directory : Names} (h : IsSpelled directory)
    (hnames : ∀ name ∈ directory, IsName name) :
    Path.normalize (pathOf directory) = pathOf directory := by
  have htrim : trim (pathOf directory).toList = (pathOf directory).toList :=
    trim_eq_self_iff.2 ⟨h.head, h.last⟩
  refine Path.normalize_eq_self htrim h.slash fun part hpart => ?_
  by_cases hne : directory = []
  · rw [hne, pathOf_nil] at hpart
    cases hpart
  · rw [Path.parts_of_ne (pathOf_ne_empty hne hnames)] at hpart
    exact (Disk.isPlain_joinWith hne hnames part hpart).1

/-- The path of a listed file consists of names. -/
theorem isName_of_mem_files (hregular : disk.Regular)
    (hlisted : files disk project options filters = .ok listed) (hfile : file ∈ listed) :
    ∀ name ∈ file, IsName name := by
  by_cases hproject : IsProject disk project
  · obtain ⟨content, -, here, children, -, hcontent, -⟩ :=
      ((files_listed hregular hproject hlisted).2 file).1 hfile
    exact fun name hname => hregular.names _ _ hcontent name (List.mem_append_right here hname)
  · -- the project is a file itself, which no name leads to from there
    obtain ⟨hpath, hdirectory⟩ := not_or.1 hproject
    obtain ⟨here, found, hwalk, rfl⟩ := files_eq_ok.1 hlisted
    rw [walk, if_neg hpath] at hwalk
    obtain ⟨⟨place, entry⟩, hlocate, hwalk⟩ := bind_eq_ok.1 hwalk
    cases entry with
    | directory children =>
      exact absurd ⟨place, children, mapError_eq_ok.1 hlocate⟩ hdirectory
    | file content =>
      obtain ⟨rfl, rfl⟩ := Prod.mk.inj (Except.ok.inj hwalk)
      rw [select, Sorted.mem_sort, List.mem_filter, List.mem_map] at hfile
      obtain ⟨⟨path, hpath, rfl⟩, -⟩ := hfile
      obtain rfl := List.mem_singleton.1 (filesBelow_file .. ▸ List.mem_of_mem_filter hpath)
      rw [List.drop_length]
      exact fun _ hname => absurd hname List.not_mem_nil

/-- So files of one package are in one directory, if both are spelled in this way. -/
theorem directoryOf_inj (hregular : disk.Regular)
    (hlisted : files disk project options filters = .ok listed) (hfile : file ∈ listed)
    (hother : other ∈ listed) (hspelled : IsSpelled file.dropLast)
    (hspelled' : IsSpelled other.dropLast) (h : directoryOf file = directoryOf other) :
    file.dropLast = other.dropLast := by
  have hnames : ∀ name ∈ file.dropLast, IsName name := fun name hname =>
    isName_of_mem_files hregular hlisted hfile name (List.mem_of_mem_dropLast hname)
  have hnames' : ∀ name ∈ other.dropLast, IsName name := fun name hname =>
    isName_of_mem_files hregular hlisted hother name (List.mem_of_mem_dropLast hname)
  rw [directoryOf, directoryOf, hspelled.normalize_eq hnames, hspelled'.normalize_eq hnames'] at h
  exact pathOf_inj hnames hnames' h

/-! ### Different directories -/

/-- **When different directories are different packages.** For every disk and project of which facts
are collected, two listed files contribute to one fact exactly if their directories have one
canonical spelling, and there is a fact for each of these spellings. That they do so exactly if they
have the same directory comes to the same as that the facts are as many as the directories; and so
it is if the path of no directory has a backslash or a blank at an end. -/
theorem facts_apart (hregular : disk.Regular)
    (hlisted : files disk project options filters = .ok listed)
    (hcollected : facts disk project options filters = .ok collected) :
    (∀ file ∈ listed, ∀ other ∈ listed, Share disk project collected file other ↔
      Path.normalize (pathOf file.dropLast) = Path.normalize (pathOf other.dropLast)) ∧
    collected.size =
      (listed.map fun file => Path.normalize (pathOf file.dropLast)).toFinset.card ∧
    (IsApart disk project listed collected ↔
      collected.size = (listed.map List.dropLast).toFinset.card) ∧
    ((∀ file ∈ listed, IsSpelled file.dropLast) → IsApart disk project listed collected) := by
  refine ⟨fun file hfile other hother => share_iff hlisted hcollected hfile hother,
    size_of_facts hlisted hcollected, isApart_iff_size hlisted hcollected,
    fun hspelled file hfile other hother => ?_⟩
  -- spellings of such directories are the directories themselves
  rw [share_iff hlisted hcollected hfile hother]
  refine ⟨directoryOf_inj hregular hlisted hfile hother (hspelled file hfile)
    (hspelled other hother), fun hsame => ?_⟩
  rw [directoryOf, directoryOf, hsame]

/-- A module with two files in one directory and one below it. -/
def nestedDisk : Disk where
  root := .directory [("p", .directory [("w.go", .file (.text "package w\n")),
    ("a", .directory [("x.go", .file (.text "package a\n")), ("y.go", .file (.text "package a\n")),
      ("b", .directory [("z.go", .file (.text "package b\n"))])])])]
  here := []

/-- Two files are in one package, and the one below them in another. -/
theorem facts_apart_nested : ∃ listed collected,
    nestedDisk.Regular ∧ files nestedDisk "p" .default .none = .ok listed ∧
      listed = [["a", "b", "z.go"], ["a", "x.go"], ["a", "y.go"], ["w.go"]] ∧
      facts nestedDisk "p" .default .none = .ok collected ∧
      (∀ file ∈ listed, IsSpelled file.dropLast) ∧ collected.size = 3 ∧
      Share nestedDisk "p" collected ["a", "x.go"] ["a", "y.go"] ∧
      ¬Share nestedDisk "p" collected ["a", "x.go"] ["a", "b", "z.go"] := by
  have hregular : nestedDisk.Regular := Disk.regular_of_isNamed (by decide) (by decide)
  have hlisted : files nestedDisk "p" .default .none =
      .ok [["a", "b", "z.go"], ["a", "x.go"], ["a", "y.go"], ["w.go"]] := by
    decide +kernel
  have hisOk : (facts nestedDisk "p" .default .none).isOk = true := by decide +kernel
  have hspelled : ∀ file ∈ [["a", "b", "z.go"], ["a", "x.go"], ["a", "y.go"], ["w.go"]],
      IsSpelled file.dropLast := by
    decide +kernel
  obtain ⟨collected, hcollected⟩ := exists_ok_of_isOk hisOk
  obtain ⟨-, -, hsize, hapart⟩ := facts_apart hregular hlisted hcollected
  have hapart := hapart hspelled
  refine ⟨_, collected, hregular, hlisted, rfl, hcollected, hspelled, (hsize.1 hapart).trans rfl,
    ?_, ?_⟩
  · exact (hapart _ (by decide) _ (by decide)).2 rfl
  · exact fun hshare => absurd ((hapart _ (by decide) _ (by decide)).1 hshare) (by decide)

/-- A module whose directories have one spelling two by two. -/
def blurredDisk : Disk where
  root := .directory [("p", .directory [("a", .directory [("x.go", .file (.text "package a\n"))]),
    (" a", .directory [("y.go", .file (.text "package a\n"))]),
    ("b", .directory [("c", .directory [("w.go", .file (.text "package c\n"))])]),
    ("b\\c", .directory [("z.go", .file (.text "package c\n"))])])]
  here := []

/-- Files in two directories contribute to one fact, as one path begins with a blank, and so do
files in two others, as a name has a backslash. -/
theorem facts_merged : ∃ listed collected,
    blurredDisk.Regular ∧ files blurredDisk "p" .default .none = .ok listed ∧
      facts blurredDisk "p" .default .none = .ok collected ∧
      [" a", "y.go"] ∈ listed ∧ ["a", "x.go"] ∈ listed ∧
      Share blurredDisk "p" collected [" a", "y.go"] ["a", "x.go"] ∧
      ["b", "c", "w.go"] ∈ listed ∧ ["b\\c", "z.go"] ∈ listed ∧
      Share blurredDisk "p" collected ["b", "c", "w.go"] ["b\\c", "z.go"] ∧
      ¬IsApart blurredDisk "p" listed collected ∧
      collected.size = 2 ∧ (listed.map List.dropLast).toFinset.card = 4 := by
  have hregular : blurredDisk.Regular := Disk.regular_of_isNamed (by decide) (by decide)
  have hlisted : files blurredDisk "p" .default .none =
      .ok [[" a", "y.go"], ["a", "x.go"], ["b", "c", "w.go"], ["b\\c", "z.go"]] := by
    decide +kernel
  have hisOk : (facts blurredDisk "p" .default .none).isOk = true := by decide +kernel
  obtain ⟨collected, hcollected⟩ := exists_ok_of_isOk hisOk
  have hblank : Share blurredDisk "p" collected [" a", "y.go"] ["a", "x.go"] :=
    (share_iff hlisted hcollected (by decide) (by decide)).2 (by decide +kernel)
  have hslash : Share blurredDisk "p" collected ["b", "c", "w.go"] ["b\\c", "z.go"] :=
    (share_iff hlisted hcollected (by decide) (by decide)).2 (by decide +kernel)
  refine ⟨_, collected, hregular, hlisted, hcollected, by decide, by decide, hblank, by decide,
    by decide, hslash, fun hapart => ?_, (size_of_facts hlisted hcollected).trans ?_, rfl⟩
  -- two files share a fact, and they are not in one directory
  · exact absurd ((hapart _ (by decide) _ (by decide)).1 hblank) (by decide)
  -- there are four directories, and two spellings
  · decide +kernel

end PackageGraph.Sources
