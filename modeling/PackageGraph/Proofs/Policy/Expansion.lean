import PackageGraph.Proofs.Disk.Joined
import PackageGraph.Proofs.Policy.Refused

/-!
# The expansion of excluded directories

The set of identifiers that a policy leaves out is known exactly: the packages that the rules name,
and every directory of the project at or below an excluded one, however deep, hidden or vendored it
is (`Policy.excluded_ofRules`). On a disk as systems keep them a directory is listed under the names
that a path to it spells, so the listing of an excluded directory and the paths that go down from it
come to the same directories (`Policy.exists_mem_packagesBelow_iff_descends`).

An entry is spelled canonically before it is looked up, and each path below it is once more before
it is qualified: an entry may begin with a blank behind a slash, and a directory may end with one.
-/

namespace PackageGraph.Policy

open Sorted

variable {rules : PolicyRules} {moduleRoot project : String} {disk : Disk} {policy : Policy}

/-- **A directory is expanded to the directories that paths lead down to.** -/
theorem exists_mem_packagesBelow_iff_descends (hregular : disk.Regular) {top id : String}
    (htop : top ≠ "") :
    (∃ ids, packagesBelow disk project moduleRoot top = .ok ids ∧ id ∈ ids) ↔
      ∃ written, Path.Descends top written ∧
        disk.isDirectory (Disk.joinPath project written) = true ∧
        Path.qualify moduleRoot (Path.normalize written) = id := by
  constructor
  · -- a directory that is listed is the entry itself, or stands behind names
    intro h
    obtain ⟨here, children, names, below, hlocate, hbelow, hid⟩ :=
      (exists_mem_packagesBelow hregular.distinct).1 h
    cases names with
    | nil => exact ⟨top, .inl rfl, Disk.isDirectory_iff.2 ⟨here, children, hlocate⟩, hid⟩
    | cons name names =>
      have hne : name :: names ≠ [] := List.cons_ne_nil name names
      have hnames : ∀ other ∈ name :: names, IsName other := fun other hother =>
        hregular.names _ _ hbelow other (List.mem_append_right here hother)
      refine ⟨top ++ "/" ++ Text.joinWith "/" (name :: names),
        .inr ⟨_, Disk.isPlain_joinWith hne hnames, rfl⟩,
        Disk.isDirectory_iff.2 ⟨here ++ name :: names, below, ?_⟩, hid⟩
      rw [Disk.joinPath_append htop]
      exact Disk.locate_append_names hlocate hne hnames hbelow
  · -- every path down leads to one that is listed
    rintro ⟨written, hdescends, hdirectory, rfl⟩
    exact mem_packagesBelow_of_descends htop hdescends hdirectory

/-- Blank entries are passed over. -/
theorem expandDirectories_filter (disk : Disk) (project moduleRoot : String)
    (directories : List String) :
    expandDirectories disk project moduleRoot
        (directories.filter fun entry => !(Path.normalize entry).isEmpty) =
      expandDirectories disk project moduleRoot directories := by
  -- an entry is blank before it is spelled canonically if it is afterwards
  have hfilter (f : String → String) (p : String → Bool) :
      ((directories.filter fun entry => p (f entry)).map f).filter p =
        (directories.map f).filter p := by
    simp [List.filter_map, List.filter_filter, Function.comp_def]
  rw [expandDirectories, expandDirectories, hfilter Path.normalize fun entry => !entry.isEmpty]

/-- **Rules with a missing directory are refused**, at the latest when the first one is met. -/
theorem ofRules_of_isMissing
    (h : ∃ entry ∈ rules.excludedDirectories, isMissing disk project entry = true) :
    (∃ outer inner, ofRules rules moduleRoot disk project = .error (.nested outer inner)) ∨
      ∃ entry ∈ rules.excludedDirectories, isMissing disk project entry = true ∧
        ofRules rules moduleRoot disk project =
          .error (.missingDirectory (Path.normalize entry) project) := by
  rw [ofRules]
  cases hgrouping : checkGrouping rules.grouping with
  | error error =>
    obtain ⟨outer, inner, rfl, -⟩ := checkGrouping_eq_error.1 hgrouping
    exact .inl ⟨outer, inner, rfl⟩
  | ok grouping =>
    -- the first entry that is missing is reported
    obtain ⟨first, hfirst⟩ := Option.isSome_iff_exists.1 (List.find?_isSome.2 h)
    have herror : expandDirectories disk project moduleRoot rules.excludedDirectories =
        .error (.missingDirectory (Path.normalize first) project) :=
      expandDirectories_eq_error.2 ⟨first, hfirst, rfl⟩
    refine .inr ⟨first, List.mem_of_find?_eq_some hfirst, List.find?_some hfirst, ?_⟩
    rw [herror]
    rfl

/-- **Exclusion is expanded exactly.** Take rules for a project on a disk as systems keep them. If
they are accepted, then the policy leaves out the packages that the rules name, without the blanks
around them, and every directory of the project that is an excluded one or that names lead down to
from it, under the identifier of its canonical spelling; it leaves out nothing else, and no file.
Entries that are blank in canonical spelling make no difference. An entry that the project does not
have as a directory makes the rules refused, for nested groups or for a missing directory. -/
theorem excluded_ofRules (hregular : disk.Regular) (rules : PolicyRules)
    (moduleRoot project : String) :
    (∀ policy, ofRules rules moduleRoot disk project = .ok policy →
      ∀ id, id ∈ policy.excluded.toList ↔
        (id ≠ "" ∧ ∃ written ∈ rules.excludedPackages, trimmed written = id) ∨
          ∃ entry ∈ rules.excludedDirectories, Path.normalize entry ≠ "" ∧
            ∃ written, Path.Descends (Path.normalize entry) written ∧
              disk.isDirectory (Disk.joinPath project written) = true ∧
              Path.qualify moduleRoot (Path.normalize written) = id) ∧
    ofRules { rules with
        excludedDirectories := rules.excludedDirectories.filter fun entry =>
          !(Path.normalize entry).isEmpty } moduleRoot disk project =
      ofRules rules moduleRoot disk project ∧
    ((∃ entry ∈ rules.excludedDirectories, Path.normalize entry ≠ "" ∧
        disk.isDirectory (Disk.joinPath project (Path.normalize entry)) = false) →
      (∃ outer inner, ofRules rules moduleRoot disk project = .error (.nested outer inner)) ∨
        ∃ entry ∈ rules.excludedDirectories, isMissing disk project entry = true ∧
          ofRules rules moduleRoot disk project =
            .error (.missingDirectory (Path.normalize entry) project)) := by
  refine ⟨fun policy hpolicy id => ?_, ?_, ?_⟩
  · -- what is excluded is known from the rules, and each entry is expanded to the paths below it
    rw [← Set.contains_iff_mem_toList]
    change policy.isExcluded id = true ↔ _
    rw [isExcluded_ofRules hpolicy, List.mem_map]
    refine or_congr_right (exists_congr fun entry => and_congr_right fun _ =>
      and_congr_right fun hne => ?_)
    exact exists_mem_packagesBelow_iff_descends hregular hne
  · -- only the expansion reads the excluded directories
    rw [ofRules, ofRules, expandDirectories_filter]
  · rintro ⟨entry, hentry, hne, hdirectory⟩
    refine ofRules_of_isMissing ⟨entry, hentry, ?_⟩
    simp [isMissing, hne, hdirectory]

/-- A project with a hidden and a vendored directory, with a directory whose name ends with a blank,
and with a file in the place of a directory. -/
def toolbox : Disk where
  root := .directory [("p", .directory [
    ("tools", .directory [
      (".cache", .directory [("deep", .directory [])]),
      ("vendor", .directory [("lib", .directory [])]),
      ("gen ", .directory []),
      ("gen.go", .file (.text "package tools\n"))]),
    ("notes", .file (.text "old\n"))])]
  here := []

/-- Of such a project, every directory is left out and no file; a file is no directory to exclude.
-/
theorem excluded_ofRules_toolbox :
    let rules : PolicyRules := ⟨[], [" mod/x ", " "], ["./tools//", "tools\\vendor", " "], []⟩
    let excluded := ["mod/tools", "mod/tools/.cache", "mod/tools/.cache/deep", "mod/tools/gen",
      "mod/tools/vendor", "mod/tools/vendor/lib", "mod/x"]
    toolbox.Regular ∧
      ofRules rules "mod" toolbox "p" = .ok ⟨"mod", [], .ofList excluded, .empty⟩ ∧
      "mod/tools/gen" ∈ (Set.ofList excluded).toList ∧
      toolbox.isDirectory "p/notes" = false ∧
      ∃ error, ofRules ⟨[], [], ["notes"], []⟩ "mod" toolbox "p" = .error error := by
  intro rules excluded
  have hregular : toolbox.Regular := Disk.regular_of_isNamed (by decide) (by decide)
  have hpolicy : ofRules rules "mod" toolbox "p" = .ok ⟨"mod", [], .ofList excluded, .empty⟩ := by
    decide +kernel
  have hnotes : toolbox.isDirectory "p/notes" = false := by decide +kernel
  refine ⟨hregular, hpolicy, ?_, hnotes, ?_⟩
  · refine ((excluded_ofRules hregular rules "mod" "p").1 _ hpolicy _).2
      (.inr ⟨"./tools//", List.mem_cons_self, by decide +kernel, "tools/gen ", ?_, ?_, ?_⟩)
    · exact .inr ⟨"gen ", by decide +kernel, by decide +kernel⟩
    · decide +kernel
    · decide +kernel
  · rcases (excluded_ofRules hregular ⟨[], [], ["notes"], []⟩ "mod" "p").2.2
      ⟨"notes", List.mem_cons_self, by decide +kernel, by decide +kernel⟩ with
      ⟨_, _, herror⟩ | ⟨_, _, _, herror⟩
    · exact ⟨_, herror⟩
    · exact ⟨_, herror⟩

end PackageGraph.Policy
