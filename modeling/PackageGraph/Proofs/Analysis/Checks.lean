import PackageGraph.Analysis
import PackageGraph.Proofs.Policy.Refused
import PackageGraph.Proofs.Sources.Agree

/-!
# The checks of an analysis

An analysis makes six checks, one after another: of the manifest, of the three parts of the rules,
of the listing of source files, and of the listed files. Each of them is stated of the disk and the
settings alone (`Analysis.Fails`), however the other checks end. The analysis fails by the first of
them that fails, and if none does, its model is built from all that was read
(`Analysis.model_checked`).

So of the files of a project the ones that are not listed never matter, and the listed ones matter
only if the rules hold.
-/

namespace PackageGraph.Analysis

open Sources (IsLeastFlawed IsProject IsUnlisted blamed faultsAbove)

/-- What an analysis checks. -/
inductive Check where
  | manifest
  /-- No two grouping directories nest. -/
  | grouping
  /-- The project has the excluded directories. -/
  | exclusion
  /-- Forbidden rules name their sources. -/
  | forbidden
  /-- The source files of the project can be listed. -/
  | listing
  /-- Listed files have no flaw. -/
  | sources
deriving DecidableEq

/-- All checks, in the order in which they are made. -/
def Check.all : List Check := [.manifest, .grouping, .exclusion, .forbidden, .listing, .sources]

/-- A check fails. There is one failure for each check at most; of several nested directories,
missing directories or flawed files it is the one that is reported. -/
inductive Fails (disk : Disk) (project : String) (config : Config) (filters : Filters) :
    Check → Failure → Prop
  | unreadable {error} : disk.read (Disk.joinPath project "go.mod") = .error error →
      Fails disk project config filters .manifest
        (.manifest ⟨Disk.joinPath project "go.mod", .unreadable error⟩)
  | noDirective {text} : disk.read (Disk.joinPath project "go.mod") = .ok text →
      Manifest.directive? text = none →
      Fails disk project config filters .manifest
        (.manifest ⟨Disk.joinPath project "go.mod", .noDirective⟩)
  | nested {outer inner} :
      Policy.IsLeast (Policy.NestsIn (Policy.groupingDirectories config.rules.grouping)) outer
        inner →
      Fails disk project config filters .grouping (.rules (.nested outer inner))
  | missingDirectory {entry} :
      config.rules.excludedDirectories.find? (Policy.isMissing disk project) = some entry →
      Fails disk project config filters .exclusion
        (.rules (.missingDirectory (Path.normalize entry) project))
  | blankSource {rule} : rule ∈ config.rules.forbidden → Policy.trimmed rule.source = "" →
      Fails disk project config filters .forbidden (.rules .blankSource)
  /-- The empty path leads nowhere. -/
  | noProject : project = "" →
      Fails disk project config filters .listing (.sources ⟨"", .noProject .notFound⟩)
  | ignoreFiles {here children} : Sources.isStandardInput project = false →
      disk.locate project = .ok (here, .directory children) → faultsAbove disk here ≠ [] →
      Fails disk project config filters .listing (.sources
        ⟨blamed project (faultsAbove disk here), .ignoreFiles (faultsAbove disk here)⟩)
  | flawed {file reason} : IsLeastFlawed disk project config.scan filters file reason →
      Fails disk project config filters .sources (.sources ⟨Sources.pathOf file, reason⟩)

/-- A model is built from the rules and from what all listed files say. -/
def IsComplete (disk : Disk) (project : String) (config : Config) (filters : Filters)
    (built : Model) : Prop :=
  ∃ moduleRoot policy listed facts, Manifest.moduleRoot disk project = .ok moduleRoot ∧
    Policy.ofRules config.rules moduleRoot disk project = .ok policy ∧
    Sources.files disk project config.scan filters = .ok listed ∧
    (∀ file ∈ listed, ∃ said, Sources.usage disk project file = .ok said) ∧
    Sources.Collects disk project listed facts ∧ built = Model.build policy facts

variable {disk : Disk} {project : String} {config : Config} {filters : Filters}

/-! ### Single checks -/

/-- The analysis, check by check. -/
theorem model_eq : model disk project config filters =
    (Manifest.moduleRoot disk project).mapError .manifest >>= fun moduleRoot =>
    (Policy.checkGrouping config.rules.grouping).mapError .rules >>= fun grouping =>
    (Policy.expandDirectories disk project moduleRoot config.rules.excludedDirectories).mapError
      .rules >>= fun below =>
    (Policy.gatherForbidden config.rules.forbidden).mapError .rules >>= fun forbidden =>
    (Sources.files disk project config.scan filters).mapError .sources >>= fun listed =>
    (Sources.factsOf disk project listed).mapError .sources >>= fun facts =>
    .ok (Model.build ⟨moduleRoot, grouping, .ofList
      ((config.rules.excludedPackages.map Policy.trimmed).filter (!·.isEmpty) ++ below),
      forbidden⟩ facts) := by
  simp only [model, policy, Policy.ofRules, Sources.facts, mapError_bind, bind_assoc]
  rfl

/-- The manifest cannot be read, or declares no path. -/
theorem manifest_eq_error {failure : Failure} :
    (Manifest.moduleRoot disk project).mapError .manifest = .error failure ↔
      Fails disk project config filters .manifest failure := by
  rw [mapError_eq_error, Manifest.moduleRoot, Manifest.fileName]
  constructor
  · rintro ⟨reason, h, rfl⟩
    split at h
    · next error hread =>
      -- the manifest is not there, or no text
      obtain rfl := Except.error.inj h
      exact .unreadable hread
    · next text hread =>
      -- its text has no directive
      split at h
      · next hnone =>
        obtain rfl := Except.error.inj h
        exact .noDirective hread hnone
      · cases h
  · intro h
    cases h with
    | unreadable hread => exact ⟨_, by rw [hread], rfl⟩
    | noDirective hread hnone => exact ⟨_, by rw [hread]; dsimp only; rw [hnone], rfl⟩

/-- The least pair of nested directories is reported. -/
theorem grouping_eq_error {failure : Failure} :
    (Policy.checkGrouping config.rules.grouping).mapError .rules = .error failure ↔
      Fails disk project config filters .grouping failure := by
  rw [mapError_eq_error]
  simp only [Policy.checkGrouping_eq_error]
  constructor
  · rintro ⟨_, ⟨outer, inner, rfl, hleast⟩, rfl⟩
    exact .nested hleast
  · intro h
    cases h with
    | nested hleast => exact ⟨_, ⟨_, _, rfl, hleast⟩, rfl⟩

/-- The first excluded directory that the project does not have is reported. -/
theorem exclusion_eq_error {moduleRoot : String} {failure : Failure} :
    (Policy.expandDirectories disk project moduleRoot config.rules.excludedDirectories).mapError
        .rules = .error failure ↔ Fails disk project config filters .exclusion failure := by
  rw [mapError_eq_error]
  simp only [Policy.expandDirectories_eq_error]
  constructor
  · rintro ⟨_, ⟨entry, hentry, rfl⟩, rfl⟩
    exact .missingDirectory hentry
  · intro h
    cases h with
    | missingDirectory hentry => exact ⟨_, ⟨_, hentry, rfl⟩, rfl⟩

/-- It is reported that a rule names no source, and not which one. -/
theorem forbidden_eq_error {failure : Failure} :
    (Policy.gatherForbidden config.rules.forbidden).mapError .rules = .error failure ↔
      Fails disk project config filters .forbidden failure := by
  rw [mapError_eq_error]
  simp only [Policy.gatherForbidden_eq_error]
  constructor
  · rintro ⟨_, ⟨rfl, rule, hrule, hblank⟩, rfl⟩
    exact .blankSource hrule hblank
  · intro h
    cases h with
    | blankSource hrule hblank => exact ⟨_, ⟨rfl, _, hrule, hblank⟩, rfl⟩

/-- What has a manifest below it is a directory, unless the path of the manifest is all there is. -/
theorem isProject_of_moduleRoot {moduleRoot : String}
    (h : Manifest.moduleRoot disk project = .ok moduleRoot) (hne : project ≠ "") :
    IsProject disk project := by
  rw [Manifest.moduleRoot] at h
  split at h
  · cases h
  · next text hread =>
    obtain ⟨found, hlocate, -⟩ := bind_eq_ok.1 hread
    exact .inr (Disk.exists_directory_of_locate_joinPath hne ⟨"go.mod", [], rfl, by decide⟩ hlocate)

/-- A listing fails for the project or for the ignore files above it. If there is a manifest, then a
project that is not there has the empty path. -/
theorem listing_eq_error {moduleRoot : String}
    (hmanifest : Manifest.moduleRoot disk project = .ok moduleRoot) {failure : Failure} :
    (Sources.files disk project config.scan filters).mapError .sources = .error failure ↔
      Fails disk project config filters .listing failure := by
  rw [mapError_eq_error]
  simp only [Sources.files_eq_error]
  constructor
  · rintro ⟨_, ⟨hpath, ⟨error, hlocate, rfl⟩ | ⟨here, children, hlocate, hfaults, rfl⟩⟩, rfl⟩
    · by_cases hproject : project = ""
      · -- the empty path leads nowhere
        subst hproject
        obtain rfl : AccessError.notFound = error := Except.error.inj hlocate
        exact .noProject rfl
      · -- a path that leads nowhere, or to a file, would have no manifest below it
        rcases isProject_of_moduleRoot hmanifest hproject with hstandard | ⟨here, children, hfound⟩
        · cases hpath.symm.trans hstandard
        · cases hlocate.symm.trans hfound
    · exact .ignoreFiles hpath hlocate hfaults
  · intro h
    cases h with
    | noProject hproject =>
      subst hproject
      exact ⟨_, ⟨rfl, .inl ⟨.notFound, rfl, rfl⟩⟩, rfl⟩
    | ignoreFiles hpath hlocate hfaults =>
      exact ⟨_, ⟨hpath, .inr ⟨_, _, hlocate, hfaults, rfl⟩⟩, rfl⟩

/-- What can be listed is a directory: of the empty path there is no listing. -/
theorem isProject_of_files {moduleRoot : String}
    (hmanifest : Manifest.moduleRoot disk project = .ok moduleRoot) {listed : List Names}
    (hlisted : Sources.files disk project config.scan filters = .ok listed) :
    IsProject disk project := by
  refine isProject_of_moduleRoot hmanifest fun hproject => ?_
  have hfails : Fails disk project config filters .listing _ := .noProject hproject
  obtain ⟨failure, hfailure, -⟩ := mapError_eq_error.1 ((listing_eq_error hmanifest).2 hfails)
  cases hlisted.symm.trans hfailure

/-- The least listed file with a flaw is reported. -/
theorem sources_eq_error (hregular : disk.Regular) (hproject : IsProject disk project)
    {listed : List Names}
    (hlisted : Sources.files disk project config.scan filters = .ok listed) {failure : Failure} :
    (Sources.factsOf disk project listed).mapError .sources = .error failure ↔
      Fails disk project config filters .sources failure := by
  rw [mapError_eq_error]
  simp only [Sources.factsOf_eq_error hregular hproject hlisted]
  constructor
  · rintro ⟨_, ⟨file, reason, hleast, rfl⟩, rfl⟩
    exact .flawed hleast
  · intro h
    cases h with
    | flawed hleast => exact ⟨_, ⟨_, _, hleast, rfl⟩, rfl⟩

/-! ### All checks -/

/-- **An analysis fails by the first check that fails.** -/
theorem model_eq_error (hregular : disk.Regular) {failure : Failure} :
    model disk project config filters = .error failure ↔
      IsFirst (Fails disk project config filters) Check.all failure := by
  rw [model_eq]
  -- one stage for each check; those of the sources rely on the manifest, which makes the project a
  -- directory
  refine bind_eq_error_iff_isFirst (fun _ => manifest_eq_error) (fun moduleRoot hmanifest => ?_) _
  rw [mapError_eq_ok] at hmanifest
  refine bind_eq_error_iff_isFirst (fun _ => grouping_eq_error) (fun grouping _ => ?_)
  refine bind_eq_error_iff_isFirst (fun _ => exclusion_eq_error) (fun below _ => ?_)
  refine bind_eq_error_iff_isFirst (fun _ => forbidden_eq_error) (fun forbidden _ => ?_)
  refine bind_eq_error_iff_isFirst (fun _ => listing_eq_error hmanifest) fun listed hlisted => ?_
  rw [mapError_eq_ok] at hlisted
  have hproject := isProject_of_files hmanifest hlisted
  refine bind_eq_error_iff_isFirst (fun _ => sources_eq_error hregular hproject hlisted)
    fun facts _ failure => ?_
  -- building a model is no check
  exact iff_of_false (fun h => nomatch h) not_isFirst_nil

theorem Check.mem_all (check : Check) : check ∈ Check.all := by
  cases check <;> decide

/-- **What a model is built from.** -/
theorem isComplete_of_model {built : Model} (h : model disk project config filters = .ok built) :
    IsComplete disk project config filters built := by
  obtain ⟨policy, hpolicy, h⟩ := bind_eq_ok.1 h
  obtain ⟨facts, hfacts, h⟩ := bind_eq_ok.1 h
  obtain ⟨moduleRoot, hmanifest, hpolicy⟩ := bind_eq_ok.1 hpolicy
  rw [mapError_eq_ok] at hmanifest hpolicy hfacts
  obtain ⟨listed, hlisted, hcollected⟩ := bind_eq_ok.1 hfacts
  have hparsed := Sources.exists_usage_of_factsOf hcollected
  -- what was collected is what all of these files say
  obtain ⟨collected, hcollects, -, h'⟩ := Sources.collects_facts hlisted hparsed
  obtain rfl := Except.ok.inj (hfacts.symm.trans hcollects)
  exact ⟨moduleRoot, policy, listed, facts, hmanifest, hpolicy, hlisted, hparsed, h',
    (Except.ok.inj h).symm⟩

/-- **A model is built exactly if no check fails.** -/
theorem exists_isComplete_iff (hregular : disk.Regular) :
    (∃ built, model disk project config filters = .ok built ∧
      IsComplete disk project config filters built) ↔
      ∀ check failure, ¬Fails disk project config filters check failure := by
  constructor
  · -- a check that fails makes one of them the first
    rintro ⟨built, hbuilt, -⟩ check failure hfails
    obtain ⟨first, hfirst⟩ := exists_isFirst (Check.mem_all check) hfails
    cases hbuilt.symm.trans ((model_eq_error hregular).2 hfirst)
  · -- the analysis could fail only by one of the checks
    intro h
    have hnoError : ∀ failure, model disk project config filters ≠ .error failure := by
      intro failure hfailure
      obtain ⟨check, hfails⟩ := ((model_eq_error hregular).1 hfailure).exists_fails
      exact h check failure hfails
    obtain ⟨built, hbuilt⟩ := exists_ok_of_forall_ne_error hnoError
    exact ⟨built, hbuilt, isComplete_of_model hbuilt⟩

/-! ### Files that are not read -/

/-- The manifest is none of the source files. -/
theorem moduleRoot_eq_of_agrees {changed : Names → Prop} {disk' : Disk}
    (hagrees : disk.Agrees changed disk')
    (hsources : ∀ names, changed names → IsSourcePlace names) :
    Manifest.moduleRoot disk' project = Manifest.moduleRoot disk project := by
  have hends : Disk.EndsWith (Disk.joinPath project Manifest.fileName) "go.mod" :=
    Disk.endsWith_joinPath ⟨"go.mod", [], rfl, by decide⟩ (Disk.endsWith_self (by decide))
  rw [Manifest.moduleRoot, Manifest.moduleRoot, hagrees.read_eq_of_endsWith (by decide) hends
    fun above => mt (hsources _) (not_isSourcePlace above (by decide))]

/-- **No policy depends on what source files hold.** -/
theorem policy_eq_of_agrees {changed : Names → Prop} {disk' : Disk}
    (hregular : disk.Regular) (hregular' : disk'.Regular) (hagrees : disk.Agrees changed disk')
    (hsources : ∀ names, changed names → IsSourcePlace names) :
    policy disk' project config = policy disk project config := by
  rw [policy, policy, moduleRoot_eq_of_agrees hagrees hsources]
  simp only [Policy.ofRules_eq_of_agrees hagrees hregular.distinct hregular'.distinct]

/-- A failure is of the sources, or of what is read before them. -/
theorem model_eq_error_iff_policy {failure : Failure}
    (hfailure : ∀ unread, failure ≠ .sources unread) :
    model disk project config filters = .error failure ↔
      policy disk project config = .error failure := by
  rw [model, bind_eq_error]
  refine or_iff_left ?_
  rintro ⟨policy, -, h⟩
  -- the model is built from the policy and the facts, so a failure behind the policy is of the
  -- sources
  rcases bind_eq_error.1 h with h | ⟨_, -, h⟩
  · obtain ⟨unread, -, rfl⟩ := mapError_eq_error.1 h
    exact hfailure unread rfl
  · cases h

/-- **Source files that are not listed make no difference.** -/
theorem model_eq_of_agrees {disk' : Disk} (hregular : disk.Regular) (hregular' : disk'.Regular)
    (hagrees : disk.Agrees (IsUnlisted disk project config.scan filters) disk') :
    model disk' project config filters = model disk project config filters := by
  rw [model, model, policy_eq_of_agrees hregular hregular' hagrees fun _ h => h.source]
  cases hpolicy : policy disk project config with
  | error failure => rfl
  | ok policy =>
    obtain ⟨moduleRoot, hmanifest, -⟩ := bind_eq_ok.1 hpolicy
    rw [mapError_eq_ok] at hmanifest
    have hfacts : Sources.facts disk' project config.scan filters =
        Sources.facts disk project config.scan filters := by
      by_cases hproject : project = ""
      · -- the empty path leads nowhere on either disk
        subst hproject
        rfl
      · exact Sources.facts_eq_of_agrees hregular hregular' hagrees
          (isProject_of_moduleRoot hmanifest hproject)
    dsimp only [bind, Except.bind]
    rw [hfacts]

/-- **What an analysis reports.** It fails by the first of its checks that fails. If none does, and
only then, there is a model, built from the rules and from all listed files. Whatever the source
files hold, a failure that is not about them is the same; and files that are not listed make no
difference at all. -/
theorem model_checked (config : Config) (filters : Filters) (hregular : disk.Regular) :
    (∀ failure, model disk project config filters = .error failure ↔
      IsFirst (Fails disk project config filters) Check.all failure) ∧
    ((∃ built, model disk project config filters = .ok built ∧
      IsComplete disk project config filters built) ↔
        ∀ check failure, ¬Fails disk project config filters check failure) ∧
    ∀ disk' : Disk, disk'.Regular →
      (disk.Agrees IsSourcePlace disk' → ∀ failure, (∀ unread, failure ≠ .sources unread) →
        (model disk' project config filters = .error failure ↔
          model disk project config filters = .error failure)) ∧
      (disk.Agrees (IsUnlisted disk project config.scan filters) disk' →
        model disk' project config filters = model disk project config filters) := by
  refine ⟨fun failure => model_eq_error hregular, exists_isComplete_iff hregular,
    fun disk' hregular' => ⟨fun hagrees failure hfailure => ?_, fun hagrees => ?_⟩⟩
  · -- such a failure is one of the policy, which source files have no part in
    rw [model_eq_error_iff_policy hfailure, model_eq_error_iff_policy hfailure,
      policy_eq_of_agrees hregular hregular' hagrees fun _ h => h]
  · exact model_eq_of_agrees hregular hregular' hagrees

/-- A module with two source files that have a flaw. The one that is reported stands behind the
other one if their paths are compared character by character. -/
def workshop (test : String) : Disk where
  root := .directory [("p", .directory [("go.mod", .file (.text "module m\n")),
    ("b-x", .directory [("d.go", .file (.text "import \"m/b\"\n"))]),
    ("b", .directory [("c.go", .file (.binary [0xFF])), ("c_test.go", .file (.text test))])])]
  here := []

/-- The test file is not listed, so writing it makes no difference. -/
theorem model_checked_workshop :
    (workshop "package b\n").Regular ∧ (workshop "pack").Regular ∧
    (workshop "package b\n").write "p/b/c_test.go" "pack" = .ok (workshop "pack") ∧
    (workshop "package b\n").Agrees (IsUnlisted (workshop "package b\n") "p" .default .none)
      (workshop "pack") ∧
    IsFirst (Fails (workshop "package b\n") "p" .default .none) Check.all
      (.sources ⟨"b/c.go", .unreadable .notText⟩) ∧
    model (workshop "pack") "p" .default .none =
      .error (.sources ⟨"b/c.go", .unreadable .notText⟩) := by
  have hregular : (workshop "package b\n").Regular :=
    Disk.regular_of_isNamed (by decide) (by decide)
  have hregular' : (workshop "pack").Regular := Disk.regular_of_isNamed (by decide) (by decide)
  have hwrite : (workshop "package b\n").write "p/b/c_test.go" "pack" = .ok (workshop "pack") := rfl
  -- what is written is the test file, and it is not listed
  have hagrees : (workshop "package b\n").Agrees
      (IsUnlisted (workshop "package b\n") "p" .default .none) (workshop "pack") := by
    obtain ⟨place, hoverwrites⟩ := Disk.overwrites_of_write hwrite
    obtain rfl : ["p", "b", "c_test.go"] = place :=
      (Prod.mk.inj (Except.ok.inj hoverwrites.found)).1
    refine (hoverwrites.agrees rfl).mono ?_
    rintro names rfl
    refine ⟨⟨["p", "b"], "c_test", rfl⟩, fun here entry listed hlocate hlisted => ?_⟩
    have hfiles : Sources.files (workshop "package b\n") "p" .default .none =
        .ok [["b", "c.go"], ["b-x", "d.go"]] := by
      decide +kernel
    obtain rfl := Except.ok.inj (hfiles.symm.trans hlisted)
    obtain rfl : ["p"] = here := (Prod.mk.inj (Except.ok.inj hlocate)).1
    decide
  obtain ⟨herror, -, hothers⟩ :=
    @model_checked (workshop "package b\n") "p" .default .none hregular
  have hmodel : model (workshop "package b\n") "p" .default .none =
      .error (.sources ⟨"b/c.go", .unreadable .notText⟩) := by
    decide +kernel
  exact ⟨hregular, hregular', hwrite, hagrees, (herror _).1 hmodel,
    ((hothers _ hregular').2 hagrees).trans hmodel⟩

/-- A module below an ignore file with a fault. -/
def blightedModule : Disk where
  root := .directory [(".ignore", .file (.text "\x7ba\n")),
    ("p", .directory [("go.mod", .file (.text "module m\n")),
      ("a.go", .file (.text "package a\n"))])]
  here := []

/-- The listing is a check of its own: an analysis can fail with a manifest, rules and files that
are all as they should be. -/
theorem model_blightedModule : blightedModule.Regular ∧
    model blightedModule "p" .default .none = .error (.sources ⟨"/.ignore",
      .ignoreFiles [("/.ignore", ⟨1, .noPattern "\x7ba" .unclosedGroup⟩)]⟩) ∧
    ∀ check, check ≠ .listing → ∀ failure,
      ¬Fails blightedModule "p" .default .none check failure := by
  have hregular : blightedModule.Regular := Disk.regular_of_isNamed (by decide) (by decide)
  refine ⟨hregular, by decide +kernel, ?_⟩
  have hread : blightedModule.read "p/go.mod" = .ok "module m\n" := rfl
  intro check hcheck failure h
  cases h with
  -- the manifest is there and has its directive
  | unreadable herror => cases hread.symm.trans herror
  | noDirective htext hnone =>
    obtain rfl := Except.ok.inj (hread.symm.trans htext)
    revert hnone
    decide
  -- there are no rules that could be wrong
  | nested hleast => cases hleast.1.outer_mem
  | missingDirectory hentry => cases hentry
  | blankSource hrule _ => cases hrule
  | noProject _ => exact hcheck rfl
  | ignoreFiles _ _ _ => exact hcheck rfl
  -- a flaw would be in a listed file
  | flawed hleast =>
    obtain ⟨content, hlists, hflawed⟩ := hleast.flawed
    have herror := (hlists.usage_eq_error hregular).2 ⟨_, hflawed, rfl⟩
    -- only one file is selected, and it can be read
    obtain ⟨-, here, children, hlocate, -, hselected⟩ := hlists
    obtain ⟨rfl, hentry⟩ := Prod.mk.inj (Except.ok.inj hlocate)
    cases hentry
    have hfile := (Sources.mem_select_filesBelow (by decide) rfl).2 hselected
    have hselect : Sources.select .default .none ["p"] (Sources.filesBelow blightedModule .default
        (Ignore.Level.above blightedModule ["p"]) ["p"] (.directory [("go.mod",
          .file (.text "module m\n")), ("a.go", .file (.text "package a\n"))])) = [["a.go"]] := by
      decide +kernel
    obtain rfl := List.mem_singleton.1 (hselect ▸ hfile)
    have hreadable : (Sources.usage blightedModule "p" ["a.go"]).isOk = true := by decide +kernel
    rw [herror] at hreadable
    cases hreadable

end PackageGraph.Analysis
