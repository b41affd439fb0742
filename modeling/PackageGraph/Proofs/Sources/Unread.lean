import PackageGraph.Proofs.Disk.Joined
import PackageGraph.Proofs.Sources.Collected
import PackageGraph.Proofs.Sources.Selected

/-!
# Sources that cannot be read

What is wrong with a source file is said of its content alone (`Sources.Flawed`): it is no text, has
a syntax error or does not name its package. Of the listed files of a project with a flaw the least
one is reported, however many there are (`Sources.factsOf_eq_error`).

There is no listing at all if an ignore file above the project has a fault or the project is not
there (`Sources.files_eq_error`).
-/

namespace PackageGraph

open Sorted

namespace Sources

open Ignore (Level)

/-! ### Flaws of a file -/

/-- What is wrong with a source file of this content. -/
inductive Flawed : Content → Reason → Prop
  | notText (bytes : List UInt8) : Flawed (.binary bytes) (.unreadable .notText)
  | syntaxError {source : String} :
      Go.Tree.ofSource? source = none → Flawed (.text source) (.source .syntaxError)
  | missingPackage {source : String} {tree : Go.Tree} :
      Go.Tree.ofSource? source = some tree → tree.package? = none →
        Flawed (.text source) (.source .missingPackage)

/-- The text of a source is refused for its flaw. -/
theorem ofSource_eq_error {source : String} {error : Go.SourceError} :
    Go.Usage.ofSource source = .error error ↔ Flawed (.text source) (.source error) := by
  rw [Go.Usage.ofSource]
  cases htree : Go.Tree.ofSource? source with
  -- the text has no tree: a syntax error, which is told first
  | none =>
    constructor
    · intro h
      obtain rfl := Except.error.inj h
      exact .syntaxError htree
    · rintro (_ | _ | ⟨hsome, -⟩)
      · rfl
      · cases htree.symm.trans hsome
  -- it has a tree, which names a package or does not
  | some tree =>
    change Go.Usage.ofTree tree = _ ↔ _
    rw [Go.Usage.ofTree]
    cases hpackage : tree.package? with
    | none =>
      constructor
      · intro h
        obtain rfl := Except.error.inj h
        exact .missingPackage htree hpackage
      · rintro (_ | hnone | _)
        · cases htree.symm.trans hnone
        · rfl
    | some package =>
      refine iff_of_false (by simp) ?_
      rintro (_ | hnone | ⟨hsome, hmissing⟩)
      · cases htree.symm.trans hnone
      · obtain rfl := Option.some.inj (htree.symm.trans hsome)
        cases hpackage.symm.trans hmissing

variable {disk : Disk} {project : String} {options : ScanOptions} {filters : Filters}
  {listed : List Names} {failure : Failure}

/-- **Reading a file fails by its flaw.** -/
theorem usage_eq_error {file place : Names} {content : Content}
    (hlocate : disk.locate (Disk.joinPath project (pathOf file)) = .ok (place, .file content)) :
    usage disk project file = .error failure ↔
      ∃ reason, Flawed content reason ∧ failure = ⟨pathOf file, reason⟩ := by
  rw [usage, Disk.read, hlocate]
  cases content with
  -- no text can be read off these bytes
  | binary bytes =>
    constructor
    · intro h
      exact ⟨_, .notText bytes, (Except.error.inj h).symm⟩
    · rintro ⟨_, ⟨⟩, rfl⟩
      rfl
  -- the text can be read, so it is the source that is refused
  | text source =>
    change (Go.Usage.ofSource source).mapError _ = _ ↔ _
    rw [mapError_eq_error]
    simp only [ofSource_eq_error]
    constructor
    · rintro ⟨error, hflawed, rfl⟩
      exact ⟨_, hflawed, rfl⟩
    · rintro ⟨_, hflawed, rfl⟩
      cases hflawed with
      | syntaxError h => exact ⟨_, .syntaxError h, rfl⟩
      | missingPackage h h' => exact ⟨_, .missingPackage h h', rfl⟩

/-! ### Listings that fail -/

/-- The faults of the ignore files above a directory, those at the root of the disk first. -/
def faultsAbove (disk : Disk) (here : Names) : List (String × Ignore.Fault) :=
  (Level.above disk here).reverse.flatMap (·.faults)

/-- The path that faults are reported for: the file of a single one, and otherwise the project. -/
def blamed (project : String) : List (String × Ignore.Fault) → String
  | [(path, _)] => path
  | _ => project

/-- There are no levels above a project if one of its ignore files has a fault. -/
theorem levelsAbove_eq_error {here : Names} :
    levelsAbove disk project here = .error failure ↔ faultsAbove disk here ≠ [] ∧
      failure = ⟨blamed project (faultsAbove disk here), .ignoreFiles (faultsAbove disk here)⟩ := by
  rw [levelsAbove, ← faultsAbove]
  split
  · next hnone => simp [hnone]
  · -- a single fault is blamed on its file
    next path fault hone => simp [hone, blamed, eq_comm]
  · next hnone hmany =>
    -- several ones are blamed on the project
    have hblamed : blamed project (faultsAbove disk here) = project := by rw [blamed]; exact hmany
    rw [hblamed]
    exact ⟨fun h => ⟨hnone, (Except.error.inj h).symm⟩, fun h => congrArg _ h.2.symm⟩

/-- **There is no listing** if the project is not there, or an ignore file above it has a fault. -/
theorem files_eq_error :
    files disk project options filters = .error failure ↔ isStandardInput project = false ∧
      ((∃ error, disk.locate project = .error error ∧ failure = ⟨project, .noProject error⟩) ∨
      ∃ here children, disk.locate project = .ok (here, .directory children) ∧
        faultsAbove disk here ≠ [] ∧ failure =
          ⟨blamed project (faultsAbove disk here), .ignoreFiles (faultsAbove disk here)⟩) := by
  have hwalk : files disk project options filters = .error failure ↔
      walk disk project options = .error failure := bind_pure_eq_error
  rw [hwalk, walk]
  by_cases hpath : isStandardInput project = true
  · simp [hpath]
  rw [if_neg hpath, and_iff_right (Bool.not_eq_true _ ▸ hpath), bind_eq_error, mapError_eq_error]
  refine or_congr (exists_congr fun error => and_congr_right fun _ => eq_comm) ?_
  simp only [mapError_eq_ok]
  constructor
  · rintro ⟨⟨here, entry⟩, hlocate, h⟩
    cases entry with
    -- a file is its own listing, whatever is above it
    | file content =>
      simp only [Entry.isDirectory, Bool.false_eq_true, if_false] at h
      cases h
    -- of a directory the levels above are read
    | directory children =>
      simp only [Entry.isDirectory, if_true] at h
      exact ⟨here, children, hlocate, levelsAbove_eq_error.1 (bind_pure_eq_error.1 h)⟩
  · rintro ⟨here, children, hlocate, hfaults⟩
    refine ⟨_, hlocate, ?_⟩
    simp only [Entry.isDirectory, if_true]
    exact bind_pure_eq_error.2 (levelsAbove_eq_error.2 hfaults)

/-! ### Listed files that cannot be read -/

/-- The listing of a project has a file with this content. -/
def Lists (disk : Disk) (project : String) (options : ScanOptions) (filters : Filters)
    (file : Names) (content : Content) : Prop :=
  isStandardInput project = false ∧ ∃ here children,
    disk.locate project = .ok (here, .directory children) ∧
      disk.root.descendant? (here ++ file) = some (.file content) ∧
      Selected disk options filters here file

/-- The least of the listed files that have a flaw, with its flaw. -/
structure IsLeastFlawed (disk : Disk) (project : String) (options : ScanOptions)
    (filters : Filters) (file : Names) (reason : Reason) : Prop where
  /-- The file is listed and has the flaw. -/
  flawed : ∃ content, Lists disk project options filters file content ∧ Flawed content reason
  /-- No lesser file is listed and has one. -/
  least : ∀ other content reason', Lists disk project options filters other content →
    Flawed content reason' → Key.before other file = false

/-- The path stands for the standard input or leads to a directory. -/
def IsProject (disk : Disk) (project : String) : Prop :=
  isStandardInput project = true ∨
    ∃ here children, disk.locate project = .ok (here, .directory children)

/-- What is listed of a project, least first. -/
theorem files_listed (hregular : disk.Regular) (hproject : IsProject disk project)
    (hlisted : files disk project options filters = .ok listed) :
    (listed.Pairwise fun file next => Key.before file next = true) ∧
      ∀ file, file ∈ listed ↔ ∃ content, Lists disk project options filters file content := by
  by_cases hpath : isStandardInput project = true
  · -- the standard input has no files
    rw [files, walk, if_pos hpath] at hlisted
    obtain rfl : [] = listed := Except.ok.inj hlisted
    refine ⟨.nil, fun file => iff_of_false List.not_mem_nil ?_⟩
    rintro ⟨content, hother, -⟩
    exact Bool.false_ne_true (hother.symm.trans hpath)
  obtain ⟨place, children, hlocate⟩ := hproject.resolve_left hpath
  rw [Bool.not_eq_true] at hpath
  have hentry := (Disk.locate_eq_ok.1 hlocate).2.2
  have hdistinct := hregular.distinct.descendant hentry
  -- what the walk comes to is below the project
  obtain ⟨here, found, hwalk, rfl⟩ := files_eq_ok.1 hlisted
  obtain ⟨rfl, rfl⟩ := Prod.mk.inj ((walk_eq_ok hpath hlocate).1 hwalk).1
  refine ⟨select_strictly_sorted (nodup_filesBelow hdistinct)
    fun file hfile => prefix_of_mem_filesBelow hfile,
    fun file => (mem_select_filesBelow hdistinct hentry).trans ⟨fun h => ?_, ?_⟩⟩
  · obtain ⟨content, hcontent⟩ := h.exists_content
    exact ⟨content, hpath, here, children, hlocate, hcontent, h⟩
  · rintro ⟨content, -, here', children', hlocate', -, h⟩
    obtain ⟨rfl, -⟩ := Prod.mk.inj (Except.ok.inj (hlocate.symm.trans hlocate'))
    exact h

theorem Selected.ne_nil {here names : Names} (h : Selected disk options filters here names) :
    names ≠ [] := by
  obtain ⟨above, stem, rfl, -⟩ := h.source
  simp

/-- **A listed file is where its path leads.** -/
theorem Lists.exists_locate (hregular : disk.Regular) {file : Names} {content : Content}
    (h : Lists disk project options filters file content) :
    ∃ place, disk.locate (Disk.joinPath project (pathOf file)) = .ok (place, .file content) := by
  obtain ⟨-, here, children, hlocate, hcontent, hselected⟩ := h
  exact ⟨_, Disk.locate_joinPath_names hregular hlocate hselected.ne_nil hcontent⟩

/-- Reading a listed file fails by its flaw. -/
theorem Lists.usage_eq_error (hregular : disk.Regular) {file : Names} {content : Content}
    (h : Lists disk project options filters file content) :
    usage disk project file = .error failure ↔
      ∃ reason, Flawed content reason ∧ failure = ⟨pathOf file, reason⟩ := by
  obtain ⟨place, hplace⟩ := h.exists_locate hregular
  exact Sources.usage_eq_error hplace

/-- A listed file can be read unless it has a flaw. -/
theorem Lists.not_isOk_iff (hregular : disk.Regular) {file : Names} {content : Content}
    (h : Lists disk project options filters file content) :
    (!(usage disk project file).isOk) = true ↔ ∃ reason, Flawed content reason := by
  cases husage : usage disk project file with
  | ok said =>
    refine iff_of_false Bool.false_ne_true ?_
    rintro ⟨reason, hflawed⟩
    cases husage.symm.trans ((h.usage_eq_error hregular).2 ⟨reason, hflawed, rfl⟩)
  | error failure =>
    obtain ⟨reason, hflawed, -⟩ := (h.usage_eq_error hregular).1 husage
    exact iff_of_true rfl ⟨reason, hflawed⟩

/-- Collecting fails by the first listed file that cannot be read. -/
theorem factsOf_eq_error_iff_usage :
    factsOf disk project listed = .error failure ↔ ∃ file,
      listed.find? (fun file => !(usage disk project file).isOk) = some file ∧
        usage disk project file = .error failure := by
  have hmapM : factsOf disk project listed = .error failure ↔
      (listed.mapM fun file => factOf file <$> usage disk project file) = .error failure := by
    rw [factsOf, bind_pure_eq_error]
  -- a fact is stated of a file just if the file can be read
  have hisOk : ∀ file, (factOf file <$> usage disk project file).isOk =
      (usage disk project file).isOk := fun file => by
    cases usage disk project file <;> rfl
  have herror : ∀ file, factOf file <$> usage disk project file = .error failure ↔
      usage disk project file = .error failure := fun file => by
    rw [map_eq_pure_bind, bind_pure_eq_error]
  rw [hmapM, mapM_eq_error]
  simp only [hisOk, herror]

/-- **The least file with a flaw is reported.** -/
theorem factsOf_eq_error (hregular : disk.Regular) (hproject : IsProject disk project)
    (hlisted : files disk project options filters = .ok listed) :
    factsOf disk project listed = .error failure ↔ ∃ file reason,
      IsLeastFlawed disk project options filters file reason ∧
        failure = ⟨pathOf file, reason⟩ := by
  obtain ⟨hsorted, hmem⟩ := files_listed hregular hproject hlisted
  -- the first file of a sorted listing that cannot be read is the least one with a flaw
  rw [factsOf_eq_error_iff_usage]
  simp only [find?_eq_some_iff_least hsorted]
  constructor
  · rintro ⟨file, ⟨hfile, -, hleast⟩, hfailure⟩
    obtain ⟨content, hlists⟩ := (hmem file).1 hfile
    obtain ⟨reason, hflawed, rfl⟩ := (hlists.usage_eq_error hregular).1 hfailure
    refine ⟨file, reason,
      ⟨⟨content, hlists, hflawed⟩, fun other content' reason' hother h => ?_⟩, rfl⟩
    exact hleast other ((hmem other).2 ⟨content', hother⟩)
      ((hother.not_isOk_iff hregular).2 ⟨reason', h⟩)
  · rintro ⟨file, reason, ⟨⟨content, hlists, hflawed⟩, hleast⟩, rfl⟩
    refine ⟨file, ⟨(hmem file).2 ⟨content, hlists⟩,
      (hlists.not_isOk_iff hregular).2 ⟨reason, hflawed⟩, fun other hother hbad => ?_⟩,
      (hlists.usage_eq_error hregular).2 ⟨reason, hflawed, rfl⟩⟩
    obtain ⟨content', hother⟩ := (hmem other).1 hother
    obtain ⟨reason', h⟩ := (hother.not_isOk_iff hregular).1 hbad
    exact hleast other content' reason' hother h

end Sources

end PackageGraph
