import PackageGraph.CommandLine
import PackageGraph.Proofs.Stage

/-!
# Which setting counts

Four sources give settings: a file, the environment, the command line, and the defaults. What a
project is set to is said here source by source (`Config.load_override`): one file gives all the
settings to start with (`Config.Base`), and from then on each setting goes its own way
(`Config.Settled`). The layout engine and the title may be replaced twice, the choice about test
files once and only by a word that is a truth value, the rules and the skipped directories never.

The layout engine is looked at after each of its two replacements. So an engine that the environment
names has to be known even if the command line replaces it, and one in the file only if nothing in
the environment does.
-/

namespace PackageGraph

namespace Config

variable {disk : Disk} {environment : Environment} {project : String}
  {path layout title : Option String} {base config : Config} {error : Error}

/-- The settings of a project: those of its file and the environment, as far as the command line
does not replace them. -/
def settings (disk : Disk) (environment : Environment) (project : String)
    (path layout title : Option String) : Except Error Config := do
  (← load disk environment project path).override layout title

/-! ### The file -/

/-- The file that is read: the one that is named, or else the project's own if it is there. -/
inductive Chosen (disk : Disk) (project : String) : Option String → String → Prop where
  | named (path : String) : Chosen disk project (some path) path
  | own : disk.contains (defaultPath project) = true →
    Chosen disk project none (defaultPath project)

/-- The settings to start with: those of the chosen file, or the defaults if none is chosen. -/
inductive Base (disk : Disk) (project : String) (path : Option String) : Config → Prop where
  | file {file text : String} {config : Config} : Chosen disk project path file →
    disk.read file = .ok text → ofToml? text = some config → Base disk project path config
  | default : (∀ file, ¬Chosen disk project path file) → Base disk project path default

/-- What is wrong with the chosen file. -/
inductive Fault (disk : Disk) (project : String) (path : Option String) : Error → Prop where
  | unreadable {file : String} {reason : AccessError} : Chosen disk project path file →
    disk.read file = .error reason → Fault disk project path (.unreadable file reason)
  | malformed {file text : String} : Chosen disk project path file →
    disk.read file = .ok text → ofToml? text = none → Fault disk project path (.malformed file)

/-- A file gives settings if it can be read and holds some. -/
theorem ofFile_eq_ok {file : String} :
    ofFile disk file = .ok base ↔ ∃ text, disk.read file = .ok text ∧ ofToml? text = some base := by
  rw [ofFile]
  cases disk.read file with
  | error reason => simp
  | ok text => cases hconfig : ofToml? text <;> simp [hconfig]

/-- A file gives no settings if it cannot be read or holds none. -/
theorem ofFile_eq_error {file : String} :
    ofFile disk file = .error error ↔
      (∃ reason, disk.read file = .error reason ∧ error = .unreadable file reason) ∨
        ∃ text, disk.read file = .ok text ∧ ofToml? text = none ∧ error = .malformed file := by
  rw [ofFile]
  cases disk.read file with
  | error reason => simp [eq_comm]
  | ok text => cases hconfig : ofToml? text <;> simp [hconfig, eq_comm]

/-- Settings are read from the chosen file if there is one. -/
theorem ofProject_eq_ofFile {file : String} (h : Chosen disk project path file) :
    ofProject disk project path = ofFile disk file := by
  cases h with
  | named => rfl
  | own hcontains => exact if_pos hcontains

/-- Where no file is chosen the defaults count. -/
theorem ofProject_eq_default (h : ∀ file, ¬Chosen disk project path file) :
    ofProject disk project path = .ok .default := by
  cases path with
  | some file => exact absurd (.named file) (h file)
  | none => exact if_neg fun hcontains => h _ (.own hcontains)

/-- **The settings of a project's file**, and why there may be none. -/
theorem ofProject_eq_ok : ofProject disk project path = .ok base ↔ Base disk project path base := by
  constructor
  · intro h
    by_cases hchosen : ∃ file, Chosen disk project path file
    · obtain ⟨file, hfile⟩ := hchosen
      rw [ofProject_eq_ofFile hfile] at h
      obtain ⟨text, hread, hconfig⟩ := ofFile_eq_ok.1 h
      exact .file hfile hread hconfig
    · -- without a file, the settings are the defaults and nothing else
      have hnone := not_exists.1 hchosen
      rw [ofProject_eq_default hnone] at h
      obtain rfl := Except.ok.inj h
      exact .default hnone
  · intro h
    cases h with
    | file hfile hread hconfig =>
      rw [ofProject_eq_ofFile hfile]
      exact ofFile_eq_ok.2 ⟨_, hread, hconfig⟩
    | default hnone => exact ofProject_eq_default hnone

/-- **There are no settings to start with** exactly if something is wrong with the chosen file. -/
theorem ofProject_eq_error :
    ofProject disk project path = .error error ↔ Fault disk project path error := by
  constructor
  · intro h
    by_cases hchosen : ∃ file, Chosen disk project path file
    · obtain ⟨file, hfile⟩ := hchosen
      rw [ofProject_eq_ofFile hfile] at h
      rcases ofFile_eq_error.1 h with ⟨reason, hread, rfl⟩ | ⟨text, hread, hconfig, rfl⟩
      · exact .unreadable hfile hread
      · exact .malformed hfile hread hconfig
    · -- without a file, nothing can be wrong
      rw [ofProject_eq_default (not_exists.1 hchosen)] at h
      cases h
  · intro h
    cases h with
    | unreadable hfile hread =>
      rw [ofProject_eq_ofFile hfile]
      exact ofFile_eq_error.2 (.inl ⟨_, hread, rfl⟩)
    | malformed hfile hread hconfig =>
      rw [ofProject_eq_ofFile hfile]
      exact ofFile_eq_error.2 (.inr ⟨_, hread, hconfig, rfl⟩)

/-! ### The layout engine -/

/-- Settings pass the check if their engine is known, and stay as they are. -/
theorem checked_eq_ok {checkedConfig : Config} :
    checked config = .ok checkedConfig ↔
      config.drawing.layout ∈ DrawingOptions.layoutEngines ∧ checkedConfig = config := by
  by_cases hknown : config.drawing.layout ∈ DrawingOptions.layoutEngines
  · simp [checked, hknown, eq_comm]
  · simp [checked, hknown]

/-- Settings are refused for an engine that is not known. -/
theorem checked_eq_error :
    checked config = .error error ↔
      config.drawing.layout ∉ DrawingOptions.layoutEngines ∧
        error = .unknownLayout config.drawing.layout := by
  by_cases hknown : config.drawing.layout ∈ DrawingOptions.layoutEngines
  · simp [checked, hknown]
  · simp [checked, hknown, eq_comm]

/-- An override asks for a known engine if it asks for one at all. -/
theorem getD_mem_layoutEngines {engine : String}
    (hengine : engine ∈ DrawingOptions.layoutEngines) :
    layout.getD engine ∈ DrawingOptions.layoutEngines ↔
      ∀ given ∈ layout, given ∈ DrawingOptions.layoutEngines := by
  cases layout <;> simp [hengine]

/-! ### All sources -/

/-- What becomes of the settings to start with. -/
structure Settled (environment : Environment) (layout title : Option String)
    (base config : Config) : Prop where
  rules : config.rules = base.rules
  /-- The command line goes before the environment, and the environment before the file. -/
  layout : config.drawing.layout = (layout.or environment.layout).getD base.drawing.layout
  title : config.drawing.title = (title.or environment.title).getD base.drawing.title
  tested : environment.includeTests = some "true" → config.scan.includeTests = true
  untested : environment.includeTests = some "false" → config.scan.includeTests = false
  /-- Any other word does not count. -/
  kept : environment.includeTests ≠ some "true" → environment.includeTests ≠ some "false" →
    config.scan.includeTests = base.scan.includeTests
  skipped : config.scan.skippedDirectories = base.scan.skippedDirectories

/-- The settings with the layout engine and the title replaced, if others are given. -/
def replaced (config : Config) (layout title : Option String) : Config :=
  { config with
    drawing := ⟨layout.getD config.drawing.layout, title.getD config.drawing.title⟩ }

/-- Only two words are truth values. -/
theorem truth?_eq_none {word : String} (htrue : word ≠ "true") (hfalse : word ≠ "false") :
    truth? word = none := by
  rw [truth?]
  · exact htrue
  · exact hfalse

/-- **Two replacements, one after the other**, settle every setting. -/
theorem settled_replaced (environment : Environment) (layout title : Option String)
    (base : Config) :
    Settled environment layout title base
      ((base.withEnvironment environment).replaced layout title) where
  rules := rfl
  layout := by cases layout <;> rfl
  title := by cases title <;> rfl
  tested h := by simp [replaced, withEnvironment, h, truth?]
  untested h := by simp [replaced, withEnvironment, h, truth?]
  kept htrue hfalse := by
    cases hword : environment.includeTests with
    | none => simp [replaced, withEnvironment, hword]
    | some word =>
      rw [hword, ne_eq, Option.some.injEq] at htrue hfalse
      simp [replaced, withEnvironment, hword, truth?_eq_none htrue hfalse]
  skipped := rfl

/-- Settings are those to start with, replaced twice, and each replacement leaves an engine that is
known. -/
theorem settings_eq_ok :
    settings disk environment project path layout title = .ok config ↔
      ∃ base, Base disk project path base ∧
        environment.layout.getD base.drawing.layout ∈ DrawingOptions.layoutEngines ∧
        (∀ given ∈ layout, given ∈ DrawingOptions.layoutEngines) ∧
        config = (base.withEnvironment environment).replaced layout title := by
  simp only [settings, load, bind_eq_ok, ofProject_eq_ok, checked_eq_ok, override]
  constructor
  · -- what the command line leaves is known if what it gives is
    rintro ⟨_, ⟨base, hbase, hknown, rfl⟩, hgiven, hconfig⟩
    exact ⟨base, hbase, hknown, (getD_mem_layoutEngines hknown).1 hgiven, hconfig⟩
  · rintro ⟨base, hbase, hknown, hgiven, hconfig⟩
    exact ⟨_, ⟨base, hbase, hknown, rfl⟩, (getD_mem_layoutEngines hknown).2 hgiven, hconfig⟩

/-- Settings are refused for their file or for the first of their engines that is not known. -/
theorem settings_eq_error :
    settings disk environment project path layout title = .error error ↔
      Fault disk project path error ∨ ∃ base, Base disk project path base ∧
        ∃ engine, engine ∉ DrawingOptions.layoutEngines ∧ error = .unknownLayout engine ∧
          (environment.layout.getD base.drawing.layout = engine ∨
            environment.layout.getD base.drawing.layout ∈ DrawingOptions.layoutEngines ∧
              layout = some engine) := by
  simp only [settings, load, bind_eq_error, bind_eq_ok, ofProject_eq_ok, ofProject_eq_error,
    checked_eq_ok, checked_eq_error, override]
  constructor
  · rintro ((hfault | ⟨base, hbase, hunknown, rfl⟩) |
      ⟨_, ⟨base, hbase, hknown, rfl⟩, hunknown, rfl⟩)
    · exact .inl hfault
    · -- the engine that the environment leaves is not known
      exact .inr ⟨base, hbase, _, hunknown, rfl, .inl rfl⟩
    · -- the engine of the environment is known, so the unknown one was given
      cases layout with
      | none => exact absurd hknown hunknown
      | some engine => exact .inr ⟨base, hbase, engine, hunknown, rfl, .inr ⟨hknown, rfl⟩⟩
  · rintro (hfault | ⟨base, hbase, engine, hunknown, rfl, rfl | ⟨hknown, rfl⟩⟩)
    · exact .inl (.inl hfault)
    · exact .inl (.inr ⟨base, hbase, hunknown, rfl⟩)
    · exact .inr ⟨_, ⟨base, hbase, hknown, rfl⟩, hunknown, rfl⟩

/-- There is one choice of settings to start with. -/
theorem Base.unique {base' : Config} (h : Base disk project path base)
    (h' : Base disk project path base') : base = base' :=
  Except.ok.inj ((ofProject_eq_ok.2 h).symm.trans (ofProject_eq_ok.2 h'))

/-- **Which setting counts.** A project has settings exactly if there are settings to start with,
the engine that the environment leaves there is known, and so is the one that is given, if one is.
Each setting is then that of the first source that may set it. Otherwise the settings are refused,
for the file that is chosen or for an engine. -/
theorem load_override (disk : Disk) (environment : Environment) (project : String)
    (path layout title : Option String) :
    ((∃ config, settings disk environment project path layout title = .ok config) ↔
      ∃ base, Base disk project path base ∧
        environment.layout.getD base.drawing.layout ∈ DrawingOptions.layoutEngines ∧
        ∀ given ∈ layout, given ∈ DrawingOptions.layoutEngines) ∧
    (∀ base config, Base disk project path base →
      settings disk environment project path layout title = .ok config →
        Settled environment layout title base config) ∧
    ∀ error, settings disk environment project path layout title = .error error ↔
      Fault disk project path error ∨ ∃ base, Base disk project path base ∧
        ∃ engine, engine ∉ DrawingOptions.layoutEngines ∧ error = .unknownLayout engine ∧
          (environment.layout.getD base.drawing.layout = engine ∨
            environment.layout.getD base.drawing.layout ∈ DrawingOptions.layoutEngines ∧
              layout = some engine) := by
  refine ⟨⟨?_, ?_⟩, fun base config hbase hsettings => ?_, fun error => settings_eq_error⟩
  · rintro ⟨config, hsettings⟩
    obtain ⟨base, hbase, hknown, hgiven, -⟩ := settings_eq_ok.1 hsettings
    exact ⟨base, hbase, hknown, hgiven⟩
  · rintro ⟨base, hbase, hknown, hgiven⟩
    exact ⟨_, settings_eq_ok.2 ⟨base, hbase, hknown, hgiven, rfl⟩⟩
  · -- the settings to start with are the same, as there is one choice of them
    obtain ⟨base', hbase', -, -, rfl⟩ := settings_eq_ok.1 hsettings
    rw [hbase.unique hbase']
    exact settled_replaced environment layout title base'

/-- Another engine on the command line does not make up for an unknown one in the environment. -/
example : settings ⟨.emptyDirectory, []⟩ ⟨some "spring", none, none⟩ "p" none (some "dot") none =
    .error (.unknownLayout "spring") := rfl

end Config

end PackageGraph
