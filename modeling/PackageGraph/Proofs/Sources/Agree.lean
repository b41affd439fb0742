import PackageGraph.Proofs.Disk.Agree
import PackageGraph.Proofs.Sources.Unread

/-!
# Source files that are not read

What is listed of a project does not depend on what its source files hold
(`Sources.files_eq_of_agrees`): ignore files decide, and the places of directories and of `go.mod`
files, but no file with the extension of a source is one of these. What is collected depends on the
listed files alone (`Sources.facts_eq_of_agrees`).
-/

namespace PackageGraph

/-- The place of a file with the extension of a source. -/
def IsSourcePlace (names : Names) : Prop := ∃ above stem, names = above ++ [stem ++ ".go"]

/-- A file with another extension is in no such place. -/
theorem not_isSourcePlace {name : String} (above : Names)
    (h : Text.hasSuffix ".go".toList name.toList = false) : ¬IsSourcePlace (above ++ [name]) := by
  rintro ⟨above', stem, heq⟩
  obtain ⟨-, hname⟩ := List.append_inj' heq rfl
  obtain rfl := (List.cons.inj hname).1
  rw [Text.hasSuffix_iff.2 ⟨stem.toList, String.toList_append⟩] at h
  cases h

variable {changed : Names → Prop} {disk disk' : Disk}

/-! ### Ignore files -/

namespace Ignore

/-- Rules are read off a file's content. -/
theorem RuleList.ofEntry_eq {found found' : Option Entry}
    (h : found'.map Entry.content? = found.map Entry.content?) :
    ofEntry found' = ofEntry found := by
  have hofEntry : ∀ found, ofEntry found =
      ((found.map Entry.content?).join.map RuleList.ofContent).getD RuleList.none := by
    rintro (_ | ⟨content | children⟩) <;> rfl
  rw [hofEntry, hofEntry, h]

namespace Level

theorem endsWith_place (directory : Names) {name : String} (hname : IsName name) :
    Disk.EndsWith ("/" ++ Text.joinWith "/" (directory ++ [name])) name :=
  (Disk.endsWith_joinWith hname directory).below ""

/-- The first line of a file is the same on both disks, unless the file is a source. -/
theorem firstLine?_eq_of_agrees (hagrees : disk.Agrees changed disk')
    (hsources : ∀ names, changed names → IsSourcePlace names) {path name : String}
    (hname : IsName name) (hends : Disk.EndsWith path name)
    (hother : Text.hasSuffix ".go".toList name.toList = false) :
    firstLine? disk' path = firstLine? disk path := by
  rw [firstLine?, firstLine?, hagrees.read_eq_of_endsWith hname hends
    fun above => mt (hsources _) (not_isSourcePlace above hother)]

/-- What a working copy shares is the same on both disks. -/
theorem sharedRules_eq_of_agrees (hagrees : disk.Agrees changed disk')
    (hsources : ∀ names, changed names → IsSourcePlace names) (directory : Names) :
    sharedRules disk' directory = sharedRules disk directory := by
  -- the file that names the records, the one that names what they share, and the rules there
  have hnames : firstLine? disk' ("/" ++ Text.joinWith "/" (directory ++ [".git"])) =
      firstLine? disk ("/" ++ Text.joinWith "/" (directory ++ [".git"])) :=
    firstLine?_eq_of_agrees hagrees hsources (by decide) (endsWith_place directory (by decide))
      (by decide)
  have hshared (records : String) : firstLine? disk' (Disk.joinPath records "commondir") =
      firstLine? disk (Disk.joinPath records "commondir") :=
    firstLine?_eq_of_agrees hagrees hsources (by decide)
      (Disk.endsWith_joinPath ⟨_, _, rfl, by decide⟩ (Disk.endsWith_self (by decide))) (by decide)
  have hrules (shared : String) :
      (disk'.locate (Disk.joinPath shared "info/exclude")).toOption.map (·.2.content?) =
        (disk.locate (Disk.joinPath shared "info/exclude")).toOption.map (·.2.content?) :=
    hagrees.locate_eq_of_endsWith (by decide)
      (Disk.endsWith_joinPath ⟨_, _, rfl, by decide⟩ ⟨["info"], rfl⟩)
      fun above => mt (hsources _) (not_isSourcePlace above (by decide))
  rw [sharedRules, sharedRules, hnames]
  refine RuleList.ofEntry_eq ?_
  simp only [Option.bind_eq_bind, Option.map_bind, Option.map_map, Function.comp_def, hshared,
    hrules]

/-- No ignore file has the extension of a source. -/
theorem not_isSourcePlace_names (kind : Kind) (directory : Names) :
    ¬IsSourcePlace (directory ++ kind.names) := by
  have hnames : ∃ above name, kind.names = above ++ [name] ∧
      Text.hasSuffix ".go".toList name.toList = false := by
    cases kind with
    | own => exact ⟨[], ".pkgrelignore", rfl, by decide⟩
    | general => exact ⟨[], ".ignore", rfl, by decide⟩
    | versioned => exact ⟨[], ".gitignore", rfl, by decide⟩
    | workingCopy => exact ⟨[".git", "info"], "exclude", rfl, by decide⟩
  obtain ⟨above, name, hnames, hother⟩ := hnames
  rw [hnames, ← List.append_assoc]
  exact not_isSourcePlace _ hother

/-- **The ignore files of a directory say the same** on both disks. -/
theorem ofDirectory_eq_of_agrees (hagrees : disk.Agrees changed disk')
    (hsources : ∀ names, changed names → IsSourcePlace names) {directory : Names}
    {entry entry' : Entry} (hentry : disk.root.descendant? directory = some entry)
    (hentry' : disk'.root.descendant? directory = some entry') :
    ofDirectory disk' directory entry' = ofDirectory disk directory entry := by
  -- each ignore file has the same content, and each child is of the same kind
  have hread (kind : Kind) : RuleList.ofEntry (entry'.descendant? kind.names) =
      RuleList.ofEntry (entry.descendant? kind.names) := by
    have hcontent := hagrees.content_eq (directory ++ kind.names)
      (mt (hsources _) (not_isSourcePlace_names kind directory))
    rw [Entry.descendant?_append, Entry.descendant?_append, hentry, hentry'] at hcontent
    exact RuleList.ofEntry_eq hcontent
  have hchild (name : String) : (entry'.child? name).map Entry.isDirectory =
      (entry.child? name).map Entry.isDirectory := by
    have hkind := hagrees.kind_eq (directory ++ [name])
    rw [Entry.descendant?_append, Entry.descendant?_append, hentry, hentry', Option.bind_some,
      Option.bind_some, Entry.descendant?_singleton, Entry.descendant?_singleton] at hkind
    exact hkind
  have hisSome (name : String) : (entry'.child? name).isSome = (entry.child? name).isSome := by
    simpa only [Option.isSome_map] using congrArg Option.isSome (hchild name)
  rw [ofDirectory, ofDirectory]
  simp only [hread, hisSome, sharedRules_eq_of_agrees hagrees hsources]
  congr 1
  -- the records of a working copy are a file on both disks, or on neither
  have hrecords := hchild ".git"
  generalize entry.child? ".git" = records at hrecords ⊢
  generalize entry'.child? ".git" = records' at hrecords ⊢
  rcases records with _ | ⟨_ | _⟩ <;> rcases records' with _ | ⟨_ | _⟩ <;>
    first | rfl | cases hrecords

/-- **The ignore files above a directory say the same**, whatever source files hold. -/
theorem above_eq_of_agrees (hagrees : disk.Agrees changed disk')
    (hsources : ∀ names, changed names → IsSourcePlace names) (directory : Names) :
    above disk' directory = above disk directory := by
  rw [above, above]
  refine List.filterMap_congr fun names _ => ?_
  cases hentry : disk.root.descendant? names with
  -- a directory is on both disks, or on neither
  | none =>
    rw [hagrees.descendant?_eq_none hentry]
    rfl
  | some entry =>
    obtain ⟨entry', hentry', -⟩ := hagrees.exists_descendant hentry
    rw [hentry', Option.map_some, Option.map_some,
      ofDirectory_eq_of_agrees hagrees hsources hentry hentry']

end Level

end Ignore

/-! ### Listings -/

namespace Sources

open Ignore (Level)

variable {project : String} {options : ScanOptions} {filters : Filters}

/-- What selects a file does not depend on what source files hold. -/
theorem Selected.of_agrees (hagrees : disk.Agrees changed disk')
    (hsources : ∀ names, changed names → IsSourcePlace names) {here names : Names}
    (h : Selected disk options filters here names) : Selected disk' options filters here names where
  exists_content := by
    obtain ⟨content, hcontent⟩ := h.exists_content
    obtain ⟨content', hcontent', -⟩ := hagrees.exists_file hcontent
    exact ⟨content', hcontent'⟩
  source := h.source
  allowed := h.allowed
  admitted way name rest hnames := by
    rw [Level.above_eq_of_agrees hagrees hsources]
    exact h.admitted way name rest hnames
  entered way name rest hnames hrest := by
    obtain ⟨hsetApart, hhidden, hskipped, hmodule⟩ := h.entered way name rest hnames hrest
    refine ⟨hsetApart, hhidden, hskipped, fun content' hcontent' => ?_⟩
    obtain ⟨content, hcontent, -⟩ := hagrees.symm.exists_file hcontent'
    exact hmodule content hcontent

/-- So a file that is listed is listed on the other disk, too. -/
theorem Lists.of_agrees (hagrees : disk.Agrees changed disk')
    (hsources : ∀ names, changed names → IsSourcePlace names) {file : Names} {content : Content}
    (h : Lists disk project options filters file content) :
    ∃ content', Lists disk' project options filters file content' := by
  obtain ⟨hpath, here, children, hlocate, hcontent, hselected⟩ := h
  obtain ⟨children', hlocate'⟩ := hagrees.locate_directory hlocate
  obtain ⟨content', hcontent', -⟩ := hagrees.exists_file hcontent
  exact ⟨content', hpath, here, children', hlocate', hcontent',
    hselected.of_agrees hagrees hsources⟩

/-- A listing fails on the other disk as it does here. -/
theorem files_error_of_agrees (hagrees : disk.Agrees changed disk')
    (hsources : ∀ names, changed names → IsSourcePlace names) {failure : Failure}
    (h : files disk project options filters = .error failure) :
    files disk' project options filters = .error failure := by
  have hfaults (here : Names) : faultsAbove disk' here = faultsAbove disk here := by
    rw [faultsAbove, faultsAbove, Level.above_eq_of_agrees hagrees hsources]
  obtain ⟨hpath, h⟩ := files_eq_error.1 h
  refine files_eq_error.2 ⟨hpath, ?_⟩
  simp only [hfaults]
  rcases h with ⟨error, hlocate, hfailure⟩ | ⟨here, children, hlocate, hfailure⟩
  · -- the project is not there
    exact .inl ⟨error, hagrees.locate_error hlocate, hfailure⟩
  · -- an ignore file above it has a fault
    obtain ⟨children', hlocate'⟩ := hagrees.locate_directory hlocate
    exact .inr ⟨here, children', hlocate', hfailure⟩

/-- **A listing does not depend on what source files hold.** -/
theorem files_eq_of_agrees (hregular : disk.Regular) (hregular' : disk'.Regular)
    (hagrees : disk.Agrees changed disk') (hsources : ∀ names, changed names → IsSourcePlace names)
    (hproject : IsProject disk project) :
    files disk' project options filters = files disk project options filters := by
  cases hlisted : files disk project options filters with
  | error failure => exact files_error_of_agrees hagrees hsources hlisted
  | ok listed =>
    cases hlisted' : files disk' project options filters with
    | error failure =>
      cases hlisted.symm.trans (files_error_of_agrees hagrees.symm hsources hlisted')
    | ok listed' =>
      have hproject' : IsProject disk' project :=
        hproject.imp id fun ⟨here, children, hlocate⟩ =>
          ⟨here, hagrees.locate_directory hlocate⟩
      obtain ⟨hsorted, hmem⟩ := files_listed hregular hproject hlisted
      obtain ⟨hsorted', hmem'⟩ := files_listed hregular' hproject' hlisted'
      -- both listings are sorted, and have the same files
      refine congrArg _ (Sorted.eq_of_mem_iff hsorted' hsorted fun file => ?_)
      rw [hmem, hmem']
      exact ⟨fun ⟨_, h⟩ => h.of_agrees hagrees.symm hsources,
        fun ⟨_, h⟩ => h.of_agrees hagrees hsources⟩

/-! ### Facts -/

/-- The place of a source file that the listing of a project does not have. -/
structure IsUnlisted (disk : Disk) (project : String) (options : ScanOptions) (filters : Filters)
    (names : Names) : Prop where
  /-- The file has the extension of a source. -/
  source : IsSourcePlace names
  /-- No listed file is in this place. -/
  unlisted : ∀ here entry listed, disk.locate project = .ok (here, entry) →
    files disk project options filters = .ok listed → ∀ file ∈ listed, names ≠ here ++ file

/-- **What is collected depends on the listed files alone.** -/
theorem facts_eq_of_agrees (hregular : disk.Regular) (hregular' : disk'.Regular)
    (hagrees : disk.Agrees (IsUnlisted disk project options filters) disk')
    (hproject : IsProject disk project) :
    facts disk' project options filters = facts disk project options filters := by
  rw [facts, facts, files_eq_of_agrees hregular hregular' hagrees (fun _ h => h.source) hproject]
  cases hlisted : files disk project options filters with
  | error failure => rfl
  | ok listed =>
    have husage : ∀ file ∈ listed, usage disk' project file = usage disk project file := by
      intro file hfile
      obtain ⟨content, -, here, children, hlocate, hcontent, hselected⟩ :=
        ((files_listed hregular hproject hlisted).2 file).1 hfile
      -- a listed file is where its path leads, which is no place of an unlisted one
      have hplace := Disk.locate_joinPath_names hregular hlocate hselected.ne_nil hcontent
      rw [usage, usage, hagrees.read_eq fun names entry hnames hunlisted => ?_]
      obtain ⟨rfl, -⟩ := Prod.mk.inj (Except.ok.inj (hplace.symm.trans hnames))
      exact hunlisted.unlisted here _ listed hlocate hlisted file hfile rfl
    change factsOf disk' project listed = factsOf disk project listed
    rw [factsOf, factsOf, mapM_congr fun file hfile => by rw [husage file hfile]]

end Sources

end PackageGraph
