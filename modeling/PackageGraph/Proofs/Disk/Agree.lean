import PackageGraph.Proofs.Disk.Written

/-!
# Disks that agree

Two disks agree but for the content of some files if they have the same entries of the same kinds,
and only files at certain places may hold something else (`Disk.Agrees`). Every path leads to the
same place on both (`Disk.Agrees.follow_eq`), and reading gives the same unless it is one of these
files that is read (`Disk.Agrees.read_eq`).

A file that is read for what it is called, like an ignore file, is known by the last component of
its path: whatever is above leads wherever it does, and the name stands behind it
(`Disk.eq_append_of_follow_concat`).
-/

namespace PackageGraph.Disk

open PackageGraph.Path Text

/-- The disks have the same entries, of the same kinds and with the same contents, but for the
contents of files at places that may be changed. -/
structure Agrees (changed : Names → Prop) (disk disk' : Disk) : Prop where
  /-- Relative paths start at the same place. -/
  here_eq : disk'.here = disk.here
  /-- Every place has an entry of the same kind. -/
  kind_eq : ∀ names, (disk'.root.descendant? names).map Entry.isDirectory =
    (disk.root.descendant? names).map Entry.isDirectory
  /-- Every place that may not be changed has the same content. -/
  content_eq : ∀ names, ¬changed names → (disk'.root.descendant? names).map Entry.content? =
    (disk.root.descendant? names).map Entry.content?

section Agrees

variable {changed changed' : Names → Prop} {disk disk' : Disk}

theorem Agrees.symm (h : Agrees changed disk disk') : Agrees changed disk' disk :=
  ⟨h.here_eq.symm, fun names => (h.kind_eq names).symm,
    fun names hnames => (h.content_eq names hnames).symm⟩

/-- Disks agree the more, the more places may be changed. -/
theorem Agrees.mono (h : Agrees changed disk disk')
    (hmore : ∀ names, changed names → changed' names) : Agrees changed' disk disk' :=
  ⟨h.here_eq, h.kind_eq, fun names hnames => h.content_eq names (mt (hmore names) hnames)⟩

/-- Where one disk has an entry, the other has one like it. -/
theorem Agrees.exists_descendant (h : Agrees changed disk disk') {names : Names} {entry : Entry}
    (hentry : disk.root.descendant? names = some entry) :
    ∃ entry', disk'.root.descendant? names = some entry' ∧
      entry'.isDirectory = entry.isDirectory ∧
      (¬changed names → entry'.content? = entry.content?) := by
  have hkind := h.kind_eq names
  have hcontent := h.content_eq names
  rw [hentry] at hkind hcontent
  obtain ⟨entry', hentry', hdirectory⟩ := Option.map_eq_some_iff.1 hkind
  refine ⟨entry', hentry', hdirectory, fun hnames => ?_⟩
  have hsame := hcontent hnames
  rw [hentry', Option.map_some, Option.map_some] at hsame
  exact Option.some.inj hsame

theorem Agrees.exists_directory (h : Agrees changed disk disk') {names : Names}
    {children : List (String × Entry)}
    (hentry : disk.root.descendant? names = some (.directory children)) :
    ∃ children', disk'.root.descendant? names = some (.directory children') := by
  obtain ⟨entry', hentry', hdirectory, -⟩ := h.exists_descendant hentry
  cases entry' with
  | file content => cases hdirectory
  | directory children' => exact ⟨children', hentry'⟩

/-- Where one disk has a file, the other has one, with the same content unless it may be changed. -/
theorem Agrees.exists_file (h : Agrees changed disk disk') {names : Names} {content : Content}
    (hentry : disk.root.descendant? names = some (.file content)) :
    ∃ content', disk'.root.descendant? names = some (.file content') ∧
      (¬changed names → content' = content) := by
  obtain ⟨entry', hentry', hdirectory, hcontent⟩ := h.exists_descendant hentry
  cases entry' with
  | directory children => cases hdirectory
  | file content' =>
    exact ⟨content', hentry', fun hnames => Option.some.inj (hcontent hnames)⟩

theorem Agrees.descendant?_eq_none (h : Agrees changed disk disk') {names : Names}
    (hentry : disk.root.descendant? names = none) : disk'.root.descendant? names = none := by
  have hkind := h.kind_eq names
  rw [hentry, Option.map_none, Option.map_eq_none_iff] at hkind
  exact hkind

/-- **A disk agrees with itself but for a file that is overwritten.** -/
theorem Overwrites.agrees {path text : String} {place : Names} {content : Content}
    (h : Overwrites disk disk' path text place)
    (hfile : disk.root.descendant? place = some (.file content)) :
    Agrees (· = place) disk disk' := by
  -- an entry is a directory if it has no content
  have hkind (found : Option Entry) : found.map Entry.isDirectory =
      (found.map Entry.content?).map Option.isNone := by
    rcases found with _ | ⟨_ | _⟩ <;> rfl
  refine ⟨h.here_eq, fun names => ?_, h.elsewhere⟩
  by_cases hplace : names = place
  · -- the file that is overwritten is still a file
    rw [hplace, hfile, (locate_eq_ok.1 h.found).2.2]
    rfl
  · -- everything else is what it was
    rw [hkind, hkind, h.elsewhere names hplace]

/-! ### Paths -/

/-- **Every path is followed alike.** -/
theorem Agrees.follow_eq (h : Agrees changed disk disk') (at' : Names) (components : List String) :
    follow disk'.root at' components = follow disk.root at' components := by
  induction components generalizing at' with
  | nil => rfl
  | cons component components ih =>
    rw [follow, follow]
    -- a step needs a directory on the way, and both disks have one or neither has
    cases hentry : disk.root.descendant? at' with
    | none => rw [h.descendant?_eq_none hentry]
    | some entry =>
      cases entry with
      | file content =>
        obtain ⟨content', hentry', -⟩ := h.exists_file hentry
        rw [hentry']
      | directory children =>
        obtain ⟨children', hentry'⟩ := h.exists_directory hentry
        rw [hentry']
        simp only [ih]

theorem Agrees.start_eq (h : Agrees changed disk disk') (path : String) :
    disk'.start path = disk.start path := by
  rw [start, start, h.here_eq]

/-- A path other than the empty one is followed, and an entry has to be there. -/
theorem locate_of_ne {disk : Disk} {path : String} (h : path ≠ "") :
    disk.locate path = follow disk.root (disk.start path) (components path) >>= fun names =>
      match disk.root.descendant? names with
      | some entry => .ok (names, entry)
      | none => .error .notFound := by
  rw [locate, if_neg (by simpa using h)]
  rfl

/-- **A path leads to the same place**, where there is an entry like the one on the other disk. -/
theorem Agrees.locate_ok (h : Agrees changed disk disk') {path : String} {names : Names}
    {entry : Entry} (hlocate : disk.locate path = .ok (names, entry)) :
    ∃ entry', disk'.locate path = .ok (names, entry') ∧
      entry'.isDirectory = entry.isDirectory ∧
      (¬changed names → entry'.content? = entry.content?) := by
  obtain ⟨hpath, hfollow, hentry⟩ := locate_eq_ok.1 hlocate
  obtain ⟨entry', hentry', hlike⟩ := h.exists_descendant hentry
  refine ⟨entry', locate_eq_ok.2 ⟨hpath, ?_, hentry'⟩, hlike⟩
  rw [h.follow_eq, h.start_eq, hfollow]

/-- A path leads to a directory on both disks. -/
theorem Agrees.locate_directory (h : Agrees changed disk disk') {path : String} {names : Names}
    {children : List (String × Entry)}
    (hlocate : disk.locate path = .ok (names, .directory children)) :
    ∃ children', disk'.locate path = .ok (names, .directory children') := by
  obtain ⟨entry', hlocate', hdirectory, -⟩ := h.locate_ok hlocate
  cases entry' with
  | file content => cases hdirectory
  | directory children' => exact ⟨children', hlocate'⟩

/-- A path that leads nowhere does so on both disks, for the same reason. -/
theorem Agrees.locate_error (h : Agrees changed disk disk') {path : String} {error : AccessError}
    (hlocate : disk.locate path = .error error) : disk'.locate path = .error error := by
  by_cases hpath : path = ""
  · subst hpath
    exact hlocate
  · rw [locate_of_ne hpath] at hlocate ⊢
    rw [h.start_eq, h.follow_eq]
    rcases bind_eq_error.1 hlocate with hfollow | ⟨names, hfollow, hmissing⟩
    · exact bind_eq_error.2 (.inl hfollow)
    · -- the path can be followed, but nothing is there
      refine bind_eq_error.2 (.inr ⟨names, hfollow, ?_⟩)
      split at hmissing
      · cases hmissing
      · next hnone => rw [h.descendant?_eq_none hnone]; exact hmissing

/-- The same paths are directories. -/
theorem Agrees.isDirectory_eq (h : Agrees changed disk disk') (path : String) :
    disk'.isDirectory path = disk.isDirectory path := by
  rw [isDirectory, isDirectory]
  cases hlocate : disk.locate path with
  | error error => rw [h.locate_error hlocate]
  | ok found =>
    obtain ⟨names, entry⟩ := found
    obtain ⟨entry', hlocate', hdirectory, -⟩ := h.locate_ok hlocate
    rw [hlocate']
    exact hdirectory

/-- **Reading gives the same** unless the path leads to a file that may be changed. -/
theorem Agrees.read_eq (h : Agrees changed disk disk') {path : String}
    (hplace : ∀ names entry, disk.locate path = .ok (names, entry) → ¬changed names) :
    disk'.read path = disk.read path := by
  rw [read, read]
  cases hlocate : disk.locate path with
  | error error => rw [h.locate_error hlocate]
  | ok found =>
    obtain ⟨names, entry⟩ := found
    obtain ⟨entry', hlocate', hdirectory, hcontent⟩ := h.locate_ok hlocate
    have hsame := hcontent (hplace names entry hlocate)
    rw [hlocate']
    -- both are directories or both are files
    cases entry with
    | directory children =>
      cases entry' with
      | directory children' => rfl
      | file content' => cases hdirectory
    | file content =>
      cases entry' with
      | directory children' => cases hdirectory
      | file content' =>
        obtain rfl : content' = content := Option.some.inj hsame
        rfl

end Agrees

/-! ### Files with a name of their own -/

/-- The last component of a path, if it is a name, is the name of what the path leads to. -/
theorem eq_append_of_follow_concat {root : Entry} {at' names : Names} {components : List String}
    {name : String} (hname : IsName name)
    (h : follow root at' (components ++ [name]) = .ok names) :
    ∃ above, names = above ++ [name] := by
  rw [follow_append] at h
  obtain ⟨above, -, hlast⟩ := bind_eq_ok.1 h
  refine ⟨above, eq_append_of_follow (fun component hcomponent => ?_) hlast⟩
  obtain rfl := List.mem_singleton.1 hcomponent
  exact ⟨hname.ne_empty, hname.ne_dot, hname.ne_up⟩

/-- The path ends with this component. -/
def EndsWith (path name : String) : Prop := ∃ above, components path = above ++ [name]

theorem endsWith_self {name : String} (hname : IsName name) : EndsWith name name :=
  ⟨[], components_of_not_mem hname.slash⟩

/-- A path ends as before with a directory in front of it. -/
theorem EndsWith.below {rest name : String} (h : EndsWith rest name) (directory : String) :
    EndsWith (directory ++ "/" ++ rest) name := by
  obtain ⟨above, habove⟩ := h
  exact ⟨components directory ++ above, by rw [components_append, habove, List.append_assoc]⟩

/-- The path of a place ends with its last name, whatever the names above it are. -/
theorem endsWith_joinWith {name : String} (hname : IsName name) (above : Names) :
    EndsWith (joinWith "/" (above ++ [name])) name := by
  induction above with
  | nil => exact endsWith_self hname
  | cons first above ih =>
    obtain ⟨second, more, hcons⟩ := List.exists_cons_of_ne_nil (List.append_ne_nil_of_right_ne_nil
      above (List.cons_ne_nil name []))
    rw [List.cons_append, hcons, joinWith, ← hcons]
    exact ih.below first

/-- A joined path ends as its second part does. -/
theorem endsWith_joinPath {base rest name : String} (hrest : IsRelative rest)
    (hends : EndsWith rest name) : EndsWith (joinPath base rest) name := by
  by_cases hbase : base = ""
  · subst hbase
    rwa [joinPath, if_pos (by simp)]
  · rcases joinPath_of_isRelative hbase hrest with ⟨directory, rfl, h⟩ | h
    · exact h ▸ hends.below directory
    · exact h ▸ hends.below base

/-- What a path leads to has the name that the path ends with. -/
theorem exists_above_of_locate {disk : Disk} {path name : String} {names : Names} {entry : Entry}
    (hname : IsName name) (hends : EndsWith path name)
    (h : disk.locate path = .ok (names, entry)) : ∃ above, names = above ++ [name] := by
  obtain ⟨-, hfollow, -⟩ := locate_eq_ok.1 h
  obtain ⟨components, hcomponents⟩ := hends
  rw [hcomponents] at hfollow
  exact eq_append_of_follow_concat hname hfollow

section Kept

variable {changed : Names → Prop} {disk disk' : Disk} {path name : String}

/-- **A file with a name of its own is read alike** unless files of this name may be changed. -/
theorem Agrees.read_eq_of_endsWith (h : Agrees changed disk disk') (hname : IsName name)
    (hends : EndsWith path name) (hkept : ∀ above, ¬changed (above ++ [name])) :
    disk'.read path = disk.read path := by
  refine h.read_eq fun names entry hlocate => ?_
  obtain ⟨above, rfl⟩ := exists_above_of_locate hname hends hlocate
  exact hkept above

/-- A file with a name of its own has the same content unless files of this name may be changed. -/
theorem Agrees.locate_eq_of_endsWith (h : Agrees changed disk disk') (hname : IsName name)
    (hends : EndsWith path name) (hkept : ∀ above, ¬changed (above ++ [name])) :
    (disk'.locate path).toOption.map (·.2.content?) =
      (disk.locate path).toOption.map (·.2.content?) := by
  cases hlocate : disk.locate path with
  | error error => rw [h.locate_error hlocate]
  | ok found =>
    obtain ⟨names, entry⟩ := found
    obtain ⟨above, rfl⟩ := exists_above_of_locate hname hends hlocate
    obtain ⟨entry', hlocate', -, hcontent⟩ := h.locate_ok hlocate
    rw [hlocate']
    exact congrArg some (hcontent (hkept above))

end Kept

end PackageGraph.Disk
