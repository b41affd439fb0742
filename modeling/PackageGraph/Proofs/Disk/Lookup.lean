import PackageGraph.Proofs.Disk.Distinct
import PackageGraph.Proofs.Path.Segments
import PackageGraph.Proofs.Stage

/-!
# Look-up and listing agree

A tree is looked at in two ways: a written path is followed from a directory (`Disk.locate`), and
the directories below an entry are listed (`Entry.directories`). The listing of a directory has
every directory that a path below it leads to (`Disk.locate_below`, `Entry.mem_directories`),
provided that the path goes down by names alone. It has no others in a tree where a name stands for
one child (`Entry.mem_directories_iff`).
-/

namespace PackageGraph

namespace Entry

/-- A descendant of a descendant is one of the entry. -/
theorem descendant?_append (entry : Entry) (names more : Names) :
    entry.descendant? (names ++ more) = (entry.descendant? names).bind (·.descendant? more) := by
  induction names generalizing entry with
  | nil => rfl
  | cons name names ih =>
    rw [List.cons_append, descendant?, descendant?]
    cases entry.child? name with
    | none => rfl
    | some child => exact ih child

/-- The descendant under one name is the child of that name. -/
theorem descendant?_singleton (entry : Entry) (name : String) :
    entry.descendant? [name] = entry.child? name := by
  rw [descendant?]
  cases entry.child? name <;> rfl

theorem Distinct.descendant {entry below : Entry} {names : Names} (h : entry.Distinct)
    (hbelow : entry.descendant? names = some below) : below.Distinct := by
  intro more children hchildren
  refine h (names ++ more) children ?_
  rw [descendant?_append, hbelow, Option.bind_some, hchildren]

/-- What is listed below a child is listed below its directory, behind the child's name. -/
private theorem mem_directoriesBelow {children : List (String × Entry)} {name : String}
    {child : Entry} {names : Names} (hchild : children.lookup name = some child)
    (hnames : names ∈ child.directories) : name :: names ∈ directoriesBelow children := by
  induction children with
  | nil => cases hchild
  | cons first rest ih =>
    obtain ⟨name', entry⟩ := first
    rw [directoriesBelow, List.mem_append]
    rw [List.lookup_cons] at hchild
    -- a look-up takes the first child of the name, a listing has all children
    split at hchild
    · next hsame =>
      obtain rfl := Option.some.inj hchild
      obtain rfl : name = name' := by simpa using hsame
      exact .inl (List.mem_map_of_mem hnames)
    · exact .inr (ih hchild)

/-- **A directory that can be looked up is listed.** -/
theorem mem_directories {entry : Entry} {names : Names} {children : List (String × Entry)}
    (h : entry.descendant? names = some (.directory children)) : names ∈ entry.directories := by
  induction names generalizing entry with
  | nil =>
    -- without names, the directory itself, which stands first in its own listing
    obtain rfl := Option.some.inj h
    rw [directories]
    exact List.mem_cons_self
  | cons name names ih =>
    obtain ⟨child, hchild, hrest⟩ := Option.bind_eq_some_iff.1 h
    -- what has a child is a directory
    cases entry with
    | file content => cases hchild
    | directory children' =>
      rw [directories]
      exact List.mem_cons_of_mem _ (mem_directoriesBelow hchild (ih hrest))

/-- Every listed directory is one below a child of the name that it begins with. -/
private theorem exists_child_of_mem {children : List (String × Entry)} {name : String}
    {names : Names} (h : name :: names ∈ directoriesBelow children) :
    ∃ child, (name, child) ∈ children ∧ names ∈ child.directories := by
  induction children with
  | nil => cases h
  | cons first rest ih =>
    obtain ⟨name', entry⟩ := first
    rw [directoriesBelow, List.mem_append] at h
    rcases h with h | h
    · -- it is listed below the first child, or else below one behind it
      obtain ⟨below, hbelow, heq⟩ := List.mem_map.1 h
      obtain ⟨rfl, rfl⟩ := List.cons.inj heq
      exact ⟨entry, List.mem_cons_self, hbelow⟩
    · obtain ⟨child, hchild, hnames⟩ := ih h
      exact ⟨child, List.mem_cons_of_mem _ hchild, hnames⟩

/-- **What is listed can be looked up**, if a name stands for one child. -/
theorem mem_directories_iff {entry : Entry} (hdistinct : entry.Distinct) {names : Names} :
    names ∈ entry.directories ↔
      ∃ children, entry.descendant? names = some (.directory children) := by
  refine ⟨fun h => ?_, fun ⟨children, h⟩ => mem_directories h⟩
  induction names generalizing entry with
  | nil =>
    cases entry with
    | file content => cases h
    | directory children => exact ⟨children, rfl⟩
  | cons name names ih =>
    cases entry with
    | file content => cases h
    | directory children =>
      rw [directories] at h
      -- names lead below a child, and a look-up of the first one finds this very child
      have hbelow := (List.mem_cons.1 h).resolve_left (List.cons_ne_nil _ _)
      obtain ⟨child, hmem, hnames⟩ := exists_child_of_mem hbelow
      have hchild := hdistinct.mem_iff.1 hmem
      obtain ⟨below, hdescendant⟩ := ih (hdistinct.child hchild) hnames
      exact ⟨below, by rw [descendant?, hchild, Option.bind_some, hdescendant]⟩

end Entry

namespace Disk

open PackageGraph.Path Text

/-! ### Following components -/

/-- Components that follow others are followed from where those lead. -/
theorem follow_append (root : Entry) (at' : Names) (components more : List String) :
    follow root at' (components ++ more) =
      (follow root at' components).bind (follow root · more) := by
  induction components generalizing at' with
  | nil => rfl
  | cons component components ih =>
    rw [List.cons_append, follow, follow]
    -- the first component fails on both sides, stays, goes up or goes down
    split
    · rfl
    · rfl
    · split
      · exact ih at'
      · split
        · exact ih at'.dropLast
        · exact ih (at' ++ [component])

/-- Names lead down, one directory each. -/
theorem eq_append_of_follow {root : Entry} {at' names : Names} {components : List String}
    (hplain : ∀ component ∈ components, component ≠ "" ∧ component ≠ "." ∧ component ≠ "..")
    (h : follow root at' components = .ok names) : names = at' ++ components := by
  induction components generalizing at' with
  | nil => exact (Except.ok.inj h).symm.trans (List.append_nil _).symm
  | cons component components ih =>
    obtain ⟨hempty, hdot, hup⟩ := hplain component List.mem_cons_self
    rw [follow] at h
    split at h
    · cases h
    · cases h
    · -- a component that is neither empty nor made of dots goes down
      rw [if_neg (not_or.2 ⟨hempty, hdot⟩), if_neg hup] at h
      rw [ih (fun other hother => hplain other (List.mem_cons_of_mem _ hother)) h,
        List.append_assoc]
      rfl

/-! ### Locating what is below a directory -/

/-- Where a path is followed from. -/
def start (disk : Disk) (path : String) : Names :=
  if path.toList.head? = some '/' then [] else disk.here

/-- A path that is not empty is located where its components lead, if there is an entry. -/
theorem locate_eq_ok {disk : Disk} {path : String} {names : Names} {entry : Entry} :
    disk.locate path = .ok (names, entry) ↔
      path ≠ "" ∧ follow disk.root (disk.start path) (components path) = .ok names ∧
        disk.root.descendant? names = some entry := by
  rw [locate]
  by_cases hempty : path = ""
  · subst hempty
    exact ⟨fun h => (nomatch h), fun h => absurd rfl h.1⟩
  · rw [if_neg (by simpa using hempty), and_iff_right hempty]
    constructor
    · intro h
      obtain ⟨names', hfollow, h⟩ := bind_eq_ok.1 h
      split at h
      · next hentry =>
        obtain ⟨rfl, rfl⟩ := Prod.mk.inj (Except.ok.inj h)
        exact ⟨hfollow, hentry⟩
      · cases h
    · rintro ⟨hfollow, hentry⟩
      refine bind_eq_ok.2 ⟨names, hfollow, ?_⟩
      rw [hentry]
      rfl

/-- What is joined to a path that is not empty is not empty. -/
theorem joinPath_ne_empty {project path : String} (h : path ≠ "") : joinPath project path ≠ "" := by
  rw [joinPath]
  split_ifs
  · exact h
  · simpa using fun _ => h
  · simp

/-- A path that is continued may be joined before or after. -/
theorem joinPath_append {project path : String} (h : path ≠ "") (rest : String) :
    joinPath project (path ++ "/" ++ rest) = joinPath project path ++ "/" ++ rest := by
  obtain ⟨c, cs, hcons⟩ := List.exists_cons_of_ne_nil (mt String.toList_eq_nil_iff.1 h)
  -- the first character decides how a path is joined, and it stays the same
  have hhead : (path ++ "/" ++ rest).toList.head? = path.toList.head? := by
    rw [String.toList_append, String.toList_append, hcons]
    rfl
  rw [joinPath, joinPath, hhead]
  split_ifs <;> simp [String.append_assoc]

/-- A path that is continued is followed from the same directory. -/
theorem start_append {disk : Disk} {path : String} (h : path ≠ "") (rest : String) :
    disk.start (path ++ "/" ++ rest) = disk.start path := by
  obtain ⟨c, cs, hcons⟩ := List.exists_cons_of_ne_nil (mt String.toList_eq_nil_iff.1 h)
  rw [start, start, String.toList_append, String.toList_append, hcons]
  rfl

/-- **What is located below a path is a descendant of the directory there.** -/
theorem locate_below {disk : Disk} {path rest : String} {names : Names} {entry : Entry}
    (hpath : path ≠ "") (hrest : IsPlain rest)
    (h : disk.locate (path ++ "/" ++ rest) = .ok (names, entry)) :
    ∃ above children, disk.locate path = .ok (above, .directory children) ∧
      (Entry.directory children).descendant? (components rest) = some entry := by
  obtain ⟨-, hfollow, hentry⟩ := locate_eq_ok.1 h
  -- the walk goes through what is above first, and from there by names alone
  rw [start_append hpath, components_append, follow_append] at hfollow
  obtain ⟨above, habove, hbelow⟩ := bind_eq_ok.1 hfollow
  obtain rfl := eq_append_of_follow (fun _ => ne_of_mem_components hrest) hbelow
  rw [Entry.descendant?_append] at hentry
  obtain ⟨top, htop, hentry⟩ := Option.bind_eq_some_iff.1 hentry
  cases top with
  | file content =>
    -- a path has at least one component, and a file has nothing below it
    obtain ⟨name, names, hcons⟩ := List.exists_cons_of_ne_nil (components_ne_nil rest)
    rw [hcons] at hentry
    cases hentry
  | directory children => exact ⟨above, children, locate_eq_ok.2 ⟨hpath, habove, htop⟩, hentry⟩

theorem isDirectory_iff {disk : Disk} {path : String} :
    disk.isDirectory path = true ↔
      ∃ names children, disk.locate path = .ok (names, .directory children) := by
  rw [isDirectory]
  cases disk.locate path with
  | error failure => simp
  | ok result =>
    obtain ⟨names, entry⟩ := result
    cases entry <;> simp [Entry.isDirectory]

end Disk

end PackageGraph
