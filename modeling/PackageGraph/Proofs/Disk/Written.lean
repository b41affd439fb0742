import Mathlib.Data.List.TakeWhile
import PackageGraph.Proofs.Disk.Joined

/-!
# Writing a file

Writing a text at a path changes one place of the tree (`Disk.overwrites_of_write`). The place gets
the text, and the path leads there afterwards; whatever stands at any other place keeps its content,
directories are directories still, and nothing appears or disappears (`Disk.Overwrites`).

A written path is followed through directories only, and none of them is lost by writing, so that
the path can be followed again on the new disk (`Disk.follow_mono`).
-/

namespace PackageGraph

namespace Entry

/-- The content of a file; a directory has none of its own. -/
def content? : Entry → Option Content
  | .file content => some content
  | .directory _ => none

/-- A child that is put is found, and every other child is what it was. -/
theorem lookup_putChild (name name' : String) (new : Entry) (children : List (String × Entry)) :
    (putChild name new children).lookup name' =
      if name' = name then some new else children.lookup name' := by
  induction children with
  | nil =>
    rw [putChild, List.lookup_cons, List.lookup_nil]
    by_cases h : name' = name
    · simp [h]
    · simp [h, beq_eq_false_iff_ne.2 h]
  | cons first rest ih =>
    obtain ⟨key, child⟩ := first
    rw [putChild]
    by_cases hkey : key = name
    · -- the child takes the place of the first one of its name
      subst hkey
      rw [if_pos rfl, List.lookup_cons, List.lookup_cons]
      by_cases h : name' = key
      · simp [h]
      · simp [h, beq_eq_false_iff_ne.2 h]
    · -- it is put further back
      rw [if_neg hkey, List.lookup_cons, List.lookup_cons, ih]
      by_cases h : name' = key
      · simp [h, hkey]
      · simp [beq_eq_false_iff_ne.2 h]

/-- Putting an entry below a name makes another child of that name, and changes no other child. -/
theorem child?_put (entry new : Entry) (name name' : String) (rest : Names) :
    (entry.put new (name :: rest)).child? name' =
      if name' = name then some (((entry.child? name).getD emptyDirectory).put new rest)
      else entry.child? name' := by
  rw [put, child?, children, lookup_putChild]
  rfl

theorem descendant?_put_self (entry new : Entry) (names : Names) :
    (entry.put new names).descendant? names = some new := by
  induction names generalizing entry with
  | nil => rfl
  | cons name names ih => rw [descendant?, child?_put, if_pos rfl, Option.bind_some, ih]

/-- **Every other place is as it was.** A file is put into a directory that is there, in the place
of a file or of nothing. -/
theorem descendant?_put_of_ne {entry : Entry} {content : Content} {above : Names} {name : String}
    {children : List (String × Entry)}
    (habove : entry.descendant? above = some (.directory children))
    (hfree : ∀ below, (Entry.directory children).child? name ≠ some (.directory below))
    {names : Names} (hne : names ≠ above ++ [name]) :
    ((entry.put (.file content) (above ++ [name])).descendant? names).map content? =
      (entry.descendant? names).map content? := by
  induction above generalizing entry names with
  | nil =>
    obtain rfl := Option.some.inj habove
    cases names with
    | nil => rfl
    | cons first rest =>
      rw [List.nil_append, descendant?, descendant?, child?_put]
      by_cases hfirst : first = name
      · -- below the new file there is nothing, and there was nothing before
        subst hfirst
        have hrest : rest ≠ [] := fun h => hne (by rw [h]; rfl)
        obtain ⟨next, rest, rfl⟩ := List.exists_cons_of_ne_nil hrest
        rw [if_pos rfl, Option.bind_some]
        cases hchild : (Entry.directory children).child? first with
        | none => rfl
        | some child =>
          cases child with
          | file known => rfl
          | directory below => exact absurd hchild (hfree below)
      · -- the place is below another name
        rw [if_neg hfirst]
  | cons step above ih =>
    obtain ⟨child, hchild, hrest⟩ := Option.bind_eq_some_iff.1 habove
    cases names with
    | nil =>
      -- what has a child is a directory, and putting makes one
      cases entry with
      | file known => cases hchild
      | directory below => rfl
    | cons first rest =>
      rw [List.cons_append, descendant?, descendant?, child?_put]
      by_cases hfirst : first = step
      · -- both places are below the same child
        subst hfirst
        rw [if_pos rfl, hchild, Option.getD_some, Option.bind_some, Option.bind_some]
        exact ih hrest fun h => hne (by rw [h]; rfl)
      · rw [if_neg hfirst]

end Entry

namespace Disk

open PackageGraph.Path Text

/-- The second disk is the first one with a text at one place, where there was a file or nothing;
the path leads there. -/
structure Overwrites (disk disk' : Disk) (path text : String) (place : Names) : Prop where
  /-- The file is found by its path. -/
  found : disk'.locate path = .ok (place, .file (.text text))
  /-- No directory gives way to it. -/
  free : ∀ children, disk.root.descendant? place ≠ some (.directory children)
  /-- At every other place there is what there was: the same file, a directory or nothing. -/
  elsewhere : ∀ names, names ≠ place → (disk'.root.descendant? names).map Entry.content? =
    (disk.root.descendant? names).map Entry.content?
  /-- Relative paths start where they did. -/
  here_eq : disk'.here = disk.here

/-! ### Paths on the new disk -/

/-- **A path is followed alike on a disk that has the same directories and more.** -/
theorem follow_mono {root root' : Entry}
    (hdirectories : ∀ names children, root.descendant? names = some (.directory children) →
      ∃ children', root'.descendant? names = some (.directory children'))
    {components : List String} {at' names : Names} (h : follow root at' components = .ok names) :
    follow root' at' components = .ok names := by
  induction components generalizing at' with
  | nil => exact h
  | cons component components ih =>
    rw [follow] at h
    split at h
    · cases h
    · cases h
    · next children hchildren =>
      obtain ⟨children', hchildren'⟩ := hdirectories at' children hchildren
      rw [follow, hchildren']
      dsimp only
      split at h
      · next hstay => rw [if_pos hstay]; exact ih h
        -- an empty component or a dot
      · next hstay =>
        rw [if_neg hstay]
        split at h
        · next hup => rw [if_pos hup]; exact ih h
        · next hup => rw [if_neg hup]; exact ih h

/-! ### The last component -/

/-- A path that is cut at its last component: what is above ends with a slash or is empty, and the
component has no slash. -/
theorem splitLast_eq {path above name : String} (h : splitLast path = (above, name, false)) :
    path = above ++ name ∧ '/' ∉ name.toList ∧
      (above = "" ∨ ∃ directory, above = directory ++ "/") := by
  set isSlash : Char → Bool := fun c => decide (c = '/') with hisSlash
  set backwards := path.toList.reverse with hbackwards
  obtain ⟨habove, hname, hslashed⟩ : _ ∧ _ ∧ backwards.head?.any isSlash = false := by
    simpa only [splitLast, Prod.mk.injEq] using h
  -- no slash is dropped, as the path does not end with one
  have hbody : backwards.dropWhile isSlash = backwards := by
    cases hcases : backwards with
    | nil => rfl
    | cons c rest =>
      rw [hcases, List.head?_cons, Option.any_some] at hslashed
      exact List.dropWhile_cons_of_neg (by simpa using hslashed)
  rw [hbody] at habove hname
  refine ⟨?_, ?_, ?_⟩
  · -- the two parts are the beginning and the end of the path
    rw [← habove, ← hname, ← String.ofList_append, ← List.reverse_append,
      List.takeWhile_append_dropWhile, hbackwards, List.reverse_reverse, String.ofList_toList]
  · -- the component goes back to the last slash, and no further
    rw [← hname, String.toList_ofList, List.mem_reverse]
    intro hmem
    simpa [hisSlash] using List.mem_takeWhile_imp hmem
  · -- what is above it begins there, if there is a slash
    cases hrest : backwards.dropWhile fun c => !isSlash c with
    | nil =>
      rw [hrest] at habove
      exact .inl habove.symm
    | cons c rest =>
      have hslash := List.head?_dropWhile_not (fun c => !isSlash c) backwards
      rw [hrest, List.head?_cons] at hslash
      obtain rfl : c = '/' := by simpa [hisSlash] using hslash
      rw [hrest, List.reverse_cons, String.ofList_append] at habove
      exact .inr ⟨.ofList rest.reverse, habove.symm⟩

theorem components_of_not_mem {name : String} (h : '/' ∉ name.toList) :
    components name = [name] := by
  rw [components, List.splitOn_eq_singleton h, List.map_singleton, String.ofList_toList]

/-- An empty component and `.` stay where they are. -/
theorem eq_of_follow_stay {root : Entry} {at' names : Names} {component : String}
    (hstay : component = "" ∨ component = ".") (h : follow root at' [component] = .ok names) :
    at' = names := by
  rw [follow] at h
  split at h
  · cases h
  · cases h
  · rw [if_pos hstay] at h
    exact Except.ok.inj h

/-- **A path is followed to its last component** if what is above it leads to a directory. -/
theorem follow_splitLast {disk : Disk} {path above name : String} {names : Names}
    {children : List (String × Entry)} (h : splitLast path = (above, name, false))
    (hname : name ≠ "" ∧ name ≠ "." ∧ name ≠ "..")
    (habove : disk.locate (if above.isEmpty then "." else above) =
      .ok (names, .directory children)) :
    follow disk.root (disk.start path) (components path) = .ok (names ++ [name]) := by
  obtain ⟨rfl, hslash, hcut⟩ := splitLast_eq h
  obtain ⟨-, hfollow, hdirectory⟩ := locate_eq_ok.1 habove
  have hlast : follow disk.root names [name] = .ok (names ++ [name]) := by
    rw [follow, hdirectory]
    dsimp only
    rw [if_neg (not_or.2 ⟨hname.1, hname.2.1⟩), if_neg hname.2.2, follow]
  rcases hcut with rfl | ⟨directory, rfl⟩
  · -- the path is a name in the current directory
    have hhere : disk.here = names := eq_of_follow_stay (.inr rfl) hfollow
    have hstart : disk.start ("" ++ name) = disk.here := by
      rw [String.empty_append, start, if_neg]
      exact fun hhead => hslash (List.mem_of_head? hhead)
    rw [hstart, hhere, String.empty_append, components_of_not_mem hslash]
    exact hlast
  · -- the slash behind what is above makes an empty component, which stays there
    have hne : directory ++ "/" ≠ "" := by simp
    rw [if_neg (by simp)] at hfollow
    have hsplit := components_append directory ""
    rw [String.append_empty] at hsplit
    rw [hsplit, follow_append] at hfollow
    obtain ⟨at', hat, hstay⟩ := bind_eq_ok.1 hfollow
    obtain rfl := eq_of_follow_stay (.inl rfl) hstay
    rw [start_append_of_ne hne, components_append, follow_append, hat,
      components_of_not_mem hslash]
    exact hlast

/-! ### Writing -/

/-- A disk that was written to: what is above the last component is a directory, and the component
names a file in it or nothing. -/
theorem eq_of_write {disk disk' : Disk} {path text : String}
    (h : disk.write path text = .ok disk') :
    ∃ above name names children, splitLast path = (above, name, false) ∧
      (name ≠ "" ∧ name ≠ "." ∧ name ≠ "..") ∧
      disk.locate (if above.isEmpty then "." else above) = .ok (names, .directory children) ∧
      (∀ below, (Entry.directory children).child? name ≠ some (.directory below)) ∧
      disk' = { disk with root := disk.root.put (.file (.text text)) (names ++ [name]) } := by
  obtain ⟨above, name, slashed, hsplit⟩ : ∃ above name slashed,
      splitLast path = (above, name, slashed) := ⟨_, _, _, rfl⟩
  rw [write, hsplit] at h
  dsimp only at h
  split at h
  · cases h
  split at h
  · -- no file is named like a way to stay or to go up
    obtain ⟨-, -, h⟩ := bind_eq_ok.1 h
    cases h
  next hname =>
  rw [not_or, not_or] at hname
  obtain ⟨⟨names, directory⟩, hlocate, h⟩ := bind_eq_ok.1 h
  split at h
  · cases h
  next _ _ hnotFile heq =>
  obtain ⟨rfl, rfl⟩ := Prod.mk.inj heq
  cases directory with
  | file content => exact absurd rfl (hnotFile content)
  | directory children =>
    split at h
    · cases h
    · cases h
    · next hchild =>
      exact ⟨above, name, names, children, hsplit, hname, hlocate, hchild,
        (Except.ok.inj h).symm⟩

/-- **Writing overwrites one place.** -/
theorem overwrites_of_write {disk disk' : Disk} {path text : String}
    (h : disk.write path text = .ok disk') : ∃ place, Overwrites disk disk' path text place := by
  obtain ⟨above, name, names, children, hsplit, hname, hlocate, hfree, rfl⟩ := eq_of_write h
  obtain ⟨-, -, habove⟩ := locate_eq_ok.1 hlocate
  have hplace : disk.root.descendant? (names ++ [name]) =
      (Entry.directory children).child? name := by
    rw [Entry.descendant?_append, habove, Option.bind_some, Entry.descendant?_singleton]
  have hfree' : ∀ below, disk.root.descendant? (names ++ [name]) ≠ some (.directory below) := by
    rw [hplace]
    exact hfree
  have helsewhere : ∀ other, other ≠ names ++ [name] →
      ((disk.root.put (.file (.text text)) (names ++ [name])).descendant? other).map
        Entry.content? = (disk.root.descendant? other).map Entry.content? :=
    fun other hother => Entry.descendant?_put_of_ne habove hfree hother
  refine ⟨names ++ [name], ?_, hfree', helsewhere, rfl⟩
  -- no directory is lost, so the path is followed as before
  have hdirectories : ∀ other below, disk.root.descendant? other = some (.directory below) →
      ∃ below', (disk.root.put (.file (.text text)) (names ++ [name])).descendant? other =
        some (.directory below') := by
    intro other below hother
    have hne : other ≠ names ++ [name] := fun h => hfree' below (h ▸ hother)
    have hcontent := helsewhere other hne
    rw [hother, Option.map_some, Option.map_eq_some_iff] at hcontent
    obtain ⟨entry, hentry, hnone⟩ := hcontent
    cases entry with
    | file content => cases hnone
    | directory below' => exact ⟨below', hentry⟩
  have hfollow := follow_mono hdirectories (follow_splitLast hsplit hname hlocate)
  have hpath : path ≠ "" := by
    rintro rfl
    exact hname.1 (Prod.mk.inj (Prod.mk.inj hsplit).2).1.symm
  exact locate_eq_ok.2 ⟨hpath, hfollow, Entry.descendant?_put_self _ _ _⟩

end Disk

end PackageGraph
