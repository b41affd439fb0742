import PackageGraph.Proofs.Disk.Distinct
import PackageGraph.Proofs.Disk.Lookup

/-!
# Joined paths

A path that continues another one by names is followed in two parts (`Disk.follow_joinPath`). On a
disk whose names are ones that a path can spell (`Disk.Regular`), the path of a descendant leads to
it (`Disk.locate_joinPath_names`).

Whether the first path ends with a slash makes no difference: the empty component that the slash
makes needs a directory to stand in, and so does the component behind it.
-/

namespace PackageGraph

/-- A name that a path can spell: it is no way to stay or to go up, and has no slash. -/
structure IsName (name : String) : Prop where
  ne_empty : name ≠ ""
  ne_dot : name ≠ "."
  ne_up : name ≠ ".."
  slash : '/' ∉ name.toList

instance (name : String) : Decidable (IsName name) :=
  decidable_of_iff (name ≠ "" ∧ name ≠ "." ∧ name ≠ ".." ∧ '/' ∉ name.toList)
    ⟨fun ⟨h, h', h'', h'''⟩ => ⟨h, h', h'', h'''⟩, fun ⟨h, h', h'', h'''⟩ => ⟨h, h', h'', h'''⟩⟩

namespace Entry

mutual

/-- Can a path spell every name at or below the entry? -/
def isNamed : Entry → Bool
  | .file _ => true
  | .directory children => areNamed children

/-- Can a path spell the names of some children and every name below them? -/
def areNamed : List (String × Entry) → Bool
  | [] => true
  | (name, entry) :: rest => decide (IsName name) && isNamed entry && areNamed rest

end

/-- Each of some children that can be spelled can be spelled. -/
theorem of_mem_areNamed {children : List (String × Entry)} (h : areNamed children = true)
    {name : String} {child : Entry} (hmem : (name, child) ∈ children) :
    IsName name ∧ child.isNamed = true := by
  induction children with
  | nil => cases hmem
  | cons first rest ih =>
    obtain ⟨name', child'⟩ := first
    rw [areNamed, Bool.and_eq_true, Bool.and_eq_true, decide_eq_true_iff] at h
    rcases List.mem_cons.1 hmem with hfirst | hmem
    · obtain ⟨rfl, rfl⟩ := Prod.mk.inj hfirst
      exact h.1
    · exact ih h.2 hmem

/-- The names on the way to a descendant are among those at or below the entry. -/
theorem isName_of_mem {entry : Entry} (h : entry.isNamed = true) {names : Names}
    {descendant : Entry} (hdescendant : entry.descendant? names = some descendant) :
    ∀ name ∈ names, IsName name := by
  induction names generalizing entry with
  | nil => exact nofun
  | cons name names ih =>
    obtain ⟨child, hchild, hrest⟩ := Option.bind_eq_some_iff.1 hdescendant
    cases entry with
    | file content => cases hchild
    | directory children =>
      obtain ⟨earlier, later, rfl, -⟩ := child?_eq_some.1 hchild
      rw [isNamed] at h
      obtain ⟨hname, hbelow⟩ := of_mem_areNamed h List.mem_append_cons_self
      exact List.forall_mem_cons.2 ⟨hname, ih hbelow hrest⟩

end Entry

namespace Disk

open PackageGraph.Path Text

/-- A disk as systems keep them: no two children of a directory share a name, and a path can spell
every name. -/
structure Regular (disk : Disk) : Prop where
  /-- No two children of a directory share a name. -/
  distinct : disk.root.Distinct
  /-- Every name on the way to an entry can be spelled. -/
  names : ∀ names entry, disk.root.descendant? names = some entry → ∀ name ∈ names, IsName name

/-- A disk whose names can be spelled is regular if they are distinct. -/
theorem regular_of_isNamed {disk : Disk} (hdistinct : disk.root.Distinct)
    (hnamed : disk.root.isNamed = true) : disk.Regular :=
  ⟨hdistinct, fun _ _ h => Entry.isName_of_mem hnamed h⟩

/-! ### Components -/

/-- A path that begins with a name, not with a slash. -/
def IsRelative (path : String) : Prop :=
  ∃ name more, components path = name :: more ∧ name ≠ ""

/-- The components of joined names are the names. -/
theorem components_joinWith {names : Names} (hne : names ≠ [])
    (hnames : ∀ name ∈ names, IsName name) : components (joinWith "/" names) = names := by
  have hslash : ∀ part ∈ names.map String.toList, '/' ∉ part := by
    intro part hpart
    obtain ⟨name, hname, rfl⟩ := List.mem_map.1 hpart
    exact (hnames name hname).slash
  rw [components, toList_joinWith, List.splitOn_intercalate '/' hslash (by simpa using hne),
    List.map_map]
  simp [Function.comp_def]

theorem isRelative_joinWith {names : Names} (hne : names ≠ [])
    (hnames : ∀ name ∈ names, IsName name) : IsRelative (joinWith "/" names) := by
  obtain ⟨name, more, rfl⟩ := List.exists_cons_of_ne_nil hne
  exact ⟨name, more, components_joinWith hne hnames, (hnames name (.head _)).ne_empty⟩

theorem IsRelative.head?_ne {path : String} (h : IsRelative path) :
    path.toList.head? ≠ some '/' := by
  obtain ⟨name, more, hcomponents, hname⟩ := h
  intro hhead
  obtain ⟨cs, hcons⟩ := List.head?_eq_some_iff.1 hhead
  rw [components, hcons, List.splitOn_cons_eq_if_modifyHead, if_pos (by decide), List.map_cons]
    at hcomponents
  exact hname (List.cons.inj hcomponents).1.symm

theorem IsRelative.ne_empty {path : String} (h : IsRelative path) : path ≠ "" := by
  rintro rfl
  obtain ⟨name, more, hcomponents, hname⟩ := h
  exact hname (List.cons.inj hcomponents).1.symm

/-! ### Following joined paths -/

/-- Where a path starts is decided by its first character. -/
theorem start_append_of_ne {disk : Disk} {above : String} (h : above ≠ "") (rest : String) :
    disk.start (above ++ rest) = disk.start above := by
  obtain ⟨c, cs, hcons⟩ := List.exists_cons_of_ne_nil (mt String.toList_eq_nil_iff.1 h)
  rw [start, start, String.toList_append, hcons]
  rfl

/-- An empty component asks for a directory, as the component behind it does. -/
theorem follow_empty_cons {root : Entry} {at' : Names} {rest : List String} (h : rest ≠ []) :
    follow root at' ("" :: rest) = follow root at' rest := by
  obtain ⟨component, more, rfl⟩ := List.exists_cons_of_ne_nil h
  rw [follow]
  cases hentry : root.descendant? at' with
  | none => rw [follow, hentry]
  | some entry =>
    cases entry with
    | file content => rw [follow, hentry]
    | directory children => rw [if_pos (.inl rfl)]

/-- How a relative path continues another one. -/
theorem joinPath_of_isRelative {base rest : String} (hbase : base ≠ "") (hrest : IsRelative rest) :
    (∃ directory, base = directory ++ "/" ∧ joinPath base rest = directory ++ "/" ++ rest) ∨
      joinPath base rest = base ++ "/" ++ rest := by
  rw [joinPath, if_neg]
  · -- the first part may end with a slash
    split
    · next hlast =>
      obtain ⟨cs, hcs⟩ := List.getLast?_eq_some_iff.1 hlast
      have hbase : base = .ofList cs ++ "/" := String.toList_inj.1 (by simpa using hcs)
      exact .inl ⟨.ofList cs, hbase, by rw [← hbase]⟩
    · exact .inr rfl
  · simp [hrest.head?_ne, hbase]

/-- A joined path starts where its first part does. -/
theorem start_joinPath {disk : Disk} {base rest : String} (hbase : base ≠ "")
    (hrest : IsRelative rest) : disk.start (joinPath base rest) = disk.start base := by
  rcases joinPath_of_isRelative hbase hrest with ⟨directory, rfl, h⟩ | h
  · rw [h, start_append_of_ne hbase]
  · rw [h, start_append hbase]

/-- **A joined path is followed in two parts.** -/
theorem follow_joinPath {root : Entry} {base rest : String} (hbase : base ≠ "")
    (hrest : IsRelative rest) (at' : Names) :
    follow root at' (components (joinPath base rest)) =
      (follow root at' (components base)).bind (follow root · (components rest)) := by
  rcases joinPath_of_isRelative hbase hrest with ⟨directory, rfl, h⟩ | h
  · -- the first part has one component more, behind its slash
    have hslash := components_append directory ""
    rw [String.append_empty] at hslash
    have hempty : components "" = [""] := rfl
    rw [h, ← follow_append, components_append, hslash, hempty, List.append_assoc,
      List.singleton_append, follow_append, follow_append]
    congr 1
    funext names
    rw [follow_empty_cons (components_ne_nil rest)]
  · -- a slash is put between the parts
    rw [h, components_append, follow_append]

/-- Names are followed from one directory to the next. -/
theorem follow_names {root : Entry} {at' names : Names} {entry : Entry}
    (hnames : ∀ name ∈ names, IsName name) (h : root.descendant? (at' ++ names) = some entry) :
    follow root at' names = .ok (at' ++ names) := by
  induction names generalizing at' with
  | nil => rw [follow, List.append_nil]
  | cons name names ih =>
    obtain ⟨hname, hrest⟩ := List.forall_mem_cons.1 hnames
    rw [Entry.descendant?_append] at h
    obtain ⟨above, habove, hbelow⟩ := Option.bind_eq_some_iff.1 h
    cases above with
    | file content => cases hbelow
    | directory children =>
      -- a name neither stays nor goes up, so it goes down
      rw [follow, habove]
      dsimp only
      rw [if_neg (not_or.2 ⟨hname.ne_empty, hname.ne_dot⟩), if_neg hname.ne_up, ih hrest,
        List.append_assoc]
      · rfl
      · rw [List.append_assoc, Entry.descendant?_append, habove]
        exact hbelow

/-- **The path of a descendant leads to it.** -/
theorem locate_joinPath_names {disk : Disk} (hregular : disk.Regular) {base : String}
    {here names : Names} {children : List (String × Entry)} {entry : Entry}
    (hbase : disk.locate base = .ok (here, .directory children)) (hne : names ≠ [])
    (h : disk.root.descendant? (here ++ names) = some entry) :
    disk.locate (joinPath base (joinWith "/" names)) = .ok (here ++ names, entry) := by
  obtain ⟨hempty, hfollow, -⟩ := locate_eq_ok.1 hbase
  have hnames : ∀ name ∈ names, IsName name := fun name hname =>
    hregular.names _ _ h name (List.mem_append_right _ hname)
  have hrelative := isRelative_joinWith hne hnames
  refine locate_eq_ok.2 ⟨joinPath_ne_empty hrelative.ne_empty, ?_, h⟩
  rw [start_joinPath hempty hrelative, follow_joinPath hempty hrelative, hfollow,
    components_joinWith hne hnames]
  exact follow_names hnames h

/-- Names lead down from where they are written. -/
theorem isPlain_joinWith {names : Names} (hne : names ≠ []) (hnames : ∀ name ∈ names, IsName name) :
    IsPlain (joinWith "/" names) := by
  intro segment hsegment
  have hmem : String.ofList segment ∈ components (joinWith "/" names) :=
    List.mem_map_of_mem hsegment
  rw [components_joinWith hne hnames] at hmem
  have hname := hnames _ hmem
  refine ⟨?_, ?_⟩
  · -- a name is neither empty nor a dot
    have hempty : segment ≠ [] := by
      rintro rfl
      exact hname.ne_empty rfl
    have hdot : segment ≠ ['.'] := by
      rintro rfl
      exact hname.ne_dot rfl
    simp [isStep, hempty, hdot]
  · -- nor is it two dots
    rintro rfl
    exact hname.ne_up rfl

/-- **Names behind a path lead to a descendant** of what is there. -/
theorem locate_append_names {disk : Disk} {path : String} {here names : Names} {top entry : Entry}
    (hpath : disk.locate path = .ok (here, top)) (hne : names ≠ [])
    (hnames : ∀ name ∈ names, IsName name)
    (h : disk.root.descendant? (here ++ names) = some entry) :
    disk.locate (path ++ "/" ++ joinWith "/" names) = .ok (here ++ names, entry) := by
  obtain ⟨hempty, hfollow, -⟩ := locate_eq_ok.1 hpath
  refine locate_eq_ok.2 ⟨by simp, ?_, h⟩
  rw [start_append hempty, components_append, follow_append, hfollow,
    components_joinWith hne hnames]
  exact follow_names hnames h

/-- What is located behind a path is in the directory there. -/
theorem exists_directory_of_locate_joinPath {disk : Disk} {base rest : String}
    {found : Names × Entry} (hbase : base ≠ "") (hrest : IsRelative rest)
    (h : disk.locate (joinPath base rest) = .ok found) :
    ∃ here children, disk.locate base = .ok (here, .directory children) := by
  obtain ⟨-, hfollow, -⟩ := locate_eq_ok.1 h
  rw [start_joinPath hbase hrest, follow_joinPath hbase hrest] at hfollow
  obtain ⟨here, hhere, hbehind⟩ := bind_eq_ok.1 hfollow
  obtain ⟨name, more, hcons⟩ := List.exists_cons_of_ne_nil (components_ne_nil rest)
  rw [hcons, follow] at hbehind
  split at hbehind
  · cases hbehind
  · cases hbehind
  · next children hchildren => exact ⟨here, children, locate_eq_ok.2 ⟨hbase, hhere, hchildren⟩⟩

end Disk

end PackageGraph
