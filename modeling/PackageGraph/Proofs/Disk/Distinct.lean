import Mathlib.Data.List.Nodup
import PackageGraph.Disk.Entry

/-!
# Trees with distinct names

A tree holds the children of a directory as a list, in which two of them could share a name. In a
tree without such children (`Entry.Distinct`) looking a name up and going through the list come to
the same child (`Entry.Distinct.mem_iff`). Whether a tree is one of these can be computed.
-/

namespace PackageGraph

namespace Entry

/-- What holds of files, and of a directory if it holds of its children, holds of every entry. -/
theorem childInduction {P : Entry → Prop} (file : ∀ content, P (.file content))
    (directory : ∀ children : List (String × Entry),
      (∀ name child, (name, child) ∈ children → P child) → P (.directory children)) :
    (entry : Entry) → P entry
  | .file content => file content
  | .directory children => directory children fun name child hmem =>
    have := List.sizeOf_lt_of_mem hmem
    childInduction file directory child
termination_by entry => entry
decreasing_by
  simp only [Prod.mk.sizeOf_spec] at this
  simp only [Entry.directory.sizeOf_spec]
  omega

/-! ### Names of children -/

/-- In no directory at or below the entry two children share a name. -/
def Distinct (entry : Entry) : Prop :=
  ∀ names children, entry.descendant? names = some (.directory children) →
    (children.map Prod.fst).Nodup

/-- Children of the entry itself have different names. -/
theorem Distinct.children {children : List (String × Entry)}
    (h : (Entry.directory children).Distinct) : (children.map Prod.fst).Nodup := h [] children rfl

theorem Distinct.child {entry child : Entry} {name : String} (h : entry.Distinct)
    (hchild : entry.child? name = some child) : child.Distinct := by
  intro names children hdescendant
  refine h (name :: names) children ?_
  rw [descendant?, hchild, Option.bind_some, hdescendant]

theorem distinct_file (content : Content) : (Entry.file content).Distinct := by
  intro names children h
  cases names <;> cases h

/-- A child is found under its name if no child before it has the name. -/
theorem child?_eq_some {children : List (String × Entry)} {name : String} {child : Entry} :
    (Entry.directory children).child? name = some child ↔
      ∃ earlier later, children = earlier ++ (name, child) :: later ∧
        name ∉ earlier.map Prod.fst := by
  have hfirst (earlier : List (String × Entry)) :
      (∀ first ∈ earlier, (name != first.1) = true) ↔ name ∉ earlier.map Prod.fst := by
    simp only [bne_iff_ne, List.mem_map, not_exists, not_and, ne_comm, ne_eq]
  simp only [child?, Entry.children, List.lookup_eq_some_iff, hfirst]

/-- A directory with distinct names and children of that kind is one itself. -/
theorem distinct_directory {children : List (String × Entry)}
    (hnames : (children.map Prod.fst).Nodup)
    (h : ∀ name child, (name, child) ∈ children → child.Distinct) :
    (Entry.directory children).Distinct := by
  rintro (_ | ⟨name, names⟩) below hbelow
  · -- without names, the directory itself
    obtain rfl := Entry.directory.inj (Option.some.inj hbelow)
    exact hnames
  · obtain ⟨child, hchild, hrest⟩ := Option.bind_eq_some_iff.1 hbelow
    obtain ⟨earlier, later, rfl, -⟩ := child?_eq_some.1 hchild
    exact h name child List.mem_append_cons_self names below hrest

/-- **A name stands for the child that has it.** -/
theorem Distinct.mem_iff {children : List (String × Entry)} {name : String} {child : Entry}
    (h : (Entry.directory children).Distinct) :
    (name, child) ∈ children ↔ (Entry.directory children).child? name = some child := by
  rw [child?_eq_some]
  constructor
  · intro hmem
    obtain ⟨earlier, later, rfl⟩ := List.mem_iff_append.1 hmem
    have hnodup := h.children
    -- a child that shares its name with an earlier one would stand twice in the names
    rw [List.map_append, List.map_cons, List.nodup_middle, List.nodup_cons,
      List.mem_append] at hnodup
    exact ⟨earlier, later, rfl, fun hearlier => hnodup.1 (.inl hearlier)⟩
  · rintro ⟨earlier, later, rfl, -⟩
    exact List.mem_append_cons_self

mutual

/-- Has every directory at or below the entry different names for its children? -/
def isDistinct : Entry → Bool
  | .file _ => true
  | .directory children => decide (children.map Prod.fst).Nodup && areDistinct children

/-- Has every directory at or below some children different names for its own? -/
def areDistinct : List (String × Entry) → Bool
  | [] => true
  | (_, entry) :: rest => isDistinct entry && areDistinct rest

end

/-- The names below some children are distinct if they are in each of them. -/
theorem areDistinct_iff {children : List (String × Entry)} :
    areDistinct children = true ↔
      ∀ name child, (name, child) ∈ children → child.isDistinct = true := by
  induction children with
  | nil => simp [areDistinct]
  | cons first rest ih =>
    obtain ⟨name, child⟩ := first
    rw [areDistinct, Bool.and_eq_true, ih]
    simp only [List.mem_cons, Prod.mk.injEq]
    constructor
    · rintro ⟨hfirst, hrest⟩ name' child' (⟨-, rfl⟩ | hmem)
      · exact hfirst
      · exact hrest name' child' hmem
    · exact fun h => ⟨h name child (.inl ⟨rfl, rfl⟩), fun name' child' hmem =>
        h name' child' (.inr hmem)⟩

theorem isDistinct_iff {entry : Entry} : entry.isDistinct = true ↔ entry.Distinct := by
  induction entry using childInduction with
  | file content => exact iff_of_true (by rw [isDistinct]) (distinct_file content)
  | directory children ih =>
    rw [isDistinct, Bool.and_eq_true, decide_eq_true_iff, areDistinct_iff]
    constructor
    · rintro ⟨hnames, hchildren⟩
      exact distinct_directory hnames fun name child hmem =>
        (ih name child hmem).1 (hchildren name child hmem)
    · -- the computation goes through the list of children, `Distinct` looks them up by name
      exact fun h => ⟨h.children, fun name child hmem =>
        (ih name child hmem).2 (h.child (h.mem_iff.1 hmem))⟩

instance (entry : Entry) : Decidable entry.Distinct := decidable_of_iff _ isDistinct_iff

end Entry

end PackageGraph
