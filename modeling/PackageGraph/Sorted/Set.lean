import PackageGraph.Sorted.Map

/-!
# Sorted sets

A finite set, kept in strictly increasing order: a sorted map that stores nothing beside its keys.
-/

namespace PackageGraph.Sorted

/-- A finite set in increasing order. -/
structure Set (κ : Type) [Key κ] where
  /-- The set as a map from its members. -/
  toMap : Map κ Unit

namespace Set

variable {κ : Type} [Key κ]

instance [DecidableEq κ] : DecidableEq (Set κ) := fun s t =>
  if h : s.toMap = t.toMap then .isTrue (by cases s; cases t; simp only at h; subst h; rfl)
  else .isFalse fun e => h (e ▸ rfl)

/-- The set without members. -/
def empty : Set κ := ⟨.empty⟩

instance : Inhabited (Set κ) := ⟨empty⟩

instance : EmptyCollection (Set κ) := ⟨empty⟩

/-- Is `a` a member? -/
def contains (s : Set κ) (a : κ) : Bool := s.toMap.contains a

/-- Add a member. -/
def insert (s : Set κ) (a : κ) : Set κ := ⟨s.toMap.insert a ()⟩

/-- The members, least first. -/
def toList (s : Set κ) : List κ := s.toMap.keys

/-- The number of members. -/
def size (s : Set κ) : Nat := s.toList.length

/-- Is there no member? -/
def isEmpty (s : Set κ) : Bool := s.toList.isEmpty

/-- Add every element of a list. -/
def insertAll (s : Set κ) (l : List κ) : Set κ := l.foldl insert s

/-- The set of a list's elements. -/
def ofList (l : List κ) : Set κ := (empty : Set κ).insertAll l

/-- The members are what is listed. -/
theorem contains_iff_mem_toList {s : Set κ} {a : κ} : s.contains a = true ↔ a ∈ s.toList := by
  simp [contains, toList, Map.contains_iff, Map.keys]

theorem size_pos_iff {s : Set κ} : 0 < s.size ↔ ∃ a, s.contains a = true := by
  rw [size, List.length_pos_iff_exists_mem]
  exact exists_congr fun _ => contains_iff_mem_toList.symm

theorem isEmpty_iff {s : Set κ} : s.isEmpty = true ↔ s.size = 0 := by
  rw [isEmpty, List.isEmpty_iff, size, List.length_eq_zero_iff]

@[simp] theorem contains_empty (a : κ) : (empty : Set κ).contains a = false := rfl

theorem contains_insert {s : Set κ} {a b : κ} :
    (s.insert a).contains b = true ↔ b = a ∨ s.contains b = true := by
  classical
  by_cases h : b = a
  · subst h; simp [contains, insert, Map.contains]
  · simp [contains, insert, Map.contains, Map.get?_insert_of_ne _ _ h, h]

theorem contains_insertAll {s : Set κ} {l : List κ} {b : κ} :
    (s.insertAll l).contains b = true ↔ b ∈ l ∨ s.contains b = true := by
  induction l generalizing s with
  | nil => simp [insertAll]
  | cons a l ih =>
    rw [insertAll, List.foldl_cons, ← insertAll, ih, contains_insert, List.mem_cons]
    exact or_left_comm.trans or_assoc.symm

/-- The set of a list has the elements of the list. -/
theorem contains_ofList {l : List κ} {b : κ} : (ofList l).contains b = true ↔ b ∈ l := by
  simp [ofList, contains_insertAll]

/-- **Sets are determined by their members.** -/
theorem ext {s t : Set κ} (h : ∀ a, s.contains a = true ↔ t.contains a = true) : s = t := by
  obtain ⟨m⟩ := s
  obtain ⟨n⟩ := t
  congr 1
  refine Map.ext fun k => ?_
  have := h k
  simp only [contains, Map.contains] at this
  cases hm : m.get? k <;> cases hn : n.get? k <;> simp_all

theorem toList_sorted (s : Set κ) : s.toList.Pairwise fun a b => Key.before a b = true :=
  s.toMap.keys_sorted

/-- A list in increasing order is the list of its set. -/
theorem toList_ofList {l : List κ} (h : l.Pairwise fun a b => Key.before a b = true) :
    (ofList l).toList = l := by
  -- both are in order and have the same elements
  refine eq_of_mem_iff (toList_sorted _) h fun a => ?_
  rw [← contains_iff_mem_toList, contains_ofList]

end Set

/-- **Maps of sets are determined by their keys and the members under each key.** -/
theorem Map.ext_members {κ α : Type} [Key κ] [Key α] {m n : Map κ (Set α)}
    (hkeys : ∀ k, m.contains k = true ↔ n.contains k = true)
    (hmembers : ∀ k a, (∃ s, m.get? k = some s ∧ s.contains a = true) ↔
      ∃ s, n.get? k = some s ∧ s.contains a = true) : m = n := by
  refine Map.ext fun k => ?_
  have hkey := hkeys k
  have hmember := hmembers k
  rw [Map.contains, Map.contains] at hkey
  cases hm : m.get? k with
  | none =>
    cases hn : n.get? k with
    | none => rfl
    -- there is a set in both maps, with the same members
    | some t => simp [hm, hn] at hkey
  | some s =>
    cases hn : n.get? k with
    | none => simp [hm, hn] at hkey
    | some t =>
      simp only [hm, hn, Option.some.injEq, exists_eq_left'] at hmember
      rw [Set.ext hmember]

end PackageGraph.Sorted
