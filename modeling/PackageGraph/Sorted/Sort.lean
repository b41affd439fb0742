import PackageGraph.Sorted.Key

/-!
# Sorting

Lists of keys in increasing order. Keys that occur more than once stay.
-/

namespace PackageGraph.Sorted

open Key

variable {κ : Type} [Key κ]

/-- Put a key into a sorted list. -/
def insertKey (k : κ) : List κ → List κ
  | [] => [k]
  | k' :: rest => if before k' k then k' :: insertKey k rest else k :: k' :: rest

/-- The keys of a list, least first. -/
def sort : List κ → List κ
  | [] => []
  | k :: rest => insertKey k (sort rest)

/-- Nothing is lost by putting a key into a list. -/
theorem insertKey_perm (k : κ) (keys : List κ) : (insertKey k keys).Perm (k :: keys) := by
  induction keys with
  | nil => exact .refl _
  | cons k' rest ih =>
    rw [insertKey]
    split
    · exact (ih.cons k').trans (.swap k k' rest)
    · exact .refl _

/-- **Sorting loses and adds nothing.** -/
theorem sort_perm (keys : List κ) : (sort keys).Perm keys := by
  induction keys with
  | nil => exact .refl _
  | cons k rest ih => exact (insertKey_perm k _).trans (ih.cons k)

theorem mem_sort {k : κ} {keys : List κ} : k ∈ sort keys ↔ k ∈ keys := (sort_perm keys).mem_iff

/-- Put into a sorted list, a key leaves it sorted. -/
theorem insertKey_sorted (k : κ) {keys : List κ}
    (h : keys.Pairwise fun a b => before b a = false) :
    (insertKey k keys).Pairwise fun a b => before b a = false := by
  induction keys with
  | nil => exact List.pairwise_singleton _ _
  | cons k' rest ih =>
    obtain ⟨hleast, hrest⟩ := List.pairwise_cons.1 h
    rw [insertKey]
    split
    · next hk =>
      -- the key goes behind the first one
      refine List.pairwise_cons.2 ⟨fun a ha => ?_, ih hrest⟩
      rcases List.mem_cons.1 ((insertKey_perm k rest).mem_iff.1 ha) with rfl | ha
      · exact before_asymm hk
      · exact hleast a ha
    · next hk =>
      -- the key is the first one now
      have hk : before k' k = false := Bool.eq_false_iff.2 hk
      refine List.pairwise_cons.2 ⟨fun a ha => ?_, h⟩
      rcases List.mem_cons.1 ha with rfl | ha
      · exact hk
      · -- what comes before `k` would come before `k'` or `k'` before `k`
        cases hak : before a k with
        | false => rfl
        | true =>
          cases hkk : before k k' with
          | true => rw [← hleast a ha, before_trans hak hkk]
          | false => rw [← before_connected hk hkk, hleast a ha] at hak; exact hak.symm

/-- **No key stands behind one that it comes before.** -/
theorem sort_sorted (keys : List κ) : (sort keys).Pairwise fun a b => before b a = false := by
  induction keys with
  | nil => exact .nil
  | cons k rest ih => exact insertKey_sorted k ih

/-- **Different keys stand in strictly increasing order.** -/
theorem sort_strictly_sorted {keys : List κ} (h : keys.Nodup) :
    (sort keys).Pairwise fun a b => before a b = true := by
  have hnodup : (sort keys).Nodup := (sort_perm keys).nodup_iff.2 h
  refine ((sort_sorted keys).and hnodup).imp fun {a b} hab => ?_
  cases hbefore : before a b with
  | true => rfl
  | false => exact absurd (before_connected hbefore hab.1) hab.2

/-- **The order in which keys come makes no difference.** -/
theorem sort_eq_of_perm {keys keys' : List κ} (h : keys.Perm keys') : sort keys = sort keys' :=
  List.Perm.eq_of_pairwise (fun _ _ _ _ hab hba => before_connected hba hab) (sort_sorted keys)
    (sort_sorted keys') ((sort_perm keys).trans (h.trans (sort_perm keys').symm))

/-! ### Lists in strictly increasing order -/

/-- In strictly increasing order, what is found first is the least of what could be found. -/
theorem find?_eq_some_iff_least {keys : List κ}
    (hsorted : keys.Pairwise fun a b => before a b = true) {p : κ → Bool} {k : κ} :
    keys.find? p = some k ↔
      k ∈ keys ∧ p k = true ∧ ∀ other ∈ keys, p other = true → before other k = false := by
  rw [List.find?_eq_some_iff_append]
  constructor
  · -- nothing in front of `k` could be found, and what is behind it is greater
    rintro ⟨hk, earlier, later, rfl, hearlier⟩
    refine ⟨List.mem_append_cons_self, hk, fun other hother hp => ?_⟩
    rcases List.mem_append.1 hother with hother | hother
    · exact absurd hp (by simpa using hearlier other hother)
    · rcases List.mem_cons.1 hother with rfl | hother
      · exact before_irrefl other
      · exact before_asymm
          ((List.pairwise_cons.1 (List.pairwise_append.1 hsorted).2.1).1 other hother)
  · -- what could be found in front of `k` would be less
    rintro ⟨hmem, hk, hleast⟩
    obtain ⟨earlier, later, rfl⟩ := List.append_of_mem hmem
    refine ⟨hk, earlier, later, rfl, fun other hother => ?_⟩
    have hbefore := (List.pairwise_append.1 hsorted).2.2 other hother k List.mem_cons_self
    cases hp : p other with
    | false => rfl
    | true =>
      rw [hleast other (List.mem_append_left _ hother) hp] at hbefore
      cases hbefore

end PackageGraph.Sorted
