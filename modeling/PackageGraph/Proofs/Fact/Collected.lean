import Mathlib.Data.List.Nodup
import PackageGraph.Fact
import PackageGraph.Proofs.Sorted.Gather

/-!
# Collected facts

A set of facts holds, on each directory, what the facts on this directory have been merged into, in
the order in which they were collected (`FactSet.get?_ofList`). If no two of them are on the same
directory, nothing is merged, and the set holds the facts themselves
(`FactSet.toList_ofList_perm`).
-/

namespace PackageGraph

open Sorted

namespace FactSet

/-! ### Facts and their directories -/

/-- The directories of the facts are the keys that they stand under. -/
theorem map_directory_toList (facts : FactSet) :
    facts.toList.map Fact.directory = facts.byDirectory.keys :=
  Map.map_values_eq_keys facts.keyed

/-- No two facts of a set are on one directory. -/
theorem directories_nodup (facts : FactSet) : (facts.toList.map Fact.directory).Nodup := by
  rw [map_directory_toList]
  exact Map.keys_nodup _

/-- A set lists the facts that it has on their directories. -/
theorem mem_toList {facts : FactSet} {fact : Fact} :
    fact ∈ facts.toList ↔ facts.get? fact.directory = some fact := by
  rw [toList, Map.mem_values, get?]
  constructor
  · rintro ⟨directory, h⟩
    rw [facts.keyed h]
    exact h
  · exact fun h => ⟨_, h⟩

/-! ### Collecting -/

/-- To insert facts one after another is to change the entries of their directories. -/
private theorem byDirectory_foldl_insert (facts : List Fact) (known : FactSet) :
    (facts.foldl insert known).byDirectory =
      facts.foldl (fun collected fact => collected.upsert fact.directory fun
        | none => fact
        | some other => other.merge fact) known.byDirectory := by
  induction facts generalizing known with
  | nil => rfl
  | cons fact facts ih =>
    rw [List.foldl_cons, ih, List.foldl_cons]
    rfl

/-- **What is collected on a directory**: the facts on it, merged from first to last. -/
theorem get?_ofList (facts : List Fact) (directory : String) :
    (ofList facts).get? directory =
      (facts.filter fun fact => fact.directory = directory).foldl
        (fun known fact => some (known.elim fact fun other => other.merge fact)) none := by
  rw [get?, ofList, byDirectory_foldl_insert, Map.get?_foldl_upsert]
  refine List.foldl_ext _ _ _ fun known fact _ => ?_
  cases known <;> rfl

/-! ### Different directories -/

/-- Of facts on different directories there is one on a directory at most. -/
theorem filter_directory_of_nodup {facts : List Fact} (hnodup : (facts.map Fact.directory).Nodup)
    (directory : String) :
    (facts.filter fun fact => fact.directory = directory) =
      (facts.find? fun fact => fact.directory = directory).toList := by
  induction facts with
  | nil => rfl
  | cons fact facts ih =>
    obtain ⟨hnew, hrest⟩ := List.nodup_cons.1 hnodup
    by_cases h : fact.directory = directory
    · subst h
      -- another fact on the directory would repeat it
      have hnone : (facts.filter fun other => other.directory = fact.directory) = [] := by
        rw [List.filter_eq_nil_iff]
        intro other hother hsame
        exact hnew (List.mem_map.2 ⟨other, hother, by simpa using hsame⟩)
      rw [List.filter_cons_of_pos (by simp), List.find?_cons_of_pos (by simp), hnone]
      rfl
    · rw [List.filter_cons_of_neg (by simpa using h), List.find?_cons_of_neg (by simpa using h),
        ih hrest]

/-- **Facts on different directories are collected as they are.** -/
theorem toList_ofList_perm {facts : List Fact} (hnodup : (facts.map Fact.directory).Nodup) :
    (ofList facts).toList.Perm facts := by
  rw [List.perm_ext_iff_of_nodup (List.Nodup.of_map _ (directories_nodup _))
    (List.Nodup.of_map _ hnodup)]
  intro fact
  -- neither list repeats a fact, and each is found by its own directory
  have hmem : fact ∈ facts ↔
      fact ∈ facts.filter fun other => other.directory = fact.directory := by simp
  rw [hmem, mem_toList, get?_ofList, filter_directory_of_nodup hnodup, Option.mem_toList]
  cases facts.find? fun other => other.directory = fact.directory with
  | none => simp
  | some found => simp

end FactSet

end PackageGraph
