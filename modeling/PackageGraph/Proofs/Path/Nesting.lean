import PackageGraph.Proofs.Path.Normal
import PackageGraph.Sorted.Key

/-!
# Nested directories

Being at or below a directory is an order on paths: it is the order of their parts by prefix. The
directories above one path are above one another (`Path.isUnder_or_isUnder`), and the parts of a
directory are the segments of its text unless it is the root. In the order of texts, a directory comes
before all that is below it (`Path.isUnder_of_before`). The main statement is `Path.isUnder_order`,
with what it means for a path to lie in a module.
-/

namespace PackageGraph.Path

open Sorted

variable {path directory other : String}

theorem isUnder_trans (h : isUnder path directory = true) (h' : isUnder directory other = true) :
    isUnder path other = true := by
  rw [isUnder_iff_parts] at h h' ⊢
  exact h'.trans h

theorem isUnder_antisymm (h : isUnder path other = true) (h' : isUnder other path = true) :
    path = other := by
  rw [isUnder_iff_parts] at h h'
  -- two lists that are prefixes of each other have one length
  have hparts : parts path = parts other :=
    h'.eq_of_length (Nat.le_antisymm h'.length_le h.length_le)
  rw [← String.toList_inj, ← join_parts, ← join_parts, hparts]

/-- **Two directories above one path nest.** -/
theorem isUnder_or_isUnder (h : isUnder path directory = true) (h' : isUnder path other = true) :
    isUnder other directory = true ∨ isUnder directory other = true := by
  simp only [isUnder_iff_parts] at h h' ⊢
  exact List.prefix_or_prefix_of_prefix h h'

/-- What comes before a directory is not below it: the directory is a beginning of every path below
it, and comes before all of them. -/
theorem isUnder_of_before {path directory : String} (hne : directory ≠ "")
    (h : Key.before path directory = true) : isUnder path directory = false := by
  by_contra hunder
  rw [Bool.not_eq_false, isUnder_iff hne] at hunder
  rcases hunder with rfl | ⟨rest, rfl⟩
  · exact Key.before_ne h rfl
  · have hbegins : Key.before directory (directory ++ "/" ++ rest) = true := by
      change dictionary directory.toList (directory ++ "/" ++ rest).toList = true
      have happend := dictionary_append_left directory.toList [] ("/" ++ rest).toList
      rw [List.append_nil] at happend
      rw [String.append_assoc, String.toList_append, happend, String.toList_append]
      rfl
    rw [Key.before_asymm hbegins] at h
    cases h

/-- **Nesting is the prefix order of segments.** A path is at or below a directory other than the
root exactly if its segments begin with those of the directory. For all paths, the root included,
this is reflexive, antisymmetric and transitive, and of two directories above one path one is above
the other. In the same way, an import path stands for a directory exactly if it is the root of the
module, and the directory is the empty path, or if a slash and the directory follow the root. -/
theorem isUnder_order :
    (∀ path directory, directory ≠ "" →
      (isUnder path directory = true ↔
        segments directory.toList <+: segments path.toList)) ∧
    (∀ path, isUnder path path = true) ∧
    (∀ path other, isUnder path other = true → isUnder other path = true → path = other) ∧
    (∀ path directory other, isUnder path directory = true → isUnder directory other = true →
      isUnder path other = true) ∧
    (∀ path directory other, isUnder path directory = true → isUnder path other = true →
      isUnder other directory = true ∨ isUnder directory other = true) ∧
    ∀ moduleRoot path directory, relativeTo? moduleRoot path = some directory ↔
      path = moduleRoot ∧ directory = "" ∨ path = moduleRoot ++ "/" ++ directory :=
  ⟨fun _ _ hdirectory => isUnder_iff_segments hdirectory,
    isUnder_self,
    fun _ _ => isUnder_antisymm,
    fun _ _ _ => isUnder_trans,
    fun _ _ _ => isUnder_or_isUnder,
    fun _ _ _ => relativeTo?_eq_some⟩

/-- Slashes that repeat or stand at the end make segments of their own. -/
theorem isUnder_order_slashes :
    segments "a/".toList <+: segments "a//b/".toList ∧ isUnder "a//b/" "a" = true ∧
      (isUnder "a" "a/" = true ∨ isUnder "a/" "a" = true) ∧ isUnder "a" "a/" ≠ true ∧
      relativeTo? "m" "m/" = some "" := by
  obtain ⟨hsegments, -, hantisymm, htrans, hnest, hrelative⟩ := isUnder_order
  refine ⟨?_, ?_, ?_, fun habove => ?_, ?_⟩
  · exact (hsegments "a//b/" "a/" (by decide)).1 (by decide)
  · exact htrans "a//b/" "a/" "a" (by decide) (by decide)
  · exact hnest "a//b/" "a/" "a" (by decide) (by decide)
  · exact absurd (hantisymm "a" "a/" habove (by decide)) (by decide)
  · exact (hrelative "m" "m/" "").2 (.inr rfl)

end PackageGraph.Path
