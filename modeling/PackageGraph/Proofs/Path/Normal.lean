import PackageGraph.Proofs.Path.Qualify
import PackageGraph.Proofs.Path.Segments
import PackageGraph.Proofs.Text.Split

/-!
# The parts of a directory

A directory is as deep as it has parts (`depth_qualify`): an identifier has one slash more than its
module's root for each part of its directory. The root is the one directory whose parts are not the
segments of its text, as the empty text has one segment, which is empty. So a path is at or below a
directory, be it the root, if its parts begin with those of the directory (`isUnder_iff_parts`).

No part of a canonical spelling is empty or `.`, because such segments are left out of it
(`parts_normalize`). A spelling that has no such parts, no blanks around it and no other slashes is
canonical (`normalize_eq_self`).
-/

namespace PackageGraph.Path

open Text

/-- The segments of a directory. The root has none. -/
def parts (directory : String) : List (List Char) :=
  if directory.isEmpty then [] else segments directory.toList

@[simp] theorem parts_root : parts "" = [] := rfl

/-- The parts of a directory other than the root are its segments. -/
theorem parts_of_ne {directory : String} (h : directory ≠ "") :
    parts directory = segments directory.toList := by
  unfold parts
  rw [if_neg (by simpa using h)]

/-- Joining the parts of a directory gives it back. -/
@[simp] theorem join_parts (directory : String) : join (parts directory) = directory.toList := by
  by_cases h : directory = ""
  · subst h
    rfl
  · rw [parts_of_ne h, join_segments]

/-- **A path is at or below a directory if its parts begin with those of the directory.** -/
theorem isUnder_iff_parts {path directory : String} :
    isUnder path directory = true ↔ parts directory <+: parts path := by
  by_cases hdirectory : directory = ""
  · subst hdirectory
    exact iff_of_true (isUnder_root path) List.nil_prefix
  · rw [parts_of_ne hdirectory]
    by_cases hpath : path = ""
    · -- nothing but the root itself is above the root
      subst hpath
      refine iff_of_false (fun hunder => ?_) ?_
      · rcases (isUnder_iff hdirectory).1 hunder with heq | ⟨rest, heq⟩
        · exact hdirectory heq.symm
        · simpa using congrArg String.toList heq
      · rw [parts_root, List.prefix_nil]
        exact List.splitOn_ne_nil '/' directory.toList
    · rw [parts_of_ne hpath, isUnder_iff_segments hdirectory]

/-! ### Depth -/

/-- **Every part of a directory adds a slash to its identifier.** -/
theorem slashes_qualify (moduleRoot directory : String) :
    slashes (qualify moduleRoot directory) = slashes moduleRoot + (parts directory).length := by
  by_cases h : directory = ""
  · subst h
    rfl
  · rw [slashes, toList_qualify h, parts_of_ne h]
    unfold slashes segments
    rw [List.count_append, List.count_cons_self, length_splitOn]

/-- **The depth of an identifier** is the number of parts of its directory. -/
theorem depth_qualify (moduleRoot directory : String) :
    depth moduleRoot (qualify moduleRoot directory) = (parts directory).length := by
  unfold depth
  rw [slashes_qualify, Nat.add_sub_cancel_left]

/-! ### Canonical spellings -/

/-- **The parts of a canonical spelling** are the steps of what was written. -/
theorem parts_normalize (written : String) :
    parts (normalize written) =
      (segments ((trim written.toList).map forwardSlash)).filter isStep := by
  set steps := (segments ((trim written.toList).map forwardSlash)).filter isStep with hsteps
  have hnormal : normalize written = .ofList (join steps) := rfl
  by_cases hnil : steps = []
  · rw [hnormal, hnil]
    rfl
  · -- no step has a slash in it, so cutting the joined steps gives them back
    have hslash : ∀ step ∈ steps, '/' ∉ step := fun step hstep =>
      not_mem_of_mem_splitOn (List.mem_of_mem_filter hstep)
    have hcut : segments (join steps) = steps := List.splitOn_intercalate '/' hslash hnil
    have hne : normalize written ≠ "" := by
      intro hempty
      rw [hnormal, String.ofList_eq_empty_iff] at hempty
      have hblank : [] ∈ steps := by
        rw [← hcut, hempty]
        exact List.mem_singleton_self []
      -- the empty segment is no step
      cases (List.mem_filter.1 hblank).2
    rw [parts_of_ne hne, hnormal, String.toList_ofList, hcut]

/-- **A spelling with nothing to leave out is canonical.** -/
theorem normalize_eq_self {written : String} (htrim : trim written.toList = written.toList)
    (hslash : '\\' ∉ written.toList) (hsteps : ∀ part ∈ parts written, isStep part = true) :
    normalize written = written := by
  by_cases hroot : written = ""
  · rw [hroot]
    rfl
  · rw [parts_of_ne hroot] at hsteps
    -- there is no slash to turn, and no segment to leave out
    have hmap : written.toList.map forwardSlash = written.toList := by
      refine (List.map_congr_left fun c hc => if_neg ?_).trans (List.map_id _)
      rintro rfl
      exact hslash hc
    rw [normalize, htrim, hmap, List.filter_eq_self.2 hsteps, join, segments,
      List.intercalate_splitOn, String.ofList_toList]

/-- The parts of a canonical spelling are steps. -/
theorem isStep_of_mem_parts_normalize {written : String} {part : List Char}
    (h : part ∈ parts (normalize written)) : isStep part = true := by
  rw [parts_normalize] at h
  exact (List.mem_filter.1 h).2

end PackageGraph.Path
