import PackageGraph.Proofs.Path.Normal
import PackageGraph.Proofs.Text.Trim

/-!
# What normalising leaves

Normalising cuts blanks off the ends of a path first and leaves segments out afterwards. What is
left is made of steps and has no backslash, but it may have a blank at an end: one that stood next
to a segment that was left out (`Path.ExposesBlank`), as ` a` is left of `./ a`.

The paths that normalising does not change are those in canonical spelling
(`Path.normalize_eq_self_iff`). So normalising a second time changes nothing exactly if no blank was
exposed (`Path.normalize_projects`).
-/

namespace PackageGraph.Path

open Text

/-! ### Joining some of the segments -/

/-- **Leaving segments out leaves characters out**, and keeps the others in order. -/
theorem join_sublist {kept all : List (List Char)} (h : kept.Sublist all) :
    (join kept).Sublist (join all) := by
  induction h with
  | slnil => exact List.Sublist.refl _
  | @cons kept all part h ih =>
    cases all with
    | nil =>
      rw [List.sublist_nil.1 h]
      exact List.nil_sublist _
    | cons next rest =>
      -- the segment is left out with the slash behind it
      rw [join, join, List.intercalate_cons_cons]
      exact ih.trans (List.sublist_append_right _ _)
  | @cons_cons kept all part h ih =>
    cases all with
    | nil => rw [List.sublist_nil.1 h]
    | cons next rest =>
      rw [join, join, List.intercalate_cons_cons]
      cases kept with
      | nil =>
        rw [List.intercalate_singleton, List.append_assoc]
        exact List.sublist_append_left part _
      | cons first others =>
        rw [List.intercalate_cons_cons]
        exact (List.Sublist.refl _).append ih

theorem isStep_iff {segment : List Char} :
    isStep segment = true ↔ segment ≠ [] ∧ segment ≠ ['.'] := by
  simp [isStep]

/-! ### Reading backwards -/

/-- Joined parts read backwards are the reversed parts, the last one first. -/
theorem reverse_join (parts : List (List Char)) :
    (join parts).reverse = join (parts.map List.reverse).reverse := by
  induction parts with
  | nil => rfl
  | cons part rest ih =>
    cases rest with
    | nil => simp [join]
    | cons next rest =>
      have hrest : ((next :: rest).map List.reverse).reverse ≠ [] := by simp
      -- the first part is the last one of what is read backwards
      have hjoin := intercalate_append '/' hrest (List.cons_ne_nil part.reverse [])
      rw [List.intercalate_singleton] at hjoin
      rw [join, join] at ih
      rw [List.map_cons, List.reverse_cons, join, join, hjoin, List.intercalate_cons_cons, ← ih]
      simp

/-- A text read backwards has its segments read backwards. -/
theorem segments_reverse (text : List Char) :
    segments text.reverse = ((segments text).map List.reverse).reverse := by
  have hslash : ∀ part ∈ ((segments text).map List.reverse).reverse, '/' ∉ part := by
    intro part hpart
    obtain ⟨segment, hsegment, rfl⟩ := List.mem_map.1 (List.mem_reverse.1 hpart)
    rw [List.mem_reverse]
    exact not_mem_of_mem_splitOn hsegment
  have hne : ((segments text).map List.reverse).reverse ≠ [] := by
    rw [ne_eq, List.reverse_eq_nil_iff, List.map_eq_nil_iff]
    exact List.splitOn_ne_nil '/' text
  have hjoin := reverse_join (segments text)
  rw [join_segments] at hjoin
  -- cutting what was joined gives back what it was joined from
  rw [hjoin, segments, join, List.splitOn_intercalate '/' hslash hne]

theorem isStep_reverse (segment : List Char) : isStep segment.reverse = isStep segment := by
  rw [Bool.eq_iff_iff, isStep_iff, isStep_iff, ne_eq, ne_eq, List.reverse_eq_nil_iff,
    List.reverse_eq_iff, List.reverse_singleton]

/-! ### What is left of a text -/

/-- The steps of a text with slashes between them. -/
def joinSteps (text : List Char) : List Char := join ((segments text).filter isStep)

/-- Joining the steps of a text only leaves characters out. -/
theorem joinSteps_sublist (text : List Char) : (joinSteps text).Sublist text := by
  have hjoin : (joinSteps text).Sublist (join (segments text)) := join_sublist List.filter_sublist
  rwa [join_segments] at hjoin

/-- Segments are left out in the same way from either end. -/
theorem joinSteps_reverse (text : List Char) :
    joinSteps text.reverse = (joinSteps text).reverse := by
  have hstep : isStep ∘ List.reverse = isStep := funext isStep_reverse
  rw [joinSteps, joinSteps, reverse_join, segments_reverse, List.filter_reverse, List.filter_map,
    hstep]

/-- Segments at the front are left out, and the one behind them begins with a blank. -/
def ExposesBlank (text : List Char) : Prop :=
  ∃ dropped c step rest, segments text = dropped ++ (c :: step) :: rest ∧ dropped ≠ [] ∧
    (∀ segment ∈ dropped, isStep segment = false) ∧ isBlank c = true

/-- **A text that does not begin with a blank does so without its first segments** exactly if
leaving these out exposes one. -/
theorem head?_joinSteps {text : List Char} (h : ∀ c ∈ text.head?, isBlank c = false) :
    (∃ c ∈ (joinSteps text).head?, isBlank c = true) ↔ ExposesBlank text := by
  rw [joinSteps]
  constructor
  · -- the blank is at the beginning of the first step
    rintro ⟨c, hc, hblank⟩
    cases hsteps : (segments text).filter isStep with
    | nil =>
      rw [hsteps] at hc
      cases hc
    | cons step more =>
      obtain ⟨dropped, rest, hsegments, hdropped, hstep, -⟩ := List.filter_eq_cons_iff.1 hsteps
      obtain ⟨c', step, rfl⟩ := List.exists_cons_of_ne_nil (isStep_iff.1 hstep).1
      rw [hsteps, join, List.intercalate_cons_cons_left] at hc
      obtain rfl : c' = c := by simpa using hc
      refine ⟨dropped, c', step, rest, hsegments, ?_, by simpa using hdropped, hblank⟩
      -- if nothing was left out, the text itself would begin with the blank
      rintro rfl
      have htext : text = join ((c' :: step) :: rest) := by
        rw [← join_segments text, hsegments, List.nil_append]
      rw [htext, join, List.intercalate_cons_cons_left] at h
      rw [h c' rfl] at hblank
      cases hblank
  · rintro ⟨dropped, c, step, rest, hsegments, -, hdropped, hblank⟩
    -- a blank is no dot, so what begins with it is a step, and the first one
    have hstep : isStep (c :: step) = true := by
      refine isStep_iff.2 ⟨List.cons_ne_nil c step, ?_⟩
      rintro ⟨⟩
      cases hblank
    have hnone : dropped.filter isStep = [] :=
      List.filter_eq_nil_iff.2 fun segment hsegment => by simp [hdropped segment hsegment]
    refine ⟨c, ?_, hblank⟩
    rw [hsegments, List.filter_append, hnone, List.nil_append, List.filter_cons_of_pos hstep, join,
      List.intercalate_cons_cons_left]
    rfl

/-- **The steps of a trimmed text are trimmed** unless leaving out what is around them exposes a
blank at the front, or at the back. -/
theorem isTrimmed_joinSteps_iff {text : List Char} (h : IsTrimmed text) :
    IsTrimmed (joinSteps text) ↔ ¬ExposesBlank text ∧ ¬ExposesBlank text.reverse := by
  -- the end of the text is the beginning of what is read backwards
  have hlast : ∀ c ∈ text.reverse.head?, isBlank c = false := by
    rw [List.head?_reverse]
    exact h.2
  rw [← head?_joinSteps h.1, ← head?_joinSteps hlast, joinSteps_reverse, List.head?_reverse]
  simp only [IsTrimmed, not_exists, not_and, Bool.not_eq_true]

/-! ### Normalising -/

/-- The text that is cut into segments: without blanks around it, and with slashes of one kind. -/
def uncut (written : String) : List Char := (trim written.toList).map forwardSlash

/-- Normalising is joining the steps of the uncut text. -/
theorem toList_normalize (written : String) :
    (normalize written).toList = joinSteps (uncut written) := by
  rw [normalize, String.toList_ofList]
  rfl

/-- The uncut text is trimmed: turning slashes makes no blanks. -/
theorem isTrimmed_uncut (written : String) : IsTrimmed (uncut written) := by
  have hslash : ∀ c, isBlank (forwardSlash c) = isBlank c := by
    intro c
    unfold forwardSlash
    split
    · next hc => rw [hc]; rfl
    · rfl
  obtain ⟨hhead, hlast⟩ := isTrimmed_trim written.toList
  constructor
  · simpa [uncut, hslash] using hhead
  · simpa [uncut, hslash] using hlast

theorem backslash_not_mem_normalize (written : String) : '\\' ∉ (normalize written).toList := by
  intro hmem
  rw [toList_normalize] at hmem
  obtain ⟨c, -, hc⟩ := List.mem_map.1 ((joinSteps_sublist _).subset hmem)
  unfold forwardSlash at hc
  split at hc
  · cases hc
  · next hne => exact hne hc

/-- A path in canonical spelling. -/
structure IsCanonical (path : String) : Prop where
  /-- All parts are steps down. -/
  parts_ne : ∀ part ∈ parts path, part ≠ [] ∧ part ≠ ['.']
  slash : '\\' ∉ path.toList
  trimmed : IsTrimmed path.toList

theorem parts_normalize_ne (written : String) :
    ∀ part ∈ parts (normalize written), part ≠ [] ∧ part ≠ ['.'] :=
  fun _ hpart => isStep_iff.1 (isStep_of_mem_parts_normalize hpart)

/-- **Normalising leaves a path alone exactly if it is in canonical spelling.** -/
theorem normalize_eq_self_iff {path : String} : normalize path = path ↔ IsCanonical path := by
  constructor
  · intro h
    refine ⟨h ▸ parts_normalize_ne path, h ▸ backslash_not_mem_normalize path, ?_⟩
    -- as no character is lost, none is cut off either
    have hlength : path.toList.length ≤ (trim path.toList).length := by
      have hkept := (joinSteps_sublist (uncut path)).length_le
      rwa [← toList_normalize, h, uncut, List.length_map] at hkept
    exact trim_eq_self_iff.1 ((trim_sublist path.toList).eq_of_length_le hlength)
  · rintro ⟨hparts, hslash, htrimmed⟩
    exact normalize_eq_self (trim_eq_self_iff.2 htrimmed) hslash
      fun part hpart => isStep_iff.2 (hparts part hpart)

/-- **What normalising leaves.** The result is empty, or consists of segments with slashes between
them, none of which is empty or `.`; it has no backslash. A blank is at one of its ends exactly if
segments were left out there next to a blank, and normalising it again changes nothing exactly if no
blank is at its ends. -/
theorem normalize_projects (written : String) :
    (∀ part ∈ parts (normalize written), part ≠ [] ∧ part ≠ ['.']) ∧
      join (parts (normalize written)) = (normalize written).toList ∧
      '\\' ∉ (normalize written).toList ∧
      (IsTrimmed (normalize written).toList ↔
        ¬ExposesBlank (uncut written) ∧ ¬ExposesBlank (uncut written).reverse) ∧
      (normalize (normalize written) = normalize written ↔
        IsTrimmed (normalize written).toList) := by
  refine ⟨parts_normalize_ne written, join_parts _, backslash_not_mem_normalize written, ?_, ?_⟩
  · -- blanks are exposed at the beginning, or at the end
    rw [toList_normalize]
    exact isTrimmed_joinSteps_iff (isTrimmed_uncut written)
  · -- of a canonical spelling, being trimmed is all that may be missing
    rw [normalize_eq_self_iff]
    refine ⟨IsCanonical.trimmed, fun htrimmed => ⟨?_, ?_, htrimmed⟩⟩
    · exact parts_normalize_ne written
    · exact backslash_not_mem_normalize written

/-- The blank behind `./` is not cut off, and is the next time. -/
theorem normalize_exposes_blank : normalize "./ a" = " a" ∧
    ¬IsTrimmed (normalize "./ a").toList ∧
    normalize (normalize "./ a") ≠ normalize "./ a" := by
  have hfirst : normalize "./ a" = " a" := by decide
  have hagain : normalize " a" = "a" := by decide
  rw [hfirst, hagain]
  decide

end PackageGraph.Path
