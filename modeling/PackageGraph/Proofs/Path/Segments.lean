import PackageGraph.Policy
import PackageGraph.Proofs.Path.Qualify
import PackageGraph.Proofs.Text.Split

/-!
# Paths and their segments

A path that continues a directory's text at a slash is cut at its slashes into the segments of the
directory and others behind them (`Path.segments_append`), and putting slashes between the pieces
undoes the cut (`Disk.joinWith_components`). So a path is at or below a directory exactly when its
segments begin with those of the directory (`Path.isUnder_iff_segments`).
-/

namespace PackageGraph

namespace Path

open Text

/-- A path whose segments all lead down: none is empty, `.` or `..`. -/
def IsPlain (path : String) : Prop :=
  ∀ segment ∈ segments path.toList, isStep segment = true ∧ segment ≠ ['.', '.']

instance (path : String) : Decidable (IsPlain path) :=
  inferInstanceAs (Decidable (∀ segment ∈ segments path.toList, _))

/-- What follows a directory behind a slash has segments of its own. -/
theorem segments_append (directory rest : String) :
    segments (directory ++ "/" ++ rest).toList =
      segments directory.toList ++ segments rest.toList := by
  rw [segments, segments, segments, ← List.splitOn_append_cons_self]
  simp

/-- Joining the segments of a path gives the path back. -/
@[simp] theorem join_segments (path : List Char) : join (segments path) = path :=
  List.intercalate_splitOn '/'

/-- **A path is below a directory if its segments begin with those of the directory.** -/
theorem isUnder_iff_segments {path directory : String} (h : directory ≠ "") :
    isUnder path directory = true ↔ segments directory.toList <+: segments path.toList := by
  rw [isUnder_iff h]
  constructor
  · rintro (rfl | ⟨rest, rfl⟩)
    · exact List.prefix_rfl
    · rw [segments_append]
      exact List.prefix_append _ _
  · rintro ⟨more, hmore⟩
    have hpath : path.toList = join (segments directory.toList ++ more) := by
      rw [hmore, join_segments]
    cases more with
    | nil =>
      -- no segment follows, so that the path is the directory
      rw [List.append_nil, join_segments] at hpath
      exact .inl (String.toList_inj.1 hpath)
    | cons segment more =>
      -- the directory is joined from its own segments, and a slash goes before the others
      have hjoin : join (segments directory.toList ++ segment :: more) =
          directory.toList ++ '/' :: join (segment :: more) := by
        have happend := intercalate_append '/' (List.splitOn_ne_nil '/' directory.toList)
          (List.cons_ne_nil segment more)
        rw [List.intercalate_splitOn] at happend
        exact happend
      refine .inr ⟨.ofList (join (segment :: more)), String.toList_inj.1 ?_⟩
      rw [hpath, hjoin]
      simp

/-- What follows a directory in a plain path is plain. -/
theorem IsPlain.below {directory rest : String} (h : IsPlain (directory ++ "/" ++ rest)) :
    IsPlain rest := by
  intro segment hsegment
  refine h segment ?_
  rw [segments_append]
  exact List.mem_append_right _ hsegment

/-- A path goes down from a directory if nothing follows the directory, or names do. The directory
itself may be written with steps up. -/
def Descends (directory path : String) : Prop :=
  path = directory ∨ ∃ rest, IsPlain rest ∧ path = directory ++ "/" ++ rest

/-- A plain path at or below a directory goes down from it. -/
theorem IsPlain.descends {directory path : String} (h : IsPlain path) (hne : directory ≠ "")
    (hunder : isUnder path directory = true) : Descends directory path := by
  refine ((isUnder_iff hne).1 hunder).imp_right ?_
  rintro ⟨rest, rfl⟩
  exact ⟨rest, h.below, rfl⟩

end Path

namespace Disk

open PackageGraph.Path Text

/-- The components of a path are the texts of its segments. -/
theorem components_eq (path : String) : components path = (segments path.toList).map .ofList := rfl

/-- The components of a path behind a directory follow those of the directory. -/
theorem components_append (directory rest : String) :
    components (directory ++ "/" ++ rest) = components directory ++ components rest := by
  rw [components_eq, segments_append, List.map_append]
  rfl

theorem components_ne_nil (path : String) : components path ≠ [] := by
  simp [components]

theorem ne_of_mem_components {path component : String} (hplain : IsPlain path)
    (h : component ∈ components path) : component ≠ "" ∧ component ≠ "." ∧ component ≠ ".." := by
  obtain ⟨segment, hsegment, rfl⟩ := List.mem_map.1 h
  obtain ⟨hstep, hup⟩ := hplain segment hsegment
  refine ⟨?_, ?_, ?_⟩
  · -- neither the empty segment nor `.` is a step
    rintro heq
    rw [String.ofList_eq_empty_iff] at heq
    subst heq
    cases hstep
  · intro heq
    obtain rfl : segment = ['.'] := by simpa using congrArg String.toList heq
    cases hstep
  · intro heq
    exact hup (by simpa using congrArg String.toList heq)

/-- Texts that are joined are their lists of characters, joined. -/
theorem toList_joinWith (names : List String) :
    (joinWith "/" names).toList = ['/'].intercalate (names.map String.toList) := by
  induction names with
  | nil => rfl
  | cons name names ih =>
    cases names with
    | nil => simp [joinWith]
    | cons next rest =>
      -- a slash stands behind the first name, because another one follows
      rw [joinWith, String.toList_append, String.toList_append, ih]
      simp [List.intercalate_cons_cons]

/-- **Joining the components of a path** gives the path back. -/
theorem joinWith_components (directory rest : String) :
    joinWith "/" (directory :: components rest) = directory ++ "/" ++ rest := by
  -- without the directory in front, this is about cutting a text and joining it again
  have hrest : joinWith "/" (components rest) = rest := by
    refine String.toList_inj.1 ?_
    have hmap : (components rest).map String.toList = rest.toList.splitOn '/' := by
      simp [components, Function.comp_def]
    rw [toList_joinWith, hmap, List.intercalate_splitOn]
  obtain ⟨name, names, hcons⟩ := List.exists_cons_of_ne_nil (components_ne_nil rest)
  rw [hcons] at hrest ⊢
  rw [joinWith, hrest]

end Disk

end PackageGraph
