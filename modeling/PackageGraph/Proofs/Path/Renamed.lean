import PackageGraph.Proofs.Path.Qualify
import PackageGraph.Sorted.Key

/-!
# Renaming a module

`Path.rename` writes one module root in place of another at the beginning of an identifier, where
it ends with a segment, and leaves every other text alone. Identifiers of the first module become
identifiers of the second one, and all that is ever asked of an identifier has the same answer
afterwards: which directory it stands for (`Path.relativeTo?_rename`), how deep it lies
(`Path.depth_rename`) and what it comes before (`Path.before_rename`).

A text of neither module stays such a text. A text of the second module alone is another matter,
because an identifier of the first one may be renamed to it; `Path.Placed` rules it out, and on
placed texts renaming is injective (`Path.rename_injOn`).
-/

namespace PackageGraph.Path

open Sorted Text

/-- Write another module root in place of the one that a text begins with. A text that does not
begin with it, or goes on without a slash behind it, stays as it is. -/
def rename (root root' s : String) : String :=
  match stripPrefix? root.toList s.toList with
  | some [] => root'
  | some (c :: rest) => if c = '/' then root' ++ "/" ++ .ofList rest else s
  | none => s

/-- The text is in the first module, or in neither. -/
def Placed (root root' s : String) : Prop :=
  InModule root s ∨ ¬InModule root s ∧ ¬InModule root' s

/-! ### In the module -/

instance (root root' s : String) : Decidable (Placed root root' s) :=
  inferInstanceAs (Decidable (_ ∨ _))

/-- What stands behind the root in an identifier of a module: nothing, or a slash and more. -/
def IsTail (tail : String) : Prop := tail = "" ∨ ∃ rest, tail = "/" ++ rest

/-- What is in a module is its root with a tail. -/
theorem inModule_iff_tail {root s : String} :
    InModule root s ↔ ∃ tail, IsTail tail ∧ s = root ++ tail := by
  constructor
  · rintro (rfl | ⟨rest, rfl⟩)
    · exact ⟨"", .inl rfl, by simp⟩
    · exact ⟨"/" ++ rest, .inr ⟨rest, rfl⟩, String.append_assoc⟩
  · rintro ⟨tail, rfl | ⟨rest, rfl⟩, rfl⟩
    · exact .inl (by simp)
    · exact .inr ⟨rest, String.append_assoc.symm⟩

/-! ### The new name -/

section Rename

variable {root root' s t : String}

/-- **Behind the root nothing changes.** -/
theorem rename_append_tail {tail : String} (h : IsTail tail) :
    rename root root' (root ++ tail) = root' ++ tail := by
  have hstrip : stripPrefix? root.toList (root ++ tail).toList = some tail.toList :=
    stripPrefix?_eq_some.2 String.toList_append
  rw [rename, hstrip]
  rcases h with rfl | ⟨rest, rfl⟩
  · simp
  · simp [String.append_assoc]

/-- **Outside the module nothing changes.** -/
theorem rename_of_not_inModule (h : ¬InModule root s) : rename root root' s = s := by
  rw [← isSome_relativeTo?, relativeTo?] at h
  rw [rename]
  split <;> simp_all

/-- A directory is qualified by the new root. -/
theorem rename_qualify (root root' directory : String) :
    rename root root' (qualify root directory) = qualify root' directory := by
  by_cases h : directory = ""
  · -- the root directory stands for the root itself
    subst h
    have hroot : rename root root' (root ++ "") = root' ++ "" := rename_append_tail (.inl rfl)
    simpa using hroot
  · have htail : ∀ r, qualify r directory = r ++ ("/" ++ directory) := by
      intro r
      rw [qualify, if_neg (by simpa using h), String.append_assoc]
    rw [htail, htail, rename_append_tail (.inr ⟨directory, rfl⟩)]

/-- What is in the module is in the module of the new root. -/
theorem inModule_rename (h : InModule root s) : InModule root' (rename root root' s) := by
  obtain ⟨tail, htail, rfl⟩ := inModule_iff_tail.1 h
  rw [rename_append_tail htail]
  exact inModule_iff_tail.2 ⟨tail, htail, rfl⟩

/-- Every identifier of the second module is the new name of one of the first. -/
theorem exists_rename_eq (root : String) (h : InModule root' s) :
    ∃ id, InModule root id ∧ rename root root' id = s := by
  obtain ⟨tail, htail, rfl⟩ := inModule_iff_tail.1 h
  exact ⟨root ++ tail, inModule_iff_tail.2 ⟨tail, htail, rfl⟩, rename_append_tail htail⟩

/-- **An identifier stands for the same directory under its new name.** -/
theorem relativeTo?_rename (h : Placed root root' s) :
    relativeTo? root' (rename root root' s) = relativeTo? root s := by
  rcases h with h | ⟨hroot, hroot'⟩
  · -- behind both roots stands the same
    obtain ⟨tail, htail, rfl⟩ := inModule_iff_tail.1 h
    have hstrip : ∀ r : String, stripPrefix? r.toList (r ++ tail).toList = some tail.toList :=
      fun r => stripPrefix?_eq_some.2 String.toList_append
    rw [rename_append_tail htail, relativeTo?, relativeTo?, hstrip, hstrip]
  · -- the text is in neither module and stays as it is
    have hnone : ∀ r, ¬InModule r s → relativeTo? r s = none := by
      intro r hr
      simpa [← isSome_relativeTo?] using hr
    rw [rename_of_not_inModule hroot, hnone root hroot, hnone root' hroot']

/-- **Different placed texts get different names.** -/
theorem rename_injOn (hs : Placed root root' s) (ht : Placed root root' t)
    (h : rename root root' s = rename root root' t) : s = t := by
  rcases hs with hs | ⟨hs, hs'⟩ <;> rcases ht with ht | ⟨ht, ht'⟩
  · -- both are in the first module, and their tails are equal
    obtain ⟨tail, htail, rfl⟩ := inModule_iff_tail.1 hs
    obtain ⟨tail', htail', rfl⟩ := inModule_iff_tail.1 ht
    rw [rename_append_tail htail, rename_append_tail htail', String.append_right_inj] at h
    rw [h]
  · -- the new name of `s` is in the second module, which `t` is not in
    rw [rename_of_not_inModule ht] at h
    exact absurd (h ▸ inModule_rename hs) ht'
  · rw [rename_of_not_inModule hs] at h
    exact absurd (h ▸ inModule_rename ht) hs'
  · -- both stay as they are
    rwa [rename_of_not_inModule hs, rename_of_not_inModule ht] at h

/-! ### Depth and order -/

/-- **An identifier is as deep as before**, however many slashes either root has. -/
theorem depth_rename (h : InModule root s) : depth root' (rename root root' s) = depth root s := by
  obtain ⟨tail, htail, rfl⟩ := inModule_iff_tail.1 h
  have hslashes : ∀ r : String, depth r (r ++ tail) = slashes tail := by
    intro r
    rw [depth, slashes, String.toList_append, List.count_append, slashes, slashes,
      Nat.add_sub_cancel_left]
  rw [rename_append_tail htail, hslashes, hslashes]

/-- **Identifiers keep their order.** -/
theorem before_rename (hs : InModule root s) (ht : InModule root t) :
    Key.before (rename root root' s) (rename root root' t) = Key.before s t := by
  obtain ⟨tail, htail, rfl⟩ := inModule_iff_tail.1 hs
  obtain ⟨tail', htail', rfl⟩ := inModule_iff_tail.1 ht
  -- equal beginnings do not decide the order
  have hbefore : ∀ r : String, Key.before (r ++ tail) (r ++ tail') = Key.before tail tail' := by
    intro r
    change dictionary (r ++ tail).toList (r ++ tail').toList = dictionary tail.toList tail'.toList
    rw [String.toList_append, String.toList_append, dictionary_append_left]
  rw [rename_append_tail htail, rename_append_tail htail', hbefore, hbefore]

end Rename

end PackageGraph.Path
