import PackageGraph.Path

/-!
# Identifiers and directories

Which directory an import path stands for is read off what follows the module's root in it
(`relativeTo?_eq_some`). So qualifying a directory loses nothing: the directory is read back from
the identifier (`relativeTo?_qualify`), and different directories have different identifiers
(`qualify_injective`). In the same way, a path is at or below a directory exactly when it continues
the directory's text at a slash (`isUnder_iff`).
-/

namespace PackageGraph.Path

open Text

theorem toList_qualify {moduleRoot directory : String} (h : directory ≠ "") :
    (qualify moduleRoot directory).toList = moduleRoot.toList ++ '/' :: directory.toList := by
  rw [qualify, if_neg (by simpa using h), String.toList_append, String.toList_append]
  exact List.append_assoc ..

/-- **A directory is read off its module's root, or off what follows the root and a slash.** -/
theorem relativeTo?_eq_some {moduleRoot path directory : String} :
    relativeTo? moduleRoot path = some directory ↔
      path = moduleRoot ∧ directory = "" ∨ path = moduleRoot ++ "/" ++ directory := by
  rw [relativeTo?]
  constructor
  · intro h
    split at h
    · next hstrip =>
      -- the path is the root
      rw [stripPrefix?_eq_some, List.append_nil] at hstrip
      exact .inl ⟨String.toList_inj.1 hstrip, (Option.some.inj h).symm⟩
    · next c rest hstrip =>
      rw [stripPrefix?_eq_some] at hstrip
      split at h
      · next hslash =>
        -- a slash follows the root
        obtain rfl := Option.some.inj h
        exact .inr (String.toList_inj.1 (by simpa [hslash] using hstrip))
      · cases h
    · cases h
  · rintro (⟨rfl, rfl⟩ | rfl)
    · -- nothing follows the root
      have hstrip : stripPrefix? path.toList path.toList = some [] :=
        stripPrefix?_eq_some.2 (List.append_nil _).symm
      rw [hstrip]
    · -- what follows the root is cut behind the slash
      have hstrip : stripPrefix? moduleRoot.toList (moduleRoot ++ "/" ++ directory).toList =
          some ('/' :: directory.toList) := stripPrefix?_eq_some.2 (by simp)
      rw [hstrip]
      simp

/-- **The directory is read back from an identifier.** -/
@[simp] theorem relativeTo?_qualify (moduleRoot directory : String) :
    relativeTo? moduleRoot (qualify moduleRoot directory) = some directory := by
  rw [relativeTo?_eq_some, qualify]
  by_cases h : directory = ""
  · exact .inl ⟨if_pos (by simpa using h), h⟩
  · exact .inr (if_neg (by simpa using h))

/-- **No two directories have one identifier.** -/
theorem qualify_injective (moduleRoot : String) : (qualify moduleRoot).Injective := by
  intro directory other h
  have hread := relativeTo?_qualify moduleRoot other
  rw [← h, relativeTo?_qualify] at hread
  exact Option.some.inj hread

/-! ### Being in a module and being below a directory -/

/-- The identifier is the root of the module or lies below it. -/
def InModule (moduleRoot id : String) : Prop :=
  id = moduleRoot ∨ ∃ rest, id = moduleRoot ++ "/" ++ rest

theorem inModule_qualify (moduleRoot directory : String) :
    InModule moduleRoot (qualify moduleRoot directory) := by
  rw [InModule, qualify]
  by_cases h : directory.isEmpty
  · rw [if_pos h]
    exact .inl rfl
  · rw [if_neg h]
    exact .inr ⟨directory, rfl⟩

/-- What is in a module stands for a directory of it, and nothing else does. -/
theorem isSome_relativeTo? {moduleRoot path : String} :
    (relativeTo? moduleRoot path).isSome = true ↔ InModule moduleRoot path := by
  rw [Option.isSome_iff_exists]
  simp only [relativeTo?_eq_some]
  constructor
  · rintro ⟨directory, ⟨rfl, -⟩ | rfl⟩
    · exact .inl rfl
    · exact .inr ⟨directory, rfl⟩
  · rintro (rfl | ⟨rest, rfl⟩)
    · exact ⟨"", .inl ⟨rfl, rfl⟩⟩
    · exact ⟨rest, .inr rfl⟩

instance (moduleRoot id : String) : Decidable (InModule moduleRoot id) :=
  decidable_of_iff _ isSome_relativeTo?

/-- A path is below a directory as an import path is in a module. -/
theorem isUnder_eq (path directory : String) :
    isUnder path directory = (directory.isEmpty || (relativeTo? directory path).isSome) := by
  unfold isUnder relativeTo?
  rcases stripPrefix? directory.toList path.toList with _ | _ | ⟨c, rest⟩
  · rfl
  · rfl
  · -- more follows than the directory, and begins with a slash or not
    by_cases hc : c = '/' <;> simp [hc]

/-- **A path is below a directory if it continues it at a slash.** -/
theorem isUnder_iff {path directory : String} (h : directory ≠ "") :
    isUnder path directory = true ↔ path = directory ∨ ∃ rest, path = directory ++ "/" ++ rest := by
  have hempty : directory.isEmpty = false := by simpa using h
  rw [isUnder_eq, hempty, Bool.false_or, isSome_relativeTo?, InModule]

/-- A directory is at or below itself. -/
@[simp] theorem isUnder_self (directory : String) : isUnder directory directory = true := by
  have hself : (relativeTo? directory directory).isSome = true := isSome_relativeTo?.2 (.inl rfl)
  rw [isUnder_eq, hself]
  exact Bool.or_true _

end PackageGraph.Path
