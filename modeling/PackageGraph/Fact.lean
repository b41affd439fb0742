import PackageGraph.Path
import PackageGraph.Sorted.Set

/-!
# Facts about packages

What was read off one package directory: the declared name and, for each import path, the symbols
that are used through it. A `FactSet` holds one fact per directory; facts on the same directory
are merged, so that a symbol used in two files counts once.
-/

namespace PackageGraph

/-- The symbols used through each import path. -/
abbrev ImportUsage := Sorted.Map String (Sorted.Set String)

namespace ImportUsage

/-- Add symbols to those used through `path`. The path is present afterwards, even if there are no
symbols to add. -/
def record (usage : ImportUsage) (path : String) (symbols : List String) : ImportUsage :=
  usage.upsert path fun known => (known.getD .empty).insertAll symbols

/-- The symbols of both usages, path by path. -/
def union (usage other : ImportUsage) : ImportUsage :=
  other.entries.foldl (fun all (path, symbols) => all.record path symbols.toList) usage

end ImportUsage

/-- What was read off one package directory. -/
structure Fact where
  /-- The declared name; it is displayed and nothing else. -/
  name : String
  /-- The directory, relative to the project's root. -/
  directory : String
  usage : ImportUsage
deriving DecidableEq, Inhabited

namespace Fact

/-- The fact that nothing is known of. -/
def blank : Fact := ⟨"", "", .empty⟩

/-- A package without imports; the directory is normalised. -/
def ofName (name directory : String) : Fact := ⟨name, Path.normalize directory, .empty⟩

/-- Note that the package uses symbols through `path`. -/
def withUsage (fact : Fact) (path : String) (symbols : List String) : Fact :=
  { fact with usage := fact.usage.record path symbols }

/-- Join what another fact knows of the same directory. The first name that is not empty stays. -/
def merge (fact other : Fact) : Fact where
  name := if fact.name.isEmpty then other.name else fact.name
  directory := fact.directory
  usage := fact.usage.union other.usage

@[simp] theorem merge_directory (fact other : Fact) :
    (fact.merge other).directory = fact.directory := rfl

end Fact

/-- Facts, one for each directory. -/
structure FactSet where
  /-- The facts by their directories. -/
  byDirectory : Sorted.Map String Fact
  /-- A fact stands under its own directory. -/
  keyed : ∀ {directory fact}, byDirectory.get? directory = some fact → fact.directory = directory
deriving DecidableEq

namespace FactSet

/-- No facts. -/
def empty : FactSet := ⟨.empty, nofun⟩

instance : Inhabited FactSet := ⟨empty⟩

/-- Add a fact, merging it into the one on the same directory if there is one. -/
def insert (facts : FactSet) (fact : Fact) : FactSet where
  byDirectory := facts.byDirectory.upsert fact.directory fun
    | none => fact
    | some known => known.merge fact
  keyed {directory stored} h := by
    by_cases same : directory = fact.directory
    · subst same
      rw [Sorted.Map.get?_upsert_self, Option.some.injEq] at h
      subst h
      cases known : facts.byDirectory.get? fact.directory with
      | none => rfl
      | some other => exact (other.merge_directory fact).trans (facts.keyed known)
    · rw [Sorted.Map.get?_upsert_of_ne _ _ same] at h
      exact facts.keyed h

/-- Collect facts, first to last. -/
def ofList (facts : List Fact) : FactSet := facts.foldl insert empty

/-- The fact on a directory. -/
def get? (facts : FactSet) (directory : String) : Option Fact := facts.byDirectory.get? directory

/-- The facts in the order of their directories. -/
def toList (facts : FactSet) : List Fact := facts.byDirectory.values

/-- The number of directories. -/
def size (facts : FactSet) : Nat := facts.byDirectory.size

@[simp] theorem get?_empty (directory : String) : empty.get? directory = none := rfl

end FactSet

end PackageGraph
