import PackageGraph.Proofs.Fact.Collected
import PackageGraph.Proofs.Fact.Usage

/-!
# Merged facts

Facts on one directory are merged one into another. The fact that comes out has the first of their
names that is not empty (`Fact.name_foldl_merge`) and the usage of all facts together; so on each
directory a set of facts knows what the facts on it know between them. If all names are proper ones,
the name is that of the first fact (`FactSet.get?_ofList_eq_some`).
-/

namespace PackageGraph

open Sorted

namespace Fact

variable {fact : Fact} {path symbol : String}

/-- The first name of some facts that is not empty; the empty one if there is none. -/
def firstName (facts : List Fact) : String :=
  ((facts.map name).find? (!·.isEmpty)).getD ""

theorem firstName_cons_of_ne (h : fact.name ≠ "") (rest : List Fact) :
    firstName (fact :: rest) = fact.name := by
  simp [firstName, h]

theorem firstName_cons_of_eq (h : fact.name = "") (rest : List Fact) :
    firstName (fact :: rest) = firstName rest := by
  simp [firstName, h]

/-- **Merged facts have the first name** that one of them has. -/
theorem name_foldl_merge (rest : List Fact) :
    (rest.foldl merge fact).name = firstName (fact :: rest) := by
  induction rest generalizing fact with
  | nil =>
    by_cases h : fact.name = ""
    · rw [firstName_cons_of_eq h]
      exact h
    · rw [firstName_cons_of_ne h]
      rfl
  | cons other rest ih =>
    rw [List.foldl_cons, ih]
    by_cases h : fact.name = ""
    · -- the merged fact has the name of the other one
      have hname : (fact.merge other).name = other.name := by simp [merge, h]
      rw [firstName_cons_of_eq h, firstName, firstName, List.map_cons, List.map_cons, hname]
    · -- the merged fact keeps its own name
      have hname : (fact.merge other).name = fact.name := by simp [merge, h]
      rw [firstName_cons_of_ne h, firstName_cons_of_ne (hname ▸ h), hname]

/-- **Merged facts use what each of them uses.** -/
theorem uses_foldl_merge (rest : List Fact) :
    (rest.foldl merge fact).usage.Uses path symbol ↔
      ∃ other ∈ fact :: rest, other.usage.Uses path symbol := by
  induction rest generalizing fact with
  | nil => simp
  | cons other rest ih =>
    rw [List.foldl_cons, ih]
    simp only [List.exists_mem_cons_iff, merge, ImportUsage.uses_union, or_assoc]

/-- **Merged facts import what each of them imports.** -/
theorem contains_foldl_merge (rest : List Fact) :
    (rest.foldl merge fact).usage.contains path = true ↔
      ∃ other ∈ fact :: rest, other.usage.contains path = true := by
  induction rest generalizing fact with
  | nil => simp
  | cons other rest ih =>
    rw [List.foldl_cons, ih]
    simp only [List.exists_mem_cons_iff, merge, ImportUsage.contains_union, or_assoc]

end Fact

namespace FactSet

variable {facts : List Fact} {directory : String}

/-- The facts on a directory are merged into the first of them. -/
theorem get?_ofList_eq (facts : List Fact) (directory : String) :
    (ofList facts).get? directory =
      match facts.filter fun fact => fact.directory = directory with
      | [] => none
      | fact :: rest => some (rest.foldl Fact.merge fact) := by
  -- once there is a fact, each further one is merged into it
  have hsome (rest : List Fact) (fact : Fact) :
      rest.foldl (fun known fact => some (known.elim fact fun other => other.merge fact))
        (some fact) = some (rest.foldl Fact.merge fact) := by
    induction rest generalizing fact with
    | nil => rfl
    | cons other rest ih => exact ih _
  rw [get?_ofList]
  cases facts.filter fun fact => fact.directory = directory with
  | nil => rfl
  | cons fact rest => exact hsome rest fact

/-- A directory is known if a fact is on it. -/
theorem isSome_get?_ofList :
    ((ofList facts).get? directory).isSome = true ↔ ∃ fact ∈ facts, fact.directory = directory := by
  have hmem : (∃ fact ∈ facts, fact.directory = directory) ↔
      facts.filter (fun fact => fact.directory = directory) ≠ [] := by
    simp [List.filter_eq_nil_iff]
  rw [hmem, get?_ofList_eq]
  cases facts.filter fun fact => fact.directory = directory <;> simp

/-- What is known on a directory was merged from the facts on it. -/
theorem exists_filter_of_get?_ofList {merged : Fact}
    (h : (ofList facts).get? directory = some merged) :
    ∃ first rest, (facts.filter fun fact => fact.directory = directory) = first :: rest ∧
      rest.foldl Fact.merge first = merged := by
  rw [get?_ofList_eq] at h
  cases hfilter : facts.filter fun fact => fact.directory = directory with
  | nil =>
    rw [hfilter] at h
    cases h
  | cons first rest =>
    rw [hfilter] at h
    exact ⟨first, rest, rfl, Option.some.inj h⟩

/-- What is used on a directory is what some fact on it uses. -/
theorem uses_iff_of_get?_ofList {merged : Fact}
    (h : (ofList facts).get? directory = some merged) (path symbol : String) :
    merged.usage.Uses path symbol ↔
      ∃ fact ∈ facts, fact.directory = directory ∧ fact.usage.Uses path symbol := by
  obtain ⟨first, rest, hfilter, rfl⟩ := exists_filter_of_get?_ofList h
  rw [Fact.uses_foldl_merge, ← hfilter]
  simp only [List.mem_filter, decide_eq_true_eq, and_assoc]

/-- What is imported on a directory is what some fact on it imports. -/
theorem contains_iff_of_get?_ofList {merged : Fact}
    (h : (ofList facts).get? directory = some merged) (path : String) :
    merged.usage.contains path = true ↔
      ∃ fact ∈ facts, fact.directory = directory ∧ fact.usage.contains path = true := by
  obtain ⟨first, rest, hfilter, rfl⟩ := exists_filter_of_get?_ofList h
  rw [Fact.contains_foldl_merge, ← hfilter]
  simp only [List.mem_filter, decide_eq_true_eq, and_assoc]

/-- **What is known on a directory**: the first name on it, and the usage of all facts on it. -/
theorem get?_ofList_eq_some {merged : Fact} (hnames : ∀ fact ∈ facts, fact.name ≠ "")
    (h : (ofList facts).get? directory = some merged) :
    (∃ first before after, facts = before ++ first :: after ∧ first.directory = directory ∧
      (∀ fact ∈ before, fact.directory ≠ directory) ∧ merged.name = first.name) ∧
    (∀ path symbol, merged.usage.Uses path symbol ↔
      ∃ fact ∈ facts, fact.directory = directory ∧ fact.usage.Uses path symbol) ∧
    ∀ path, merged.usage.contains path = true ↔
      ∃ fact ∈ facts, fact.directory = directory ∧ fact.usage.contains path = true := by
  refine ⟨?_, uses_iff_of_get?_ofList h, contains_iff_of_get?_ofList h⟩
  obtain ⟨first, rest, hfilter, rfl⟩ := exists_filter_of_get?_ofList h
  -- the first fact on the directory names it, as no name is empty
  obtain ⟨before, after, rfl, hbefore, hfirst, -⟩ := List.filter_eq_cons_iff.1 hfilter
  refine ⟨first, before, after, rfl, by simpa using hfirst, by simpa using hbefore, ?_⟩
  rw [Fact.name_foldl_merge, Fact.firstName_cons_of_ne (hnames first List.mem_append_cons_self)]

/-- Sets of facts are determined by what they hold on each directory. -/
theorem ext {facts facts' : FactSet}
    (h : ∀ directory, facts.get? directory = facts'.get? directory) : facts = facts' := by
  obtain ⟨byDirectory, keyed⟩ := facts
  obtain ⟨byDirectory', keyed'⟩ := facts'
  obtain rfl : byDirectory = byDirectory' := Map.ext h
  rfl

end FactSet

end PackageGraph
