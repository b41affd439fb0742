import PackageGraph.Proofs.Graph.Restrict

/-!
# What the graph depends on

A policy says which packages and which imports count. The graph is a function of what counts alone:
what does not count may be filtered out beforehand, and no exclusion is needed after that
(`Model.build_counted`). So two sets of facts that agree on what counts have the same graph, whatever
else they hold.

Both follow from one step of the builder. On an import that counts, exclusion makes no difference
(`Draft.addImport_counted`), and on a package that is kept only the imports that count are seen
(`Draft.add_counted`).
-/

namespace PackageGraph

open Sorted

/-! ### What counts -/

namespace Policy

/-- Is the package in a directory kept? -/
def keeps (policy : Policy) (directory : String) : Bool :=
  !policy.isExcluded (Path.qualify policy.moduleRoot directory)

/-- Does an import count? It has to stay in the module and to lead to a package that is kept, and
some symbol has to be used through it. -/
def countsImport (policy : Policy) (importPath : String) (symbols : Sorted.Set String) : Bool :=
  Path.leadsInto policy.moduleRoot policy.keeps importPath && !symbols.isEmpty

/-- The same policy, which leaves nothing out. -/
def withoutExclusion (policy : Policy) : Policy := { policy with excluded := .empty }

@[simp] theorem moduleRoot_withoutExclusion (policy : Policy) :
    policy.withoutExclusion.moduleRoot = policy.moduleRoot := rfl

@[simp] theorem isExcluded_withoutExclusion (policy : Policy) (id : String) :
    policy.withoutExclusion.isExcluded id = false := rfl

/-- An import of a package that is kept leads where it leads without exclusion. -/
theorem destination?_of_keeps {policy : Policy} {source importPath relative : String}
    (hrelative : Path.relativeTo? policy.moduleRoot importPath = some relative)
    (hkeeps : policy.keeps (Path.normalize relative) = true) :
    policy.destination? source importPath =
      policy.withoutExclusion.destination? source importPath := by
  have hkept : policy.isExcluded
      (Path.qualify policy.moduleRoot (Path.normalize relative)) = false := by
    simpa [keeps] using hkeeps
  rw [destination?, destination?, moduleRoot_withoutExclusion, hrelative]
  simp only [Option.bind_eq_bind, Option.bind_some, hkept, isExcluded_withoutExclusion]
  rfl

end Policy

/-- The facts on packages that are kept, with the imports that count. -/
def FactSet.counted (policy : Policy) (facts : FactSet) : FactSet :=
  facts.restrict policy.keeps policy.countsImport

/-! ### One step of the builder -/

namespace Draft

/-- The builder leaves out the packages that are not kept. -/
theorem omits_eq_not_keeps (policy : Policy) (fact : Fact) :
    omits policy fact = !policy.keeps fact.directory := by
  rw [omits, Policy.keeps, Bool.not_not]

/-- **Only imports that count add to the weights**, and they add what they add without
exclusion. -/
theorem addImport_counted (policy : Policy) (source : String)
    (weights : Map (String × String) Nat) (entry : String × Sorted.Set String) :
    addImport policy source weights entry =
      if policy.countsImport entry.1 entry.2 then
        addImport policy.withoutExclusion source weights entry
      else weights := by
  rw [Policy.countsImport, Path.leadsInto]
  cases hrelative : Path.relativeTo? policy.moduleRoot entry.1 with
  | none =>
    -- the import leaves the module
    rw [addImport, Policy.destination?, hrelative]
    rfl
  | some relative =>
    rw [Option.any_some]
    cases hkeeps : policy.keeps (Path.normalize relative) with
    | false => exact addImport_of_excluded hrelative (by simpa [Policy.keeps] using hkeeps) weights
    | true =>
      rw [addImport, addImport, Policy.destination?_of_keeps hrelative hkeeps]
      -- without symbols nothing is added, whether or not there is a destination
      cases policy.withoutExclusion.destination? source entry.1 with
      | none => simp
      | some destination => by_cases hempty : entry.2.isEmpty <;> simp [hempty]

/-- **Only packages that are kept add to a draft**, and they add what their imports that count add
without exclusion. -/
theorem add_counted (policy : Policy) (draft : Draft) (fact : Fact) :
    add policy draft fact =
      if policy.keeps fact.directory then
        add policy.withoutExclusion draft (fact.restrict policy.countsImport)
      else draft := by
  rw [add, omits_eq_not_keeps]
  cases hkeeps : policy.keeps fact.directory with
  | false => rfl
  | true =>
    have hweights : fact.usage.entries.foldl
          (addImport policy (policy.effectiveId fact.directory)) draft.weights =
        (fact.restrict policy.countsImport).usage.entries.foldl
          (addImport policy.withoutExclusion (policy.effectiveId fact.directory))
          draft.weights := by
      rw [Fact.restrict, Map.filter, List.foldl_filter]
      exact List.foldl_ext _ _ _ fun weights entry _ => addImport_counted policy _ weights entry
    -- nodes are made from the name and the directory, which both facts share
    exact congrArg (Draft.mk _) hweights

end Draft

/-! ### Whole graphs -/

namespace Model

/-- **What does not count has no influence.** The graph of some facts is the graph of those that
count, under a policy that leaves nothing out. So facts that agree on what counts have the same
graph: packages that are left out, in groups or not, imports of other modules or of packages that
are left out, and imports through which no symbol is used cannot be told from it. -/
theorem build_counted (policy : Policy) (facts : FactSet) :
    build policy facts = build policy.withoutExclusion (facts.counted policy) ∧
      ∀ other : FactSet, other.counted policy = facts.counted policy →
        build policy other = build policy facts := by
  -- a package that is left out adds nothing, so it may be left out of the facts
  have hfilter : ∀ facts : FactSet,
      build policy facts = build policy.withoutExclusion (facts.counted policy) := by
    intro facts
    rw [build, build, ofFacts, ofFacts, FactSet.counted,
      ← Draft.ofFacts_restrict (Draft.add_counted policy)]
    rfl
  refine ⟨hfilter facts, fun other hcounted => ?_⟩
  rw [hfilter other, hcounted, ← hfilter facts]

/-- Two members of a group of which one is left out, a group without members that are kept, and
imports that do not count. -/
theorem build_counted_groups :
    let policy : Policy :=
      ⟨"mod", ["gen", "lib"], .ofList ["mod/gen/a", "mod/lib/a", "mod/old"], .empty⟩
    let facts := FactSet.ofList
      [(Fact.ofName "gen" "gen/a").withUsage "mod/lib/b" ["X"],
        Fact.ofName "first" "lib/a",
        (Fact.ofName "second" "lib/b").withUsage "mod" ["Y"],
        ((((Fact.ofName "main" "").withUsage "modern/lib" ["F"]).withUsage "mod/lib/b" []).withUsage
          "mod//old/." ["O"]).withUsage "mod/lib/c" ["Z"]]
    let other := FactSet.ofList
      [(Fact.ofName "second" "lib/b").withUsage "mod" ["Y"],
        (Fact.ofName "main" "").withUsage "mod/lib/c" ["Z"]]
    other ≠ facts ∧ other.counted policy = facts.counted policy ∧
      build policy other = build policy facts := by
  intro policy facts other
  have hcounted : other.counted policy = facts.counted policy := by decide +kernel
  exact ⟨by decide +kernel, hcounted, (build_counted policy facts).2 other hcounted⟩

end Model

end PackageGraph
