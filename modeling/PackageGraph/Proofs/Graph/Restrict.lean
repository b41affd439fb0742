import PackageGraph.Graph.Draft
import PackageGraph.Proofs.Policy.Exclusion

/-!
# Facts that do not count

Facts and imports may be taken away from a set of facts (`FactSet.restrict`). If the builder passes
over whatever is taken away, the graph stays the same (`Draft.ofFacts_restrict`). This holds of the
directories that the project has at or below an excluded one: they count neither as packages nor as
what imports lead to (`Model.build_without`).

A directory that the project does not have is another matter: the rules are expanded on the disk, so
that such a directory counts even below an excluded one (`Model.absent_directory_counts`).
-/

namespace PackageGraph

open Sorted

/-! ### Taking facts and imports away -/

/-- Does an import path lead, inside the module, to a hidden directory? -/
def Path.leadsInto (moduleRoot : String) (hidden : String → Bool) (importPath : String) : Bool :=
  (relativeTo? moduleRoot importPath).any fun relative => hidden (normalize relative)

/-- A fact without the imports that are not kept. -/
def Fact.restrict (keeps : String → Sorted.Set String → Bool) (fact : Fact) : Fact :=
  { fact with usage := fact.usage.filter keeps }

namespace FactSet

/-- The facts on the directories that are kept, without the imports that are not kept. -/
def restrict (keepsDirectory : String → Bool) (keepsImport : String → Sorted.Set String → Bool)
    (facts : FactSet) : FactSet where
  byDirectory := (facts.byDirectory.filter fun directory _ => keepsDirectory directory).mapValues
    fun _ fact => fact.restrict keepsImport
  keyed {directory restricted} h := by
    rw [Map.get?_mapValues, Option.map_eq_some_iff] at h
    obtain ⟨fact, hfact, rfl⟩ := h
    have hdirectory : fact.directory = directory := facts.keyed (Map.get?_filter_eq_some.1 hfact).1
    exact hdirectory

/-- The facts that are left are those on the directories that are kept, each restricted. -/
theorem toList_restrict (keepsDirectory : String → Bool)
    (keepsImport : String → Sorted.Set String → Bool) (facts : FactSet) :
    (facts.restrict keepsDirectory keepsImport).toList =
      (facts.toList.filter fun fact => keepsDirectory fact.directory).map
        (Fact.restrict keepsImport) := by
  -- the map is filtered by its keys, the list by the directories of the facts
  have hkeyed : facts.byDirectory.entries.filter (fun entry => keepsDirectory entry.1) =
      facts.byDirectory.entries.filter (fun entry => keepsDirectory entry.2.directory) :=
    List.filter_congr fun entry hentry => by rw [facts.keyed (Map.get?_eq_some.2 hentry)]
  rw [toList, toList, Map.values, Map.values, List.filter_map, List.map_map]
  simp only [restrict, Map.mapValues, Map.filter, List.map_map, hkeyed]
  rfl

/-- The facts without those on hidden directories, and without the imports that lead to one. -/
def without (moduleRoot : String) (hidden : String → Bool) (facts : FactSet) : FactSet :=
  facts.restrict (fun directory => !hidden directory) fun importPath _ =>
    !Path.leadsInto moduleRoot hidden importPath

end FactSet

/-! ### Passing over what is taken away -/

namespace Draft

/-- **What the builder passes over may be taken away.** -/
theorem ofFacts_restrict {policy policy' : Policy} {keepsDirectory : String → Bool}
    {keepsImport : String → Sorted.Set String → Bool}
    (hadd : ∀ draft fact, add policy draft fact =
      if keepsDirectory fact.directory then add policy' draft (fact.restrict keepsImport)
      else draft) (facts : FactSet) :
    ofFacts policy facts.toList =
      ofFacts policy' (facts.restrict keepsDirectory keepsImport).toList := by
  rw [FactSet.toList_restrict, ofFacts, ofFacts, List.foldl_map, List.foldl_filter]
  exact List.foldl_ext _ _ _ fun draft fact _ => hadd draft fact

/-- An import that leads to a package that is left out adds nothing. -/
theorem addImport_of_excluded {policy : Policy} {source : String}
    {entry : String × Sorted.Set String} {relative : String}
    (hrelative : Path.relativeTo? policy.moduleRoot entry.1 = some relative)
    (hexcluded : policy.isExcluded
      (Path.qualify policy.moduleRoot (Path.normalize relative)) = true)
    (weights : Map (String × String) Nat) : addImport policy source weights entry = weights := by
  have hnone : policy.destination? source entry.1 = none := by
    rw [Policy.destination?, hrelative]
    simp [hexcluded]
  rw [addImport, hnone]

/-- Imports that add nothing may be taken away from a fact. -/
theorem add_restrict {policy : Policy} {fact : Fact}
    {keepsImport : String → Sorted.Set String → Bool}
    (hskip : ∀ weights entry, keepsImport entry.1 entry.2 = false →
      addImport policy (policy.effectiveId fact.directory) weights entry = weights)
    (draft : Draft) : add policy draft (fact.restrict keepsImport) = add policy draft fact := by
  have hweights : (fact.restrict keepsImport).usage.entries.foldl
        (addImport policy (policy.effectiveId fact.directory)) draft.weights =
      fact.usage.entries.foldl
        (addImport policy (policy.effectiveId fact.directory)) draft.weights := by
    rw [Fact.restrict, Map.filter, List.foldl_filter]
    refine List.foldl_ext _ _ _ fun weights entry _ => ?_
    split
    · rfl
    · next hkeeps => exact (hskip weights entry (by simpa using hkeeps)).symm
      -- what is taken away would have added nothing
  -- the name and the directory of the fact stay, so that the nodes are the same
  rw [add, add]
  exact if_congr Iff.rfl rfl (congrArg (Draft.mk _) hweights)

/-- The builder passes over hidden directories that are left out. -/
theorem add_without {policy : Policy} {hidden : String → Bool}
    (hhidden : ∀ directory, hidden directory = true →
      policy.isExcluded (Path.qualify policy.moduleRoot directory) = true)
    (draft : Draft) (fact : Fact) :
    add policy draft fact =
      if !hidden fact.directory then
        add policy draft (fact.restrict fun importPath _ =>
          !Path.leadsInto policy.moduleRoot hidden importPath)
      else draft := by
  cases hdirectory : hidden fact.directory with
  | true =>
    have homits : omits policy fact = true := hhidden _ hdirectory
    rw [add, if_pos homits]
    rfl
  | false =>
    -- the package stays, and only imports of packages that are left out are taken away
    refine (add_restrict (fun weights entry hleads => ?_) draft).symm
    obtain ⟨relative, hrelative, hrelativeHidden⟩ : ∃ relative,
        Path.relativeTo? policy.moduleRoot entry.1 = some relative ∧
          hidden (Path.normalize relative) = true := by
      simpa [Path.leadsInto, Option.any_eq_true] using hleads
    exact addImport_of_excluded hrelative (hhidden _ hrelativeHidden) weights

end Draft

namespace Model

/-- **Exclusion is closed downwards on the disk.** Take any directories that the project has at or
below an excluded one. Without the facts on them, and without the imports that lead to them, the
graph is the same: they give it no node, are counted in no group and weigh on no edge. -/
theorem build_without {rules : PolicyRules} {moduleRoot project entry : String} {disk : Disk}
    {policy : Policy} (hpolicy : Policy.ofRules rules moduleRoot disk project = .ok policy)
    (hentry : entry ∈ rules.excludedDirectories) (hne : Path.normalize entry ≠ "")
    {hidden : String → Bool}
    (hhidden : ∀ directory, hidden directory = true →
      disk.HasBelow project (Path.normalize entry) directory) (facts : FactSet) :
    build policy facts = build policy (facts.without moduleRoot hidden) := by
  have hexcluded : ∀ directory, hidden directory = true →
      policy.isExcluded (Path.qualify policy.moduleRoot directory) = true :=
    fun directory h => Policy.isExcluded_of_hasBelow hpolicy hentry hne (hhidden directory h)
  rw [build, build, ofFacts, ofFacts, ← Policy.moduleRoot_ofRules hpolicy, FactSet.without,
    ← Draft.ofFacts_restrict (Draft.add_without hexcluded)]

/-- A project with a directory below the one that its rules exclude. -/
def shed : Disk where
  root := .directory [("tools", .directory [("old", .directory [])])]
  here := []

/-- Rules that group one directory and exclude another one, which they spell in their own way. -/
def shedRules : PolicyRules where
  grouping := ["lib"]
  excludedPackages := []
  excludedDirectories := ["./tools/"]
  forbidden := []

/-- Two packages that import each other, one of them below the excluded directory. -/
def shedFacts : FactSet :=
  .ofList [(Fact.ofName "a" "a").withUsage "mod/tools/old" ["X"],
    (Fact.ofName "old" "tools/old").withUsage "mod/a" ["Y"]]

/-- Without the lower directory, one of two facts goes, and the only import of the other one. -/
theorem build_without_old :
    ∃ policy : Policy,
      Policy.ofRules shedRules "mod" shed "" = .ok policy ∧
      Path.normalize "./tools/" ≠ "" ∧
      (∀ directory, (directory == "tools/old") = true →
        shed.HasBelow "" (Path.normalize "./tools/") directory) ∧
      shedFacts.without "mod" (· == "tools/old") ≠ shedFacts ∧
      build policy shedFacts =
        build policy (shedFacts.without "mod" (· == "tools/old")) := by
  have hpolicy : Policy.ofRules shedRules "mod" shed "" =
      .ok ⟨"mod", ["lib"], .ofList ["mod/tools", "mod/tools/old"], .empty⟩ := by rfl
  have hne : Path.normalize "./tools/" ≠ "" := by decide +kernel
  have hhidden : ∀ directory, (directory == "tools/old") = true →
      shed.HasBelow "" (Path.normalize "./tools/") directory := by
    intro directory h
    obtain rfl : directory = "tools/old" := by simpa using h
    exact ⟨"tools/old", by decide +kernel, by decide +kernel, by decide +kernel, by decide +kernel⟩
  exact ⟨_, hpolicy, hne, hhidden, by decide +kernel,
    build_without hpolicy List.mem_cons_self hne hhidden _⟩

/-- **A directory that the expansion does not reach counts**, as a package and as what an import
leads to, although it is below an excluded one: the project may not have it, or the import may spell
it with `..` or with a blank at its end. -/
theorem absent_directory_counts :
    ∃ policy : Policy,
      Policy.ofRules ⟨[], [], ["tools"], []⟩ "mod"
        ⟨.directory [("tools", .directory [("old ", .directory [])])], []⟩ "" = .ok policy ∧
      Path.isUnder "tools/gen" (Path.normalize "tools") = true ∧
      ((build policy (.ofList [.ofName "gen" "tools/gen"])).node? "mod/tools/gen").isSome = true ∧
      ∀ importPath ∈ ["mod/tools/gen", "mod/tools/../tools", "mod/tools/old /"],
        Path.leadsInto "mod" (Path.isUnder · (Path.normalize "tools")) importPath = true ∧
        (build policy (.ofList [(Fact.ofName "a" "a").withUsage importPath ["X"]])).edges.map
          Edge.weight = [1] :=
  ⟨⟨"mod", [], .ofList ["mod/tools", "mod/tools/old"], .empty⟩, by rfl, by decide +kernel,
    by decide +kernel, by decide +kernel⟩

end Model

end PackageGraph
