import PackageGraph.Proofs.Fact.References
import PackageGraph.Proofs.Graph.Edge

/-!
# Merging facts before they are added

Two facts on one directory may be added to a draft one after the other, or merged first and added as
one. The weights come out the same, but for the symbols that both facts use through one import path:
a merged fact has each of them once, and the two facts have it twice (`Draft.weight_merge`).

A weight is a sum over packages of a sum over imports. The packages are split off by
`Policy.dependency_append`; for the imports of a package the difference is that of a union and its
two parts, which is counted on references (`Policy.symbolsUsed_merge`).
-/

namespace PackageGraph

open Sorted

namespace Policy

/-! ### What two facts share -/

/-- The number of symbols that two facts both use of the packages of a node, summed over the import
paths that both of them have. -/
def sharedSymbols (policy : Policy) (fact other : Fact) (id : String) : Nat :=
  ((fact.usage.keys.filter fun path =>
    other.usage.contains path && policy.leadsTo id path).map fun path =>
      (fact.usage.common other.usage path).length).sum

/-- An import counts if its package is not left out and it leads to another node. -/
def KeepsImport (policy : Policy) (fact : Fact) (path : String) : Prop :=
  Draft.omits policy fact = false ∧
    ∃ destination, destination ≠ policy.effectiveId fact.directory ∧
      policy.leadsTo destination path = true

/-- Symbols used are references that lead to the node. -/
theorem symbolsUsed_eq_countP (policy : Policy) (fact : Fact) (id : String) :
    policy.symbolsUsed fact id =
      fact.usage.references.countP fun reference => policy.leadsTo id reference.1 := by
  rw [ImportUsage.countP_references, symbolsUsed, ← sum_map_ite_zero]
  congr 1
  refine List.map_congr_left fun entry _ => ?_
  -- an import that leads elsewhere contributes nothing to either side
  by_cases hleads : policy.leadsTo id entry.1 = true
  · simp [hleads, Set.size]
  · simp [hleads]

/-- Symbols shared are references of both facts that lead to the node. -/
theorem sharedSymbols_eq_countP (policy : Policy) (fact other : Fact) (id : String) :
    policy.sharedSymbols fact other id =
      fact.usage.references.countP fun reference =>
        policy.leadsTo id reference.1 && other.usage.references.contains reference := by
  unfold sharedSymbols Map.keys
  rw [ImportUsage.countP_references, List.filter_map, List.map_map, ← sum_map_ite_zero]
  congr 1
  refine List.map_congr_left fun entry hentry => ?_
  -- for one import path, the symbols in common are those that the other fact has a reference to
  have hcommon : fact.usage.common other.usage entry.1 =
      entry.2.toList.filter fun symbol => other.usage.references.contains (entry.1, symbol) := by
    unfold ImportUsage.common
    rw [ImportUsage.symbols_of_mem_entries hentry]
    refine List.filter_congr fun symbol _ => ?_
    rw [Bool.eq_iff_iff, ImportUsage.contains_symbols, List.contains_iff_mem,
      ImportUsage.mem_references]
  by_cases hleads : policy.leadsTo id entry.1 = true
  · by_cases hcontains : other.usage.contains entry.1 = true
    · simp [hleads, hcontains, hcommon, List.countP_eq_length_filter]
    · -- nothing is used through a path that is absent
      have hnone : ∀ symbol, (entry.1, symbol) ∉ other.usage.references := by
        intro symbol
        rw [ImportUsage.mem_references]
        exact ImportUsage.not_uses_of_not_contains (Bool.eq_false_iff.2 hcontains)
      simp [hcontains, hnone]
  · simp [hleads]

/-- **Merged facts use the symbols of both, those that they share once.** -/
theorem symbolsUsed_merge (policy : Policy) (fact other : Fact) (id : String) :
    policy.symbolsUsed fact id + policy.symbolsUsed other id =
      policy.symbolsUsed (fact.merge other) id + policy.sharedSymbols fact other id := by
  rw [symbolsUsed_eq_countP, symbolsUsed_eq_countP, symbolsUsed_eq_countP, sharedSymbols_eq_countP]
  exact ImportUsage.countP_references_union _ _ _

/-- Facts share no symbols of a node exactly when no reference of both leads to it. -/
theorem sharedSymbols_eq_zero_iff {policy : Policy} {fact other : Fact} {id : String} :
    policy.sharedSymbols fact other id = 0 ↔
      ∀ path symbol, policy.leadsTo id path = true →
        ¬(fact.usage.Uses path symbol ∧ other.usage.Uses path symbol) := by
  rw [sharedSymbols_eq_countP, List.countP_eq_zero]
  simp only [Prod.forall, ImportUsage.mem_references, Bool.and_eq_true, List.contains_iff_mem]
  tauto

/-! ### Dependencies of more facts -/

theorem dependency_append (policy : Policy) (facts more : List Fact) (source destination : String) :
    policy.dependency (facts ++ more) source destination =
      policy.dependency facts source destination + policy.dependency more source destination := by
  unfold dependency members
  rw [List.filter_append, List.map_append, List.sum_append]

/-- A single fact depends on a node by the symbols that it uses of it, if it counts for the source.
-/
theorem dependency_singleton (policy : Policy) (fact : Fact) (source destination : String) :
    policy.dependency [fact] source destination =
      if Draft.omits policy fact = false ∧ policy.effectiveId fact.directory = source then
        policy.symbolsUsed fact destination
      else 0 := by
  unfold dependency members Draft.omits
  by_cases hmember : policy.isExcluded (Path.qualify policy.moduleRoot fact.directory) = false ∧
      policy.effectiveId fact.directory = source
  · rw [if_pos hmember, List.filter_cons_of_pos (by simp [hmember])]
    simp
  · rw [if_neg hmember, List.filter_cons_of_neg (by simpa using hmember)]
    rfl

/-- **Two facts on one directory** depend on a node as much as the fact that they merge into, and
once more by what they share. -/
theorem dependency_pair (policy : Policy) {fact other : Fact}
    (hdirectory : other.directory = fact.directory) (source destination : String) :
    policy.dependency [fact, other] source destination =
      policy.dependency [fact.merge other] source destination +
        if Draft.omits policy fact = false ∧ policy.effectiveId fact.directory = source then
          policy.sharedSymbols fact other destination
        else 0 := by
  have homits : Draft.omits policy other = Draft.omits policy fact := by
    unfold Draft.omits
    rw [hdirectory]
  have homits' : Draft.omits policy (fact.merge other) = Draft.omits policy fact := rfl
  -- the three facts have one directory, so they count for the same source or none of them does
  have hpair : [fact, other] = [fact] ++ [other] := rfl
  rw [hpair, dependency_append, dependency_singleton, dependency_singleton, dependency_singleton,
    hdirectory, homits, homits', Fact.merge_directory]
  split
  · exact symbolsUsed_merge policy fact other destination
  · rfl

end Policy

namespace Draft

/-- The weight between two nodes, zero if there is none. -/
def weight (draft : Draft) (source destination : String) : Nat :=
  (draft.weights.get? (source, destination)).getD 0

/-- **The weight between two nodes** is their dependency, and none leads from a node to itself. -/
theorem weight_ofFacts (policy : Policy) (facts : List Fact) (source destination : String) :
    (ofFacts policy facts).weight source destination =
      if source = destination then 0 else policy.dependency facts source destination := by
  rw [weight, get?_weights_ofFacts]
  by_cases hloop : source = destination
  · simp [hloop]
  · by_cases hpos : 0 < policy.dependency facts source destination
    · simp [hloop, hpos]
    · -- a dependency of zero is not kept
      have hzero := Nat.eq_zero_of_not_pos hpos
      simp [hzero]

/-- No weight of a draft is zero, so that its weights are determined by the numbers. -/
theorem weights_eq_iff {policy : Policy} {facts facts' : List Fact} :
    (ofFacts policy facts).weights = (ofFacts policy facts').weights ↔
      ∀ source destination, (ofFacts policy facts).weight source destination =
        (ofFacts policy facts').weight source destination := by
  constructor
  · intro h source destination
    unfold weight
    rw [h]
  · intro h
    refine Map.ext fun ⟨source, destination⟩ => ?_
    -- a pair has a weight exactly if its number is positive
    have hends := h source destination
    rw [weight_ofFacts, weight_ofFacts] at hends
    rw [get?_weights_ofFacts, get?_weights_ofFacts]
    by_cases hloop : source = destination
    · simp [hloop]
    · rw [if_neg hloop, if_neg hloop] at hends
      rw [hends]

/-- Two facts on one directory, added after others, weigh what the merged fact weighs and once more
what they share. -/
theorem weight_append_pair (policy : Policy) (facts : List Fact) {fact other : Fact}
    (hdirectory : other.directory = fact.directory) (source destination : String) :
    (ofFacts policy (facts ++ [fact, other])).weight source destination =
      (ofFacts policy (facts ++ [fact.merge other])).weight source destination +
        if omits policy fact = false ∧ policy.effectiveId fact.directory = source ∧
            source ≠ destination then
          policy.sharedSymbols fact other destination
        else 0 := by
  rw [weight_ofFacts, weight_ofFacts, Policy.dependency_append, Policy.dependency_append,
    Policy.dependency_pair policy hdirectory]
  by_cases hloop : source = destination
  · simp [hloop]
  · simp [hloop, Nat.add_assoc]

/-- **What merging changes.** Add two facts on one directory to a draft, after any facts. Between
every two nodes the weight is what it would be if they had been merged first, and in addition the
number of symbols that both of them use, over all import paths of both that lead from their node to
the other one and are not left out. Between other nodes the weights are the same. So the two ways
give the same weights exactly when no symbol of an import that counts is used by both facts. -/
theorem weight_merge (policy : Policy) (facts : List Fact) {fact other : Fact}
    (hdirectory : other.directory = fact.directory) :
    (∀ source destination,
      (ofFacts policy (facts ++ [fact, other])).weight source destination =
        (ofFacts policy (facts ++ [fact.merge other])).weight source destination +
          if omits policy fact = false ∧ policy.effectiveId fact.directory = source ∧
              source ≠ destination then
            policy.sharedSymbols fact other destination
          else 0) ∧
    ((ofFacts policy (facts ++ [fact, other])).weights =
        (ofFacts policy (facts ++ [fact.merge other])).weights ↔
      ∀ path symbol, policy.KeepsImport fact path →
        ¬(fact.usage.Uses path symbol ∧ other.usage.Uses path symbol)) := by
  refine ⟨weight_append_pair policy facts hdirectory, ?_⟩
  rw [weights_eq_iff]
  constructor
  · rintro hsame path symbol ⟨hkept, destination, hne, hleads⟩
    -- the weight to the node that the import leads to leaves nothing for shared symbols
    have hshared : policy.sharedSymbols fact other destination = 0 := by
      have hends := weight_append_pair policy facts hdirectory
        (policy.effectiveId fact.directory) destination
      rw [if_pos ⟨hkept, rfl, hne.symm⟩, hsame] at hends
      omega
    exact Policy.sharedSymbols_eq_zero_iff.1 hshared path symbol hleads
  · intro hnone source destination
    rw [weight_append_pair policy facts hdirectory]
    split
    · next hends =>
      -- the source is the node of the facts, and what they share of the destination counts
      obtain ⟨hkept, rfl, hne⟩ := hends
      have hshared : policy.sharedSymbols fact other destination = 0 :=
        Policy.sharedSymbols_eq_zero_iff.2 fun path symbol hleads =>
          hnone path symbol ⟨hkept, destination, hne.symm, hleads⟩
      rw [hshared, Nat.add_zero]
    · rfl

/-- Two facts on a member of a group, after a third one. They share two symbols of an import that
counts and one of an import that stays in the group. -/
theorem weight_merge_group :
    let policy : Policy := ⟨"mod", ["lib"], .ofList ["mod/old"], .empty⟩
    let facts := [(Fact.ofName "a" "lib/a").withUsage "mod/log" ["Z"]]
    let fact := (((Fact.ofName "a" "lib/a").withUsage "mod/log" ["X", "Y", "Z"]).withUsage
      "mod/log/" ["V"]).withUsage "mod/lib/b" ["B"]
    let other := (((Fact.ofName "b" "lib/a").withUsage "mod/log" ["W", "X", "Y"]).withUsage
      "mod/old" ["O"]).withUsage "mod/lib/b" ["B"]
    other.directory = fact.directory ∧
      (ofFacts policy (facts ++ [fact, other])).weight "mod/lib" "mod/log" =
        (ofFacts policy (facts ++ [fact.merge other])).weight "mod/lib" "mod/log" + 2 ∧
      (ofFacts policy (facts ++ [fact, other])).weight "mod/lib" "mod/log" = 8 := by
  intro policy facts fact other
  have hdirectory : other.directory = fact.directory := by decide +kernel
  have hshared : policy.sharedSymbols fact other "mod/log" = 2 := by decide +kernel
  have hweight := (weight_merge policy facts hdirectory).1 "mod/lib" "mod/log"
  rw [if_pos (by decide +kernel), hshared] at hweight
  exact ⟨hdirectory, hweight, by decide +kernel⟩

end Draft

end PackageGraph
