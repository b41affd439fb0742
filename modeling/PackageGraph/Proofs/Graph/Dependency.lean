import PackageGraph.Graph.Draft
import PackageGraph.Proofs.Sorted.Gather

/-!
# How much one node uses another

`Policy.dependency` counts, straight from the facts, the symbols that the packages of one node use
of the packages of another: a sum over packages and, inside it, a sum over imports. The builder
arrives at its weights differently, by accumulating import after import in a map. Both are related
through the list of all relations that the imports make, in the order of the facts:

* the weights of a draft are the tally of that list (`Draft.weights_ofFacts`);
* its part between two nodes weighs what the double sum says (`Policy.weigh_relations`).

The second statement is about two policies that differ in their grouping alone, because the edges
of the collapsed graph are also to be weighed on the graph that is not collapsed.
-/

namespace PackageGraph

open Sorted

namespace Policy

/-! ### The double sum -/

/-- The packages that the node of an identifier stands for, without those that are left out. -/
def members (policy : Policy) (facts : List Fact) (id : String) : List Fact :=
  facts.filter fun fact =>
    !policy.isExcluded (Path.qualify policy.moduleRoot fact.directory) &&
      policy.effectiveId fact.directory = id

/-- Does an import path lead, inside the module, to a package of the node of an identifier that is
not left out? -/
def leadsTo (policy : Policy) (id importPath : String) : Bool :=
  match Path.relativeTo? policy.moduleRoot importPath with
  | none => false
  | some relative =>
    policy.effectiveId (Path.normalize relative) = id &&
      !policy.isExcluded (Path.qualify policy.moduleRoot (Path.normalize relative))

/-- The number of symbols that a package uses of the packages of a node. -/
def symbolsUsed (policy : Policy) (fact : Fact) (id : String) : Nat :=
  ((fact.usage.entries.filter fun entry => policy.leadsTo id entry.1).map fun entry =>
    entry.2.size).sum

/-- The number of symbols that the packages of one node use of the packages of another. -/
def dependency (policy : Policy) (facts : List Fact) (source destination : String) : Nat :=
  ((policy.members facts source).map fun fact => policy.symbolsUsed fact destination).sum

/-- The members of a node are its packages that are not left out. -/
theorem mem_members {policy : Policy} {facts : List Fact} {id : String} {fact : Fact} :
    fact ∈ policy.members facts id ↔
      fact ∈ facts ∧ Draft.omits policy fact = false ∧ policy.effectiveId fact.directory = id := by
  simp [members, Draft.omits]

/-! ### Relations -/

/-- The relation that an import of the node `source` makes, with its weight. -/
def relation? (policy : Policy) (source : String) (entry : String × Sorted.Set String) :
    Option ((String × String) × Nat) :=
  match policy.destination? source entry.1 with
  | none => none
  | some destination =>
    if entry.2.isEmpty then none else some ((source, destination), entry.2.size)

/-- The relations that the imports of a package make, in the order of the import paths. -/
def relations (policy : Policy) (fact : Fact) : List ((String × String) × Nat) :=
  if Draft.omits policy fact then []
  else fact.usage.entries.flatMap fun entry =>
    (policy.relation? (policy.effectiveId fact.directory) entry).toList

/-- An import leads to another node of the module, by way of a package that is not left out. -/
theorem destination?_eq_some {policy : Policy} {source importPath destination : String} :
    policy.destination? source importPath = some destination ↔
      ∃ relative, Path.relativeTo? policy.moduleRoot importPath = some relative ∧
        policy.effectiveId (Path.normalize relative) = destination ∧ source ≠ destination ∧
        policy.isExcluded (Path.qualify policy.moduleRoot (Path.normalize relative)) = false := by
  rw [destination?, Option.bind_eq_bind, Option.bind_eq_some_iff]
  refine exists_congr fun relative => and_congr_right fun _ => ?_
  dsimp only
  split
  · -- the import counts for nothing, since one of the two conditions fails
    next hnot =>
    refine iff_of_false nofun ?_
    rintro ⟨rfl, hne, hkept⟩
    rw [hkept, Bool.or_false, decide_eq_true_eq] at hnot
    exact hne hnot.symm
  · next hcounts =>
    rw [Bool.not_eq_true, Bool.or_eq_false_iff, decide_eq_false_iff_not] at hcounts
    obtain ⟨hne, hkept⟩ := hcounts
    constructor
    · intro h
      obtain rfl := Option.some.inj h
      exact ⟨rfl, Ne.symm hne, hkept⟩
    · exact fun h => congrArg some h.1

/-- **The relations of a package**: it is not left out, and one of its imports leads to another node
and uses a symbol. -/
theorem mem_relations {policy : Policy} {fact : Fact} {item : (String × String) × Nat} :
    item ∈ policy.relations fact ↔
      Draft.omits policy fact = false ∧ ∃ entry ∈ fact.usage.entries, ∃ destination,
        policy.destination? (policy.effectiveId fact.directory) entry.1 = some destination ∧
        0 < entry.2.size ∧
        item = ((policy.effectiveId fact.directory, destination), entry.2.size) := by
  have hentry (entry : String × Sorted.Set String) (source : String) :
      item ∈ (policy.relation? source entry).toList ↔
        ∃ destination, policy.destination? source entry.1 = some destination ∧
          0 < entry.2.size ∧ item = ((source, destination), entry.2.size) := by
    rw [Option.mem_toList, relation?]
    cases policy.destination? source entry.1 with
    | none => simp
    | some destination =>
      by_cases hempty : entry.2.isEmpty = true
      · simp [hempty, Set.isEmpty_iff.1 hempty]
      · have hpos : 0 < entry.2.size := Nat.pos_of_ne_zero fun h => hempty (Set.isEmpty_iff.2 h)
        simp [hempty, hpos, eq_comm]
  rw [relations]
  cases Draft.omits policy fact with
  | true => simp
  | false => simp only [Bool.false_eq_true, if_false, List.mem_flatMap, hentry, true_and]

end Policy

namespace Draft

/-- To add an import is to add the relation that it makes. -/
theorem addImport_eq (policy : Policy) (source : String) (weights : Map (String × String) Nat)
    (entry : String × Sorted.Set String) :
    addImport policy source weights entry =
      (policy.relation? source entry).toList.foldl Map.add weights := by
  rw [addImport, Policy.relation?]
  cases policy.destination? source entry.1 with
  | none => rfl
  | some destination =>
    dsimp only
    split <;> rfl

/-- To add a package is to add the relations of its imports. -/
theorem weights_add (policy : Policy) (draft : Draft) (fact : Fact) :
    (add policy draft fact).weights = (policy.relations fact).foldl Map.add draft.weights := by
  rw [add, Policy.relations]
  split
  · rfl
  · rw [List.foldl_flatMap]
    exact List.foldl_ext _ _ _ fun weights entry _ => addImport_eq policy _ weights entry

/-- **The weights of a draft are the tally of all relations.** -/
theorem weights_ofFacts (policy : Policy) (facts : List Fact) :
    (ofFacts policy facts).weights = Map.tally (facts.flatMap policy.relations) := by
  suffices h : ∀ draft : Draft, (facts.foldl (add policy) draft).weights =
      (facts.flatMap policy.relations).foldl Map.add draft.weights from h empty
  induction facts with
  | nil => exact fun _ => rfl
  | cons fact facts ih =>
    intro draft
    rw [List.foldl_cons, ih, List.flatMap_cons, List.foldl_append, weights_add]

end Draft

/-! ### Weighing relations -/

section Weigh

variable {base policy : Policy} {source destination : String} {p : String × String → Bool}

/-- What is not picked adds zero to a sum. -/
theorem sum_map_ite_zero {α : Type} (q : α → Bool) (f : α → Nat) (l : List α) :
    (l.map fun a => if q a = true then f a else 0).sum = ((l.filter q).map f).sum := by
  rw [List.sum_map_ite]
  simp

/-- What one import adds to the relations that `p` picks. An import that does not leave its node
has no relation; it is not between `source` and `destination` either, as these differ. -/
private theorem weigh_relation? (hroot : base.moduleRoot = policy.moduleRoot)
    (hexcluded : base.excluded = policy.excluded) (hne : source ≠ destination)
    (hp : ∀ d d', p (base.effectiveId d, base.effectiveId d') = true ↔
      policy.effectiveId d = source ∧ policy.effectiveId d' = destination)
    (directory : String) (entry : String × Sorted.Set String) :
    Map.weigh p (base.relation? (base.effectiveId directory) entry).toList =
      if policy.effectiveId directory = source ∧ policy.leadsTo destination entry.1 = true then
        entry.2.size
      else 0 := by
  rw [Policy.relation?, Policy.destination?, Policy.leadsTo, ← hroot]
  cases hrelative : Path.relativeTo? base.moduleRoot entry.1 with
  | none => simp
  | some relative =>
    -- the policies leave out the same packages
    have hsame : base.isExcluded = policy.isExcluded := by
      funext id
      rw [Policy.isExcluded, Policy.isExcluded, hexcluded]
    simp only [Option.bind_eq_bind, Option.bind_some, hsame]
    by_cases hout : policy.isExcluded
        (Path.qualify base.moduleRoot (Path.normalize relative)) = true
    · simp [hout]
    · rw [Bool.not_eq_true] at hout
      by_cases hloop :
          base.effectiveId (Path.normalize relative) = base.effectiveId directory
      · -- if the import led from `source` to `destination`, these would be one node
        have hnot : ¬(policy.effectiveId directory = source ∧
            policy.effectiveId (Path.normalize relative) = destination) := by
          intro h
          have hpick := (hp directory (Path.normalize relative)).2 h
          rw [hloop] at hpick
          exact hne (h.1.symm.trans ((hp directory directory).1 hpick).2)
        simp [hloop, hout, hnot]
      · simp only [hloop, hout, decide_false, Bool.or_false, Bool.false_eq_true, if_false,
          Bool.not_false, Bool.and_true, decide_eq_true_eq]
        -- the import counts if it uses a symbol, and without symbols it has the size zero
        by_cases hempty : entry.2.isEmpty = true
        · simp [hempty, Set.isEmpty_iff.1 hempty]
        · simp only [hempty, Bool.false_eq_true, if_false, Option.toList_some, Map.weigh_cons,
            Map.weigh_nil, Nat.add_zero, hp]

/-- **The double sum is a weight of the relations.** It may be read off the relations of a policy
that groups otherwise, as long as `p` says which of them become relations between `source` and
`destination`. -/
theorem Policy.weigh_relations (base policy : Policy) (p : String × String → Bool)
    (hroot : base.moduleRoot = policy.moduleRoot) (hexcluded : base.excluded = policy.excluded)
    (hne : source ≠ destination)
    (hp : ∀ d d', p (base.effectiveId d, base.effectiveId d') = true ↔
      policy.effectiveId d = source ∧ policy.effectiveId d' = destination)
    (facts : List Fact) :
    Map.weigh p (facts.flatMap base.relations) = policy.dependency facts source destination := by
  rw [Map.weigh_flatMap, Policy.dependency, Policy.members]
  have hfact : ∀ fact : Fact, Map.weigh p (base.relations fact) =
      if (!policy.isExcluded (Path.qualify policy.moduleRoot fact.directory) &&
        policy.effectiveId fact.directory = source) = true then
        policy.symbolsUsed fact destination
      else 0 := by
    intro fact
    rw [Policy.relations, Draft.omits, Policy.isExcluded, hexcluded, hroot, ← Policy.isExcluded]
    by_cases hout : policy.isExcluded (Path.qualify policy.moduleRoot fact.directory) = true
    · simp [hout]
    · rw [Bool.not_eq_true] at hout
      rw [hout, if_neg Bool.false_ne_true, Map.weigh_flatMap]
      simp only [weigh_relation? hroot hexcluded hne hp, Bool.not_false, Bool.true_and,
        decide_eq_true_eq]
      -- a package of another node makes relations, but `p` picks none of them
      by_cases hsource : policy.effectiveId fact.directory = source
      · simp only [hsource, true_and, if_true]
        exact sum_map_ite_zero ..
      · simp [hsource]
  simp only [hfact]
  exact sum_map_ite_zero ..

end Weigh

end PackageGraph
