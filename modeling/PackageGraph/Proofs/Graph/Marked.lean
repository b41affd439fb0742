import PackageGraph.Proofs.Graph.Edge
import PackageGraph.Proofs.Policy.Rearranged

/-!
# The marks of a graph

Forbidden rules decide which edges of a graph are marked, and nothing else about it. Two policies
that differ in their forbidden rules build the same draft, since the rules are read only when the
draft is finished; without its marks, a graph is therefore that of the policy which forbids nothing
(`Model.unmarked_ofFacts`). A mark says that some rule names the ends of the edge
(`Model.build_marked`).

A target that is blank names nothing, not even the identifier of a module whose root is the empty
text (`Model.blank_target_unmarked`).
-/

namespace PackageGraph

open Sorted

/-! ### Graphs without marks -/

/-- The edge without its mark. -/
def Edge.unmarked (edge : Edge) : Edge := { edge with forbidden := false }

/-- The graph without the marks of its edges. -/
def Model.unmarked (model : Model) : Model :=
  { model with edgeMap := model.edgeMap.mapValues fun _ edge => edge.unmarked }

/-- An edge is marked exactly when one of the rules names its ends. -/
def Model.MarkedBy (forbidden : List ForbiddenRule) (model : Model) : Prop :=
  ∀ edge ∈ model.edges, edge.forbidden = true ↔
    ∃ rule ∈ forbidden, rule.Names edge.source edge.destination

namespace Policy

/-- The same policy, which forbids nothing. -/
def permissive (policy : Policy) : Policy := { policy with forbidden := .empty }

variable {rules : PolicyRules} {forbidden : List ForbiddenRule} {moduleRoot project : String}
  {disk : Disk} {policy policy' : Policy}

/-- Rules that differ in the forbidden relations alone make policies that differ in these alone. -/
theorem permissive_eq_of_ofRules (h : ofRules rules moduleRoot disk project = .ok policy)
    (h' : ofRules { rules with forbidden } moduleRoot disk project = .ok policy') :
    policy'.permissive = policy.permissive := by
  obtain ⟨grouping, below, table, hgrouping, hbelow, -, rfl⟩ := ofRules_eq_ok.1 h
  obtain ⟨grouping', below', table', hgrouping', hbelow', -, rfl⟩ := ofRules_eq_ok.1 h'
  -- the grouping and the exclusions were checked from the same rules
  obtain rfl : grouping = grouping' := Except.ok.inj (hgrouping.symm.trans hgrouping')
  obtain rfl : below = below' := Except.ok.inj (hbelow.symm.trans hbelow')
  rfl

end Policy

/-- **Forbidden relations do not enter a draft.** -/
theorem Draft.ofFacts_permissive (policy : Policy) (facts : List Fact) :
    ofFacts policy.permissive facts = ofFacts policy facts := rfl

namespace Model

/-- **Without its marks, a graph is that of a policy which forbids nothing.** -/
theorem unmarked_ofFacts (policy : Policy) (facts : List Fact) :
    (ofFacts policy facts).unmarked = ofFacts policy.permissive facts := by
  have hedges : (ofFacts policy facts).unmarked.edgeMap =
      (ofFacts policy.permissive facts).edgeMap := by
    refine Map.ext fun ends => ?_
    unfold unmarked ofFacts Draft.finish
    rw [Map.get?_mapValues, Map.get?_mapValues, Map.get?_mapValues, Option.map_map,
      Draft.ofFacts_permissive]
    rfl
  -- nodes and ranks are taken over from the draft as they are
  exact congrArg (Model.mk policy.moduleRoot (ofFacts policy facts).nodeMap ·
    (ofFacts policy facts).rankMap) hedges

section Rules

variable {rules : PolicyRules} {moduleRoot project : String} {disk : Disk} {policy : Policy}

/-- The edges of a graph are marked by the rules of its policy. -/
theorem markedBy_build (h : Policy.ofRules rules moduleRoot disk project = .ok policy)
    (facts : FactSet) : (build policy facts).MarkedBy rules.forbidden := by
  intro edge hedge
  -- the mark of an edge is what the policy says of its ends
  have hmark : edge.forbidden = policy.isForbidden edge.source edge.destination := by
    have hfound := mem_edges_ofFacts.1 hedge
    rw [edge?_ofFacts] at hfound
    split at hfound
    · rw [← Option.some.inj hfound]
    · cases hfound
  rw [hmark, Policy.isForbidden_ofRules h]

/-- **Forbidden rules only mark edges.** Take two lists of forbidden rules that are accepted along
with the same other rules. The graphs of any facts are the same without their marks: they have the
same nodes and ranks, and edges between the same ends with the same weights. In either graph an edge
is marked exactly when a rule names its ends. If one list is the other one written otherwise, the
graphs are the same with their marks, too. -/
theorem build_marked {forbidden : List ForbiddenRule} {policy' : Policy}
    (h : Policy.ofRules rules moduleRoot disk project = .ok policy)
    (h' : Policy.ofRules { rules with forbidden } moduleRoot disk project = .ok policy')
    (facts : FactSet) :
    (build policy' facts).unmarked = (build policy facts).unmarked ∧
      (build policy facts).MarkedBy rules.forbidden ∧
      (build policy' facts).MarkedBy forbidden ∧
      (ForbiddenRule.Rearranged rules.forbidden forbidden →
        build policy' facts = build policy facts) := by
  refine ⟨?_, markedBy_build h facts, markedBy_build h' facts, ?_⟩
  · -- both are the graph under the policy that forbids nothing
    rw [build, build, unmarked_ofFacts, unmarked_ofFacts, Policy.permissive_eq_of_ofRules h h']
  · -- rearranged rules make the same policy
    intro hrearranged
    rw [Policy.ofRules_rearranged hrearranged, h] at h'
    rw [Except.ok.inj h']

end Rules

/-- Blanks around a source and a target, a target that is blank, a package of a group, and targets
that are spread over two rules of which one is repeated. -/
theorem build_marked_spread :
    let rules : PolicyRules := ⟨["lib"], [], [], [⟨" mod/cmd", ["net", "\tmod/lib ", " "]⟩]⟩
    let forbidden : List ForbiddenRule :=
      [⟨" mod/cmd", ["net", " "]⟩, ⟨" mod/cmd", ["\tmod/lib "]⟩, ⟨" mod/cmd", ["net", " "]⟩]
    let facts := FactSet.ofList
      [((Fact.ofName "main" "cmd").withUsage "mod/lib/a" ["A", "B"]).withUsage "mod/log" ["L"],
        Fact.ofName "a" "lib/a"]
    ∃ policy policy' : Policy,
      Policy.ofRules rules "mod" ⟨.directory [], []⟩ "" = .ok policy ∧
      Policy.ofRules { rules with forbidden } "mod" ⟨.directory [], []⟩ "" = .ok policy' ∧
      ForbiddenRule.Rearranged rules.forbidden forbidden ∧
      (build policy facts).edges.map Edge.forbidden = [true, false] ∧
      build policy' facts = build policy facts := by
  intro rules forbidden facts
  have hpolicy : Policy.ofRules rules "mod" ⟨.directory [], []⟩ "" =
      .ok ⟨"mod", ["lib"], .empty, Map.insert .empty "mod/cmd" (.ofList ["mod/lib", "net"])⟩ := by
    rfl
  have hpolicy' : Policy.ofRules { rules with forbidden } "mod" ⟨.directory [], []⟩ "" =
      .ok ⟨"mod", ["lib"], .empty, Map.insert .empty "mod/cmd" (.ofList ["mod/lib", "net"])⟩ := by
    rfl
  -- the targets are spread over two rules, and then the first rule is repeated at the end
  have hspread : ForbiddenRule.Rearranged rules.forbidden
      [⟨" mod/cmd", ["net", " "]⟩, ⟨" mod/cmd", ["\tmod/lib "]⟩] :=
    .spread (List.cons_ne_nil ["net", " "] [["\tmod/lib "]]) (by simp; tauto)
  have hrepeated : ForbiddenRule.Rearranged
      [⟨" mod/cmd", ["net", " "]⟩, ⟨" mod/cmd", ["\tmod/lib "]⟩]
      (⟨" mod/cmd", ["net", " "]⟩ :: [⟨" mod/cmd", ["net", " "]⟩, ⟨" mod/cmd", ["\tmod/lib "]⟩]) :=
    .repeated List.mem_cons_self
  have hrearranged : ForbiddenRule.Rearranged rules.forbidden forbidden :=
    (hspread.trans hrepeated).trans (.reordered (by decide +kernel))
  exact ⟨_, _, hpolicy, hpolicy', hrearranged, by decide +kernel,
    (build_marked hpolicy hpolicy' facts).2.2.2 hrearranged⟩

/-- **A blank target names nothing.** If the root of a module is the empty text, then so is the
identifier of its root package; an edge to it is not marked, although a rule has its source and a
target that is blank. -/
theorem blank_target_unmarked :
    ∃ policy : Policy,
      Policy.ofRules ⟨[], [], [], [⟨"/a", [" "]⟩]⟩ "" ⟨.directory [], []⟩ "" = .ok policy ∧
      ∃ edge ∈ (build policy (.ofList [(Fact.ofName "a" "a").withUsage "" ["X"]])).edges,
        edge.forbidden = false ∧
          ∃ rule ∈ ([⟨"/a", [" "]⟩] : List ForbiddenRule),
            Policy.trimmed rule.source = edge.source ∧
              edge.destination ∈ rule.targets.map Policy.trimmed :=
  ⟨⟨"", [], .empty, Map.insert .empty "/a" .empty⟩, by rfl, by decide +kernel⟩

end Model

end PackageGraph
