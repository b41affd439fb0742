import PackageGraph.Config
import PackageGraph.Graph.Draft
import PackageGraph.Manifest
import PackageGraph.Sources

/-!
# Analysis

From a project on a disk to the model of its packages. The manifest is looked at first, then the
rules of the policy, then the sources, so that rules that cannot hold are refused whatever the
sources contain.

## Main definitions

* `Analysis.model`: the model of a project.
* `Analysis.Failure`: which of the stages failed, and why.
-/

namespace PackageGraph.Analysis

/-- The stage of an analysis that failed, with its reason. -/
inductive Failure where
  | manifest (failure : Manifest.Failure)
  | rules (error : RuleError)
  | sources (failure : Sources.Failure)
deriving DecidableEq, Inhabited

/-- The wording of a configuration that is refused, for some reason. -/
def invalidConfiguration (reason : String) : String := "invalid configuration: " ++ reason

/-- The wording of a failure. -/
def Failure.message : Failure → String
  | .manifest failure => failure.message
  | .rules error => invalidConfiguration error.message
  | .sources failure => failure.message

/-- The policy of a project. -/
def policy (disk : Disk) (project : String) (config : Config) : Except Failure Policy := do
  let moduleRoot ← (Manifest.moduleRoot disk project).mapError .manifest
  (Policy.ofRules config.rules moduleRoot disk project).mapError .rules

/-- The model of a project. -/
def model (disk : Disk) (project : String) (config : Config) (filters : Filters) :
    Except Failure Model := do
  let policy ← policy disk project config
  let facts ← (Sources.facts disk project config.scan filters).mapError .sources
  return Model.build policy facts

end PackageGraph.Analysis
