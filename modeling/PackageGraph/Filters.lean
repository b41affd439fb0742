import PackageGraph.Glob.Match

/-!
# Path filters

Which files of a project are looked at: those that match one of the patterns to include, if there
are any, and none of the patterns to exclude.
-/

namespace PackageGraph

/-- The lists of patterns that the user gives. -/
inductive FilterList where
  | include
  | exclude
deriving DecidableEq, Inhabited

/-- The name of a list of patterns. -/
def FilterList.name : FilterList → String
  | .include => "include"
  | .exclude => "exclude"

/-- A text in one of the lists that is no pattern. -/
structure FilterError where
  list : FilterList
  pattern : String
  reason : Glob.Error
deriving DecidableEq, Inhabited

/-- The wording of a filter error. -/
def FilterError.message (error : FilterError) : String :=
  "invalid --" ++ error.list.name ++ " glob `" ++ error.pattern ++ "`: error parsing glob '" ++
    error.pattern ++ "': " ++ error.reason.message

/-- Patterns for the paths of files. -/
structure Filters where
  /-- If given, a path has to match one of these. -/
  included : Option (List Glob)
  /-- A path must not match any of these. -/
  excluded : List Glob
deriving Inhabited

namespace Filters

/-- No filters. -/
def none : Filters := ⟨.none, []⟩

/-- The patterns of a list, or its first text that is no pattern. -/
def readList (list : FilterList) (patterns : List String) : Except FilterError (List Glob) :=
  patterns.mapM fun pattern =>
    (Glob.ofText .plain pattern).mapError fun reason => ⟨list, pattern, reason⟩

/-- The filters of two lists of patterns. Without patterns to include, every path is included. -/
def ofPatterns (included excluded : List String) : Except FilterError Filters := do
  let included ← if included.isEmpty then pure .none else some <$> readList .include included
  return ⟨included, ← readList .exclude excluded⟩

/-- Does one of the patterns match? -/
def anyMatches (globs : List Glob) (path : String) : Bool :=
  globs.any fun glob => glob.isMatch .plain path

/-- Is a file with this path looked at? -/
def allows (filters : Filters) (path : String) : Bool :=
  (match filters.included with
    | .none => true
    | some globs => anyMatches globs path) &&
  !anyMatches filters.excluded path

@[simp] theorem allows_none (path : String) : none.allows path = true := rfl

theorem ofPatterns_nil : ofPatterns [] [] = .ok none := rfl

end Filters

end PackageGraph
