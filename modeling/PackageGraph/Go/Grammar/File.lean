import PackageGraph.Go.Grammar.Statement

/-!
# Source files

A file is a list of declarations and statements. The rules of the grammar are tied together here.

## Main definitions

* `Grammar.read`: the reader for all goals, with a bound on the depth of nesting.
* `Tree.ofSource?`: the tree of a source, or `none` if the source has a syntax error.
-/

namespace PackageGraph.Go

open PackageGraph.Parser Parse

namespace Grammar

/-- The rule for each goal. -/
def rule (recur : Recur) : (goal : Goal) → Parse goal.Result
  | .expression context => operand recur context
  | .type context => type recur context
  | .block => block recur
  | .body => body recur
  | .statement => statement recur

/-- Read a goal whose parts are not nested more deeply than a bound. -/
def read : (depth : Nat) → Recur
  | 0 => fun _ => failure
  | depth + 1 => rule (read depth)

/-- A declaration or a statement at the top of a file. -/
def fileItem (recur : Recur) : Parse Tree := do
  let first ← peek
  match first.kind, first.text with
  | .keyword, "package" => packageClause
  | .keyword, "import" => importDeclaration
  | .keyword, "func" => function recur <|> methodDeclaration recur <|> recur.statement
  | _, _ => recur.statement

/-- A whole file. -/
def file (recur : Recur) : Parse Tree :=
  return .ofForm .file (← statementsUntil (fileItem recur) atEnd)

end Grammar

/-- The tree of a source. Between two goals at most one more is passed without reading a token, so
the number of tokens bounds the depth of nesting. -/
def Tree.ofSource? (source : String) : Option Tree := do
  let tokens ← tokens? source.toList
  readAll? (Grammar.file (Grammar.read (4 * tokens.length + 8))) tokens

end PackageGraph.Go
