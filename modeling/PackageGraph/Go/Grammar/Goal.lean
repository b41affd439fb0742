import PackageGraph.Go.Parse

/-!
# Goals of the grammar

Expressions, types, statements and blocks contain each other. The rules for each are written
against a reader for all of them, `Recur`, which is tied to the rules themselves at the end. So
every rule is a plain function, and the depth of nesting is bounded in one place only.

## Main definitions

* `Operand`: what was read where a value or a type may stand.
* `Goal` and `Recur`: what can be asked for, and a reader for it.
-/

namespace PackageGraph.Go

open PackageGraph.Parser Parse

/-- What a literal body in braces may follow. -/
inductive BodyRule where
  | never
  /-- A type that is given by its name, which in front of a block has no body. -/
  | afterName
  /-- A type that is spelled out. -/
  | afterType
deriving DecidableEq, Inhabited

/-- What stands where a value or a type is expected. Until the end is read it may be either. -/
structure Operand where
  tree : Tree
  isValue : Bool
  isType : Bool
  body : BodyRule
deriving Inhabited

namespace Operand

/-- An operand that can only be a value. -/
def value (tree : Tree) : Operand := ⟨tree, true, false, .never⟩

/-- An operand that can only be a type. -/
def type (tree : Tree) (body : BodyRule) : Operand := ⟨tree, false, true, body⟩

end Operand

/-- Forms that can contain each other at any depth. -/
inductive Goal where
  | expression (context : Context)
  | type (context : Context)
  | block
  | body
  | statement
deriving Inhabited

/-- What reading a form gives. -/
@[reducible] def Goal.Result : Goal → Type
  | .expression _ => Operand
  | .type _ => Tree
  | .block => Tree
  | .body => Tree
  | .statement => Tree

/-- A reader for all forms. -/
abbrev Recur := (goal : Goal) → Parse goal.Result

namespace Recur

/-- A value or a type. -/
def operand (recur : Recur) (context : Context) : Parse Operand := recur (.expression context)

/-- An expression, which stands for a value. -/
def value (recur : Recur) (context : Context) : Parse Tree := do
  let operand ← recur.operand context
  if operand.isValue then return operand.tree else failure

/-- One or more expressions. -/
def values (recur : Recur) (context : Context) : Parse (List Tree) := do
  let first ← recur.value context
  let rest ← many do
    stays context
    mark ","
    recur.value context
  return first :: rest

def type (recur : Recur) (context : Context) : Parse Tree := recur (.type context)

/-- Statements in braces. -/
def block (recur : Recur) : Parse Tree := recur .block

/-- The elements of a literal in braces. -/
def body (recur : Recur) : Parse Tree := recur .body

def statement (recur : Recur) : Parse Tree := recur .statement

end Recur

end PackageGraph.Go
