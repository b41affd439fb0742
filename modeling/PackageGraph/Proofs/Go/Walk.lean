import PackageGraph.Go.Cursor

/-!
# Walking a tree

A walk visits the nodes of a tree in preorder (`Cursor.walk_atRoot`), and these are the nodes at any
depth (`Tree.mem_preorder`).

A cursor in the middle of a walk still has to visit what is below its focus and what is to the right
of its way (`Cursor.upcoming`). Each step takes the focus off that list and nothing else
(`Cursor.upcoming_advance?`), and a walk is over when nothing but the focus is left on it.
-/

namespace PackageGraph.Go

/-! ### Nodes at any depth -/

namespace Tree

/-- The node is the tree itself, or stands somewhere in one of its children. -/
inductive Within (target : Tree) : Tree → Prop where
  | root : Within target target
  | child {label : Label} {children : List Tree} {child : Tree} :
    child ∈ children → Within target child → Within target (node label children)

theorem mem_preorderAll {target : Tree} {trees : List Tree} :
    target ∈ preorderAll trees ↔ ∃ tree ∈ trees, target ∈ tree.preorder := by
  induction trees with
  | nil => simp
  | cons tree trees ih => simp [ih]

/-- What is visited is in the tree. -/
theorem within_of_mem_preorder {target : Tree} : (tree : Tree) → target ∈ tree.preorder →
    Within target tree
  | node label children, h => by
    rw [preorder_node, List.mem_cons] at h
    rcases h with rfl | h
    · exact .root
    · -- the node is within one of the children, by recursion on that child
      obtain ⟨child, hchild, h⟩ := mem_preorderAll.1 h
      exact .child hchild (within_of_mem_preorder child h)

/-- **The preorder of a tree** goes through the nodes at any depth, and no others. -/
theorem mem_preorder {target tree : Tree} : target ∈ tree.preorder ↔ Within target tree := by
  refine ⟨within_of_mem_preorder tree, fun h => ?_⟩
  induction h with
  | root =>
    -- the root comes first
    cases target
    exact List.mem_cons_self
  | child hchild _ ih =>
    rw [preorder_node]
    exact List.mem_cons_of_mem _ (mem_preorderAll.2 ⟨_, hchild, ih⟩)

end Tree

/-! ### Steps of a walk -/

namespace Cursor

/-- The nodes to the right of a way, in the order of a walk. -/
def upcomingAbove : List Frame → List Tree
  | [] => []
  | frame :: above => Tree.preorderAll frame.after ++ upcomingAbove above

/-- The nodes that a walk from here visits, the focus first. -/
def upcoming (cursor : Cursor) : List Tree := cursor.focus.preorder ++ upcomingAbove cursor.above

/-- Climbing leads to the first node to the right, if there is one. -/
theorem upcoming_climb? (focus : Tree) (above : List Frame) :
    (climb? focus above).elim [] upcoming = upcomingAbove above := by
  induction above generalizing focus with
  | nil => simp [climb?, gotoNextSibling?, upcomingAbove]
  | cons frame above ih =>
    obtain ⟨label, before, after⟩ := frame
    rw [climb?]
    -- without a sibling to the right, climbing goes on from the parent
    cases after with
    | nil => simpa [gotoNextSibling?, upcomingAbove] using ih _
    | cons sibling after => simp [gotoNextSibling?, upcoming, upcomingAbove]

/-- **Each step takes one node off those to be visited**, and the walk is over when there is no
other. -/
theorem upcoming_advance? (cursor : Cursor) :
    cursor.upcoming = cursor.focus :: cursor.advance?.elim [] upcoming := by
  obtain ⟨⟨label, children⟩, above⟩ := cursor
  cases children with
  | nil =>
    have hclimb : advance? ⟨.node label [], above⟩ = climb? (.node label []) above := rfl
    rw [hclimb, upcoming_climb?, upcoming, Tree.preorder_node]
    rfl
  | cons child rest => simp [advance?, gotoFirstChild?, upcoming, upcomingAbove, Tree.preorder_node]

/-! ### Whole walks -/

/-- A walk visits what is to be visited, in order. -/
theorem walk_eq {α : Type} (visit : α → Tree → α) (start : α) (cursor : Cursor) :
    cursor.walk visit start = cursor.upcoming.foldl visit start := by
  induction start, cursor using walk.induct visit with
  | case1 start cursor hstep =>
    rw [walk, upcoming_advance?, hstep]
    rfl
  | case2 start cursor visited next hstep ih =>
    rw [walk, upcoming_advance?, hstep]
    exact ih

/-- **A walk from the root visits the tree in preorder.** -/
theorem walk_atRoot {α : Type} (visit : α → Tree → α) (start : α) (tree : Tree) :
    (atRoot tree).walk visit start = tree.preorder.foldl visit start := by
  rw [walk_eq, upcoming, atRoot]
  simp [upcomingAbove]

end Cursor

end PackageGraph.Go
