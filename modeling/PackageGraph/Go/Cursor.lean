import PackageGraph.Go.Tree

/-!
# Cursors

A cursor is a node of a tree together with the way that led to it. It goes to one neighbour at a
time: down to the first child, on to the next sibling, or up to the parent; a step fails exactly
when there is no such neighbour.

## Main definitions

* `Cursor.gotoFirstChild?`, `Cursor.gotoNextSibling?`, `Cursor.gotoParent?`: the steps.
* `Cursor.advance?`: the next node of a walk, in which each node comes before its children.
* `Cursor.walk`: visits one node after another. It ends because every step leaves fewer nodes to
  visit (`remaining_of_advance?`).
-/

namespace PackageGraph.Go

/-- A parent on the way to a node, without the child that the way leads to. -/
structure Frame where
  label : Label
  /-- The siblings before the child, nearest first. -/
  before : List Tree
  /-- The siblings after the child. -/
  after : List Tree
deriving Inhabited

/-- A node of a tree, with the way that led there. -/
structure Cursor where
  focus : Tree
  /-- The parents, nearest first. -/
  above : List Frame
deriving Inhabited

namespace Cursor

/-- The cursor at the root of a tree. -/
def atRoot (tree : Tree) : Cursor := ⟨tree, []⟩

/-! ### Steps -/

/-- Go down to the first child. -/
def gotoFirstChild? : Cursor → Option Cursor
  | ⟨.node label (child :: rest), above⟩ => some ⟨child, ⟨label, [], rest⟩ :: above⟩
  | ⟨.node _ [], _⟩ => none

/-- Go on to the next sibling. -/
def gotoNextSibling? : Cursor → Option Cursor
  | ⟨focus, ⟨label, before, next :: after⟩ :: above⟩ =>
    some ⟨next, ⟨label, focus :: before, after⟩ :: above⟩
  | _ => none

/-- Go up to the parent. -/
def gotoParent? : Cursor → Option Cursor
  | ⟨focus, ⟨label, before, after⟩ :: above⟩ =>
    some ⟨.node label (before.reverse ++ focus :: after), above⟩
  | ⟨_, []⟩ => none

/-- The next sibling, or that of the nearest parent that has one. -/
def climb? (focus : Tree) (above : List Frame) : Option Cursor :=
  match gotoNextSibling? ⟨focus, above⟩ with
  | some next => some next
  | none =>
    match above with
    | [] => none
    | ⟨label, before, after⟩ :: above =>
      -- This is the parent that `gotoParent?` leads to.
      climb? (.node label (before.reverse ++ focus :: after)) above

/-- The next node of a walk: the first child, or else where climbing leads. -/
def advance? (cursor : Cursor) : Option Cursor :=
  match cursor.gotoFirstChild? with
  | some child => some child
  | none => climb? cursor.focus cursor.above

/-- **Climbing is made of steps**: on to a sibling if there is one, and otherwise up to the parent
and on from there. -/
theorem climb?_eq (focus : Tree) (above : List Frame) :
    climb? focus above =
      match gotoNextSibling? ⟨focus, above⟩ with
      | some next => some next
      | none => (gotoParent? ⟨focus, above⟩).bind fun parent =>
          climb? parent.focus parent.above := by
  cases above with
  | nil => simp [climb?, gotoNextSibling?, gotoParent?]
  | cons frame above => rw [climb?]; rfl

/-! ### Walking -/

/-- The number of nodes to the right of a way. -/
def remainingAbove : List Frame → Nat
  | [] => 0
  | frame :: above => Tree.sizeAll frame.after + remainingAbove above

/-- The number of nodes that are still to be visited, the focus included. -/
def remaining (cursor : Cursor) : Nat := cursor.focus.size + remainingAbove cursor.above

theorem remaining_of_climb? {focus : Tree} {above : List Frame} {next : Cursor}
    (h : climb? focus above = some next) : next.remaining = remainingAbove above := by
  induction above generalizing focus with
  | nil => simp [climb?, gotoNextSibling?] at h
  | cons frame above ih =>
    obtain ⟨label, before, after⟩ := frame
    cases after with
    -- no sibling is left, so the walk goes further up
    | nil =>
      rw [climb?] at h
      simp only [gotoNextSibling?] at h
      rw [ih h]
      simp [remainingAbove]
    -- the sibling is the next one to be visited
    | cons sibling after =>
      rw [climb?] at h
      simp only [gotoNextSibling?, Option.some.injEq] at h
      subst h
      simp [remaining, remainingAbove, Nat.add_assoc]

/-- **Every step of a walk leaves one node less to visit.** -/
theorem remaining_of_advance? {cursor next : Cursor} (h : cursor.advance? = some next) :
    next.remaining + 1 = cursor.remaining := by
  obtain ⟨⟨label, children⟩, above⟩ := cursor
  cases children with
  | nil =>
    have climbed : climb? (.node label []) above = some next := h
    rw [remaining_of_climb? climbed]
    simp [remaining, Tree.size, Nat.add_comm]
  | cons child rest =>
    simp only [advance?, gotoFirstChild?, Option.some.injEq] at h
    subst h
    simp only [remaining, remainingAbove, Tree.size, Tree.sizeAll_cons]
    omega

/-- Visit the focus, and then every node that a walk from there leads to. -/
def walk {α : Type} (visit : α → Tree → α) (start : α) (cursor : Cursor) : α :=
  let visited := visit start cursor.focus
  match _step : cursor.advance? with
  | none => visited
  | some next => walk visit visited next
termination_by cursor.remaining
decreasing_by
  have := remaining_of_advance? _step
  omega

end Cursor

end PackageGraph.Go
