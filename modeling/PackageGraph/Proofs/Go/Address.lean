import PackageGraph.Go.Cursor

/-!
# Addresses of nodes

A node may be equal to another one of the same tree, so it is known by its address: the number of
the child to go down to at each level (`Tree.at?`). Preorder is the dictionary order of addresses.
What comes before a node in it is said one level up (`Address.lt_append_singleton`), so that the
nodes before the first child, before the next sibling and before the end of the parent are known.

A cursor stands at an address of the tree that it was made for (`Cursor.at?_address`). Each of its
steps leads to the address of the neighbour that the step is named for, and fails only if the tree
has no node there.
-/

namespace PackageGraph.Go

/-! ### Preorder -/

namespace Address

variable {address parent : List Nat} {i : Nat}

/-- Within a node are the node and what is within one of its children. -/
theorem isPrefix_iff : parent <+: address ↔
    address = parent ∨ ∃ j below, address = parent ++ j :: below := by
  constructor
  · rintro ⟨_ | ⟨j, below⟩, rfl⟩
    · exact .inl (List.append_nil parent)
    · exact .inr ⟨j, below, rfl⟩
  · rintro (rfl | ⟨j, below, rfl⟩)
    · exact List.prefix_rfl
    · exact List.prefix_append parent _

/-- Within a child are the addresses that go down to it. -/
theorem append_singleton_isPrefix_iff : parent ++ [i] <+: address ↔
    ∃ below, address = parent ++ i :: below := by
  simp only [List.IsPrefix, List.append_assoc, List.singleton_append, eq_comm]

/-- **Before a child** come what is before its parent, the parent, and what is within the children
before it. -/
theorem lt_append_singleton : address < parent ++ [i] ↔
    address < parent ∨ address = parent ∨ ∃ j below, j < i ∧ address = parent ++ j :: below := by
  -- on the way down to the parent the numbers decide, unless they are the same
  induction parent generalizing address with
  | nil =>
    cases address with
    | nil => simp
    | cons j below => simp [List.cons_lt_cons_iff]
  | cons k parent ih =>
    cases address with
    | nil => simp
    | cons j below =>
      simp only [List.cons_append, List.cons_lt_cons_iff, ih, List.cons.injEq]
      constructor
      · rintro (hj | ⟨rfl, hbefore | rfl | ⟨n, rest, hn, rfl⟩⟩)
        · exact .inl (.inl hj)
        · exact .inl (.inr ⟨rfl, hbefore⟩)
        · exact .inr (.inl ⟨rfl, rfl⟩)
        · exact .inr (.inr ⟨n, rest, hn, rfl, rfl⟩)
      · rintro ((hj | ⟨rfl, hbefore⟩) | ⟨rfl, rfl⟩ | ⟨n, rest, hn, rfl, rfl⟩)
        · exact .inl hj
        · exact .inr ⟨rfl, .inl hbefore⟩
        · exact .inr ⟨rfl, .inr (.inl rfl)⟩
        · exact .inr ⟨rfl, .inr (.inr ⟨n, rest, hn, rfl⟩)⟩

/-- **Before the first child** come what is before its parent, and the parent. -/
theorem lt_first_iff : address < parent ++ [0] ↔ address < parent ∨ address = parent := by
  simp [lt_append_singleton]

/-- **Before the next sibling** come what is before a node and what is within it. -/
theorem lt_next_iff :
    address < parent ++ [i + 1] ↔ address < parent ++ [i] ∨ parent ++ [i] <+: address := by
  rw [lt_append_singleton, lt_append_singleton, append_singleton_isPrefix_iff]
  constructor
  · rintro (hbefore | rfl | ⟨j, below, hj, rfl⟩)
    · exact .inl (.inl hbefore)
    · exact .inl (.inr (.inl rfl))
    · -- a child before the next one is before this one, or this one
      rcases Nat.lt_succ_iff_lt_or_eq.1 hj with hj | rfl
      · exact .inl (.inr (.inr ⟨j, below, hj, rfl⟩))
      · exact .inr ⟨below, rfl⟩
  · rintro ((hbefore | rfl | ⟨j, below, hj, rfl⟩) | ⟨below, rfl⟩)
    · exact .inl hbefore
    · exact .inr (.inl rfl)
    · exact .inr (.inr ⟨j, below, Nat.lt_succ_of_lt hj, rfl⟩)
    · exact .inr (.inr ⟨i, below, Nat.lt_succ_self i, rfl⟩)

/-- **Before the end of a parent** come what is before the end of a child, and what is within the
children after it. -/
theorem lt_or_isPrefix_iff : address < parent ∨ parent <+: address ↔
    (address < parent ++ [i] ∨ parent ++ [i] <+: address) ∨
      ∃ j below, i < j ∧ address = parent ++ j :: below := by
  rw [lt_append_singleton, isPrefix_iff, append_singleton_isPrefix_iff]
  constructor
  · rintro (hbefore | rfl | ⟨j, below, rfl⟩)
    · exact .inl (.inl (.inl hbefore))
    · exact .inl (.inl (.inr (.inl rfl)))
    · -- a child of the parent is before this one, this one, or after it
      rcases Nat.lt_trichotomy j i with hj | rfl | hj
      · exact .inl (.inl (.inr (.inr ⟨j, below, hj, rfl⟩)))
      · exact .inl (.inr ⟨below, rfl⟩)
      · exact .inr ⟨j, below, hj, rfl⟩
  · rintro (((hbefore | rfl | ⟨j, below, -, rfl⟩) | ⟨below, rfl⟩) | ⟨j, below, -, rfl⟩)
    · exact .inl hbefore
    · exact .inr (.inl rfl)
    · exact .inr (.inr ⟨j, below, rfl⟩)
    · exact .inr (.inr ⟨i, below, rfl⟩)
    · exact .inr (.inr ⟨j, below, rfl⟩)

end Address

/-! ### Nodes -/

namespace Tree

/-- The node at an address: from the root, go down to the child of each number. -/
def at? : Tree → List Nat → Option Tree
  | tree, [] => some tree
  | tree, i :: below => tree.children[i]?.bind fun child => child.at? below

@[simp] theorem at?_nil (tree : Tree) : tree.at? [] = some tree := rfl

theorem at?_append (tree : Tree) (address below : List Nat) :
    tree.at? (address ++ below) = (tree.at? address).bind fun node => node.at? below := by
  induction address generalizing tree with
  | nil => rfl
  | cons i address ih =>
    rw [List.cons_append, at?, at?]
    cases tree.children[i]? with
    | none => rfl
    | some child => exact ih child

end Tree

/-! ### Cursors -/

namespace Cursor

variable {cursor child sibling parent : Cursor}

/-- The tree around a node, up to the root. -/
def rebuilt (focus : Tree) : List Frame → Tree
  | [] => focus
  | ⟨label, before, after⟩ :: above =>
    rebuilt (.node label (before.reverse ++ focus :: after)) above

/-- The tree that a cursor was made for. -/
def root (cursor : Cursor) : Tree := rebuilt cursor.focus cursor.above

/-- Where a way leads: how many siblings are before the node, at each level from the root. -/
def addressOf (above : List Frame) : List Nat :=
  (above.map fun frame => frame.before.length).reverse

/-- Where a cursor stands. -/
def address (cursor : Cursor) : List Nat := addressOf cursor.above

@[simp] theorem root_atRoot (tree : Tree) : (atRoot tree).root = tree := rfl

@[simp] theorem address_atRoot (tree : Tree) : (atRoot tree).address = [] := rfl

theorem addressOf_cons (frame : Frame) (above : List Frame) :
    addressOf (frame :: above) = addressOf above ++ [frame.before.length] := by
  rw [addressOf, List.map_cons, List.reverse_cons]
  rfl

/-- In the tree around it, a node stands where the way to it leads. -/
theorem at?_addressOf (focus : Tree) (above : List Frame) :
    (rebuilt focus above).at? (addressOf above) = some focus := by
  induction above generalizing focus with
  | nil => rfl
  | cons frame above ih =>
    obtain ⟨label, before, after⟩ := frame
    -- the parent is at the address of the way without its last frame
    rw [rebuilt, addressOf_cons, Tree.at?_append, ih]
    simp [Tree.at?, Tree.children]

/-- **The focus is the node at the address.** -/
theorem at?_address (cursor : Cursor) : cursor.root.at? cursor.address = some cursor.focus :=
  at?_addressOf cursor.focus cursor.above

/-! ### What the steps find -/

/-- Going down leads to the first child, with its siblings to the right. -/
theorem exists_of_gotoFirstChild? (h : cursor.gotoFirstChild? = some child) :
    ∃ label first rest above, cursor = ⟨.node label (first :: rest), above⟩ ∧
      child = ⟨first, ⟨label, [], rest⟩ :: above⟩ := by
  obtain ⟨⟨label, _ | ⟨first, rest⟩⟩, above⟩ := cursor
  · cases h
  · cases h
    exact ⟨label, first, rest, above, rfl, rfl⟩

/-- Going down fails at a node without children. -/
theorem exists_of_gotoFirstChild?_eq_none (h : cursor.gotoFirstChild? = none) :
    ∃ label above, cursor = ⟨.node label [], above⟩ := by
  obtain ⟨⟨label, _ | ⟨first, rest⟩⟩, above⟩ := cursor
  · exact ⟨label, above, rfl⟩
  · cases h

theorem exists_of_gotoNextSibling? (h : cursor.gotoNextSibling? = some sibling) :
    ∃ focus label before next after above,
      cursor = ⟨focus, ⟨label, before, next :: after⟩ :: above⟩ ∧
        sibling = ⟨next, ⟨label, focus :: before, after⟩ :: above⟩ := by
  obtain ⟨focus, _ | ⟨⟨label, before, _ | ⟨next, after⟩⟩, above⟩⟩ := cursor
  · -- there is no parent, or no sibling
    cases h
  · cases h
  · cases h
    exact ⟨focus, label, before, next, after, above, rfl, rfl⟩

/-- Going up from the last child leads to the parent, with the child put back. -/
theorem exists_of_gotoParent? (hlast : cursor.gotoNextSibling? = none)
    (h : cursor.gotoParent? = some parent) :
    ∃ focus label before above, cursor = ⟨focus, ⟨label, before, []⟩ :: above⟩ ∧
      parent = ⟨.node label (before.reverse ++ [focus]), above⟩ := by
  obtain ⟨focus, _ | ⟨⟨label, before, _ | ⟨next, after⟩⟩, above⟩⟩ := cursor
  · cases h
  · cases h
    exact ⟨focus, label, before, above, rfl, rfl⟩
  · cases hlast

theorem exists_of_gotoParent?_eq_none (h : cursor.gotoParent? = none) :
    ∃ focus, cursor = ⟨focus, []⟩ := by
  obtain ⟨focus, _ | ⟨⟨label, before, after⟩, above⟩⟩ := cursor
  · exact ⟨focus, rfl⟩
  · cases h

/-! ### Where the steps lead -/

/-- **Going down adds a level**, with the number of the first child. -/
theorem address_of_gotoFirstChild? (h : cursor.gotoFirstChild? = some child) :
    child.root = cursor.root ∧ child.address = cursor.address ++ [0] := by
  obtain ⟨label, first, rest, above, rfl, rfl⟩ := exists_of_gotoFirstChild? h
  exact ⟨rfl, addressOf_cons _ above⟩

/-- **Going down fails only where nothing is below.** -/
theorem at?_of_gotoFirstChild?_eq_none (h : cursor.gotoFirstChild? = none) (i : Nat)
    (below : List Nat) : cursor.root.at? (cursor.address ++ i :: below) = none := by
  rw [Tree.at?_append, at?_address]
  obtain ⟨label, above, rfl⟩ := exists_of_gotoFirstChild?_eq_none h
  rfl

/-- **Going on counts one more** on the last level. -/
theorem address_of_gotoNextSibling? (h : cursor.gotoNextSibling? = some sibling) :
    sibling.root = cursor.root ∧ ∃ parent i,
      cursor.address = parent ++ [i] ∧ sibling.address = parent ++ [i + 1] := by
  obtain ⟨focus, label, before, next, after, above, rfl, rfl⟩ := exists_of_gotoNextSibling? h
  refine ⟨?_, addressOf above, before.length, addressOf_cons _ above, addressOf_cons _ above⟩
  rw [root, root, rebuilt, rebuilt, List.reverse_cons, List.append_assoc]
  rfl

/-- **Going on fails only at the last child**, from where one goes up to the parent. -/
theorem address_of_gotoParent? (hlast : cursor.gotoNextSibling? = none)
    (h : cursor.gotoParent? = some parent) :
    parent.root = cursor.root ∧ ∃ i, cursor.address = parent.address ++ [i] ∧
      ∀ j below, i < j → cursor.root.at? (parent.address ++ j :: below) = none := by
  obtain ⟨focus, label, before, above, rfl, rfl⟩ := exists_of_gotoParent? hlast h
  refine ⟨rfl, before.length, addressOf_cons _ above, fun j below hj => ?_⟩
  -- the parent has the children before the node, and the node itself
  have hnone : (before.reverse ++ [focus])[j]? = none := by
    refine List.getElem?_eq_none ?_
    rw [List.length_append, List.length_reverse]
    exact hj
  rw [root, rebuilt, Tree.at?_append, address, at?_addressOf, Option.bind_some, Tree.at?,
    Tree.children, hnone]
  rfl

/-- **Going up fails only at the root.** -/
theorem address_of_gotoParent?_eq_none (h : cursor.gotoParent? = none) : cursor.address = [] := by
  obtain ⟨focus, rfl⟩ := exists_of_gotoParent?_eq_none h
  rfl

end Cursor

end PackageGraph.Go
