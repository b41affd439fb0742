import Mathlib.Logic.Function.Iterate
import PackageGraph.Proofs.Go.Address
import PackageGraph.Proofs.Go.Usage

/-!
# Tours of a tree

A tour is a walk with all the steps of its cursor: at a node that it has come to, it visits the node
and goes down; at a node that it is done with, it goes on to the next sibling, or up to the parent,
or is finished (`Tour.Move`).

What it has visited is known from where it stands (`Tour.Behind`): at a node that it has come to,
these are the nodes before it in preorder, and at one that it is done with, those within it, too.
Each turn keeps that (`Tour.Tracked.step`). And each turn leaves one turn less (`Tour.turnsLeft`),
because every node is come to once and done with once. So a tour ends, and when it does, it has
visited every node once and in preorder (`Tour.traverses`).
-/

namespace PackageGraph.Go

/-! ### Plain recursion -/

namespace Tree

mutual

/-- Visit a node, and then each of its children with what is below it. -/
def visitAll {α : Type} (visit : α → Tree → α) (state : α) : Tree → α
  | node label children => visitEach visit (visit state (node label children)) children

/-- Visit all nodes of several trees, first to last. -/
def visitEach {α : Type} (visit : α → Tree → α) (state : α) : List Tree → α
  | [] => state
  | tree :: rest => visitEach visit (visitAll visit state tree) rest

end

mutual

/-- Recursion visits the nodes in preorder. -/
theorem visitAll_eq {α : Type} (visit : α → Tree → α) (state : α) :
    (tree : Tree) → tree.visitAll visit state = tree.preorder.foldl visit state
  | node label children => by
    rw [visitAll, preorder_node, List.foldl_cons]
    exact visitEach_eq visit _ children

/-- Recursion visits the nodes of several trees one tree after another. -/
theorem visitEach_eq {α : Type} (visit : α → Tree → α) (state : α) :
    (trees : List Tree) → visitEach visit state trees = (preorderAll trees).foldl visit state
  | [] => by rw [visitEach, preorderAll_nil, List.foldl_nil]
  | tree :: rest => by
    rw [visitEach, preorderAll_cons, List.foldl_append, visitAll_eq visit state tree]
    exact visitEach_eq visit _ rest

end

end Tree

/-! ### Turns -/

/-- A tour between two turns, with the state that its visits have left. -/
inductive Tour (α : Type) where
  /-- The cursor has come to a node. -/
  | arriving (cursor : Cursor) (state : α)
  /-- The cursor is done with a node and with what is below it. -/
  | leaving (cursor : Cursor) (state : α)
  | finished (state : α)

namespace Tour

variable {α β : Type} {visit : α → Cursor → α} {visit' : β → Cursor → β}

/-- One turn. Nothing happens any more once the tour is over. -/
def step (visit : α → Cursor → α) : Tour α → Tour α
  | arriving cursor state =>
    match cursor.gotoFirstChild? with
    | some child => arriving child (visit state cursor)
    | none => leaving cursor (visit state cursor)
  | leaving cursor state =>
    match cursor.gotoNextSibling? with
    | some sibling => arriving sibling state
    | none =>
      match cursor.gotoParent? with
      | some parent => leaving parent state
      | none => finished state
  | finished state => finished state

/-- What a turn can be. -/
inductive Move (visit : α → Cursor → α) : Tour α → Tour α → Prop where
  | down {cursor child : Cursor} {state : α} : cursor.gotoFirstChild? = some child →
    Move visit (arriving cursor state) (arriving child (visit state cursor))
  | stay {cursor : Cursor} {state : α} : cursor.gotoFirstChild? = none →
    Move visit (arriving cursor state) (leaving cursor (visit state cursor))
  | across {cursor sibling : Cursor} {state : α} : cursor.gotoNextSibling? = some sibling →
    Move visit (leaving cursor state) (arriving sibling state)
  | up {cursor parent : Cursor} {state : α} : cursor.gotoNextSibling? = none →
    cursor.gotoParent? = some parent → Move visit (leaving cursor state) (leaving parent state)
  | stop {cursor : Cursor} {state : α} : cursor.gotoNextSibling? = none →
    cursor.gotoParent? = none → Move visit (leaving cursor state) (finished state)
  | rest {state : α} : Move visit (finished state) (finished state)

/-- **A turn is a move.** -/
theorem move_step (visit : α → Cursor → α) (tour : Tour α) : Move visit tour (step visit tour) := by
  cases tour with
  | arriving cursor state =>
    rw [step]
    split
    · next hdown => exact .down hdown
    · next hdown => exact .stay hdown
  | leaving cursor state =>
    rw [step]
    split
    · next hacross => exact .across hacross
    · next hacross =>
      split
      · next hup => exact .up hacross hup
      · next hup => exact .stop hacross hup
  | finished state => exact .rest

/-! ### The end of a tour -/

/-- The number of turns until a tour is over: two for each node that it has not come to, and one for
each that it is not done with. -/
def turnsLeft : Tour α → Nat
  | arriving cursor _ => 2 * cursor.remaining + cursor.above.length
  | leaving cursor _ => 2 * Cursor.remainingAbove cursor.above + cursor.above.length + 1
  | finished _ => 0

/-- **A turn leaves one turn less.** -/
theorem turnsLeft_of_move {tour tour' : Tour α} (h : Move visit tour tour') :
    tour'.turnsLeft = tour.turnsLeft - 1 := by
  cases h with
  | down h =>
    -- in place of the node, its children and a level more are to be left
    obtain ⟨label, first, rest, above, rfl, rfl⟩ := Cursor.exists_of_gotoFirstChild? h
    simp only [turnsLeft, Cursor.remaining, Cursor.remainingAbove, Tree.size, Tree.sizeAll_cons,
      List.length_cons]
    omega
  | stay h =>
    obtain ⟨label, above, rfl⟩ := Cursor.exists_of_gotoFirstChild?_eq_none h
    simp only [turnsLeft, Cursor.remaining, Tree.size, Tree.sizeAll_nil]
    omega
  | across h =>
    obtain ⟨_, _, _, _, _, _, rfl, rfl⟩ := Cursor.exists_of_gotoNextSibling? h
    simp only [turnsLeft, Cursor.remaining, Cursor.remainingAbove, Tree.sizeAll_cons,
      List.length_cons]
    omega
  | up hlast h =>
    obtain ⟨_, _, _, _, rfl, rfl⟩ := Cursor.exists_of_gotoParent? hlast h
    simp only [turnsLeft, Cursor.remainingAbove, Tree.sizeAll_nil, List.length_cons]
    omega
  | stop hlast h =>
    obtain ⟨focus, rfl⟩ := Cursor.exists_of_gotoParent?_eq_none h
    rfl
  | rest => rfl

/-- Turns leave as many turns less. -/
theorem turnsLeft_iterate (visit : α → Cursor → α) (tour : Tour α) (turns : Nat) :
    ((step visit)^[turns] tour).turnsLeft = tour.turnsLeft - turns := by
  induction turns with
  | zero => rfl
  | succ turns ih =>
    rw [Function.iterate_succ_apply', turnsLeft_of_move (move_step visit _), ih, Nat.sub_sub]

theorem turnsLeft_eq_zero {tour : Tour α} (h : tour.turnsLeft = 0) :
    ∃ state, tour = finished state := by
  cases tour with
  | arriving cursor state =>
    -- a node that the tour has come to takes two turns
    have := cursor.focus.size_pos
    simp only [turnsLeft, Cursor.remaining] at h
    omega
  | leaving cursor state => cases h
  | finished state => exact ⟨state, rfl⟩

/-! ### Tours with different states -/

/-- The same tour with another state. -/
def map (f : α → β) : Tour α → Tour β
  | arriving cursor state => arriving cursor (f state)
  | leaving cursor state => leaving cursor (f state)
  | finished state => finished (f state)

/-- **Where a tour goes does not depend on its state.** -/
theorem semiconj_map {f : α → β}
    (h : ∀ state cursor, f (visit state cursor) = visit' (f state) cursor) :
    Function.Semiconj (map f) (step visit) (step visit') := by
  intro tour
  cases tour with
  | arriving cursor state =>
    rw [map, step, step, ← h]
    cases cursor.gotoFirstChild? <;> rfl
  | leaving cursor state =>
    rw [map, step, step]
    cases cursor.gotoNextSibling? with
    | some sibling => rfl
    | none => cases cursor.gotoParent? <;> rfl
  | finished state => rfl

/-! ### What a tour has visited -/

/-- The cursor, until the tour is over. -/
def cursor? : Tour α → Option Cursor
  | arriving cursor _ => some cursor
  | leaving cursor _ => some cursor
  | finished _ => none

/-- The node that the next turn visits. -/
def arrival? : Tour α → Option Cursor
  | arriving cursor _ => some cursor
  | leaving _ _ => none
  | finished _ => none

/-- A node that is visited is one that the tour has come to. -/
theorem exists_eq_arriving {tour : Tour α} {cursor : Cursor} (h : cursor ∈ tour.arrival?) :
    ∃ state, tour = arriving cursor state := by
  cases tour with
  | arriving _ state =>
    cases h
    exact ⟨state, rfl⟩
  | leaving => cases h
  | finished => cases h

/-- What the visits have left so far. -/
def state : Tour α → α
  | arriving _ state => state
  | leaving _ state => state
  | finished state => state

/-- **Where a tour has been**: at the nodes before the one that it has come to, or also at those
within the one that it is done with. -/
def Behind : Tour α → List Nat → Prop
  | arriving cursor _, address => address < cursor.address
  | leaving cursor _, address => address < cursor.address ∨ cursor.address <+: address
  | finished _, _ => True

/-- The nodes that a tour still visits, in order. -/
def upcoming : Tour α → List Tree
  | arriving cursor _ => cursor.upcoming
  | leaving cursor _ => Cursor.upcomingAbove cursor.above
  | finished _ => []

theorem root_of_move {tour tour' : Tour α} (h : Move visit tour tour') {tree : Tree}
    (hroot : ∀ cursor ∈ tour.cursor?, cursor.root = tree) :
    ∀ cursor ∈ tour'.cursor?, cursor.root = tree := by
  intro cursor' hcursor'
  cases h with
  | down h =>
    obtain rfl := Option.some.inj hcursor'
    exact (Cursor.address_of_gotoFirstChild? h).1.trans (hroot _ rfl)
  | stay h => exact hroot cursor' hcursor'
  | across h =>
    obtain rfl := Option.some.inj hcursor'
    exact (Cursor.address_of_gotoNextSibling? h).1.trans (hroot _ rfl)
  | up hlast h =>
    obtain rfl := Option.some.inj hcursor'
    exact (Cursor.address_of_gotoParent? hlast h).1.trans (hroot _ rfl)
  | stop => cases hcursor'
  | rest => cases hcursor'

/-- **A turn puts the node that it visits behind a tour**, and no other. -/
theorem behind_of_move {tour tour' : Tour α} (h : Move visit tour tour') {tree : Tree}
    (hroot : ∀ cursor ∈ tour.cursor?, cursor.root = tree) {address : List Nat}
    (haddress : (tree.at? address).isSome = true) :
    tour'.Behind address ↔
      tour.Behind address ∨ ∃ cursor ∈ tour.arrival?, cursor.address = address := by
  cases h with
  | @down cursor child state h =>
    obtain ⟨-, hchild⟩ := Cursor.address_of_gotoFirstChild? h
    simp [Behind, arrival?, hchild, Address.lt_first_iff, eq_comm]
  | @stay cursor state h =>
    -- the node has nothing below it, so it is done with as soon as it has been visited
    have hbelow : cursor.address <+: address ↔ cursor.address = address := by
      rw [Address.isPrefix_iff, eq_comm]
      refine or_iff_left ?_
      rintro ⟨i, below, rfl⟩
      rw [← hroot cursor rfl, Cursor.at?_of_gotoFirstChild?_eq_none h] at haddress
      cases haddress
    simp [Behind, arrival?, hbelow]
  | @across cursor sibling state h =>
    obtain ⟨-, parent, i, hhere, hnext⟩ := Cursor.address_of_gotoNextSibling? h
    simp [Behind, arrival?, hhere, hnext, Address.lt_next_iff]
  | @up cursor parent state hlast h =>
    obtain ⟨-, i, hhere, hafter⟩ := Cursor.address_of_gotoParent? hlast h
    -- the node is the last child, so the parent is done with, too
    have hnot : ¬∃ j below, i < j ∧ address = parent.address ++ j :: below := by
      rintro ⟨j, below, hj, rfl⟩
      rw [← hroot cursor rfl, hafter j below hj] at haddress
      cases haddress
    have hends : address < parent.address ∨ parent.address <+: address ↔
        address < cursor.address ∨ cursor.address <+: address := by
      rw [hhere]
      exact Address.lt_or_isPrefix_iff.trans (or_iff_left hnot)
    simpa [Behind, arrival?] using hends
  | @stop cursor state hlast h =>
    simp [Behind, arrival?, Cursor.address_of_gotoParent?_eq_none h]
  | rest => simp [Behind, arrival?]

/-- A turn visits the first of the nodes that are to be visited, if it visits any. -/
theorem upcoming_of_move {tour tour' : Tour α} (h : Move visit tour tour') :
    tour.upcoming = tour.arrival?.toList.map Cursor.focus ++ tour'.upcoming := by
  cases h with
  | down h =>
    obtain ⟨label, first, rest, above, rfl, rfl⟩ := Cursor.exists_of_gotoFirstChild? h
    simp [upcoming, arrival?, Cursor.upcoming, Cursor.upcomingAbove, Tree.preorder_node]
  | stay h =>
    obtain ⟨label, above, rfl⟩ := Cursor.exists_of_gotoFirstChild?_eq_none h
    rfl
  | across h =>
    obtain ⟨_, _, _, _, _, _, rfl, rfl⟩ := Cursor.exists_of_gotoNextSibling? h
    simp [upcoming, arrival?, Cursor.upcoming, Cursor.upcomingAbove]
  | up hlast h =>
    obtain ⟨_, _, _, _, rfl, rfl⟩ := Cursor.exists_of_gotoParent? hlast h
    rfl
  | stop hlast h =>
    obtain ⟨focus, rfl⟩ := Cursor.exists_of_gotoParent?_eq_none h
    rfl
  | rest => rfl

/-! ### Tours that note their stops -/

/-- Note a stop. -/
def note (stops : List Cursor) (cursor : Cursor) : List Cursor := stops ++ [cursor]

/-- A turn notes the node that it visits. -/
theorem state_of_move {tour tour' : Tour (List Cursor)} (h : Move note tour tour') :
    tour'.state = tour.state ++ tour.arrival?.toList := by
  cases h <;> simp [state, arrival?, note]

/-- A tour has stopped at the nodes behind it, each one time and in preorder. -/
structure Tracked (tree : Tree) (tour : Tour (List Cursor)) : Prop where
  /-- The tour is within the tree, and so is every stop. -/
  root : ∀ cursor ∈ tour.cursor?, cursor.root = tree
  root_of_mem : ∀ stop ∈ tour.state, stop.root = tree
  /-- The stops were made in preorder, none twice. -/
  sorted : (tour.state.map Cursor.address).Pairwise (· < ·)
  /-- They are the nodes behind the tour. -/
  mem_iff : ∀ address, address ∈ tour.state.map Cursor.address ↔
    (tree.at? address).isSome = true ∧ tour.Behind address
  /-- What is not behind the tour is still to be visited. -/
  preorder : tour.state.map Cursor.focus ++ tour.upcoming = tree.preorder

/-- At the root, a tour has nothing behind it. -/
theorem tracked_arriving (tree : Tree) : Tracked tree (arriving (.atRoot tree) []) where
  root := by
    rintro cursor ⟨⟩
    exact Cursor.root_atRoot tree
  root_of_mem := nofun
  sorted := .nil
  mem_iff address := by simp [state, Behind]
  preorder := by simp [state, upcoming, Cursor.upcoming, Cursor.upcomingAbove, Cursor.atRoot]

/-- **A turn keeps a tour on its track.** -/
theorem Tracked.step {tree : Tree} {tour : Tour (List Cursor)} (h : Tracked tree tour) :
    Tracked tree (tour.step note) := by
  have hmove := move_step note tour
  have hstate := state_of_move hmove
  have hroot : ∀ cursor ∈ tour.arrival?, cursor.root = tree := by
    intro cursor hcursor
    obtain ⟨state, rfl⟩ := exists_eq_arriving hcursor
    exact h.root cursor rfl
  refine ⟨root_of_move hmove h.root, ?_, ?_, fun address => ?_, ?_⟩
  -- in each part, what was noted before is as it was, and the node of this turn is new
  · intro stop hstop
    rw [hstate, List.mem_append, Option.mem_toList] at hstop
    exact hstop.elim (h.root_of_mem stop) (hroot stop)
  · rw [hstate, List.map_append, List.pairwise_append]
    refine ⟨h.sorted, ?_, fun address haddress address' haddress' => ?_⟩
    · cases tour.arrival? <;> simp
    · -- the node that is visited comes after all that are behind
      obtain ⟨cursor, hcursor, rfl⟩ := List.mem_map.1 haddress'
      obtain ⟨state, htour⟩ := exists_eq_arriving (Option.mem_toList.1 hcursor)
      have hbehind := ((h.mem_iff address).1 haddress).2
      rwa [htour] at hbehind
  · -- the node that is visited is in the tree
    have hvisited : address ∈ tour.arrival?.toList.map Cursor.address ↔
        (tree.at? address).isSome = true ∧ ∃ cursor ∈ tour.arrival?, cursor.address = address := by
      simp only [List.mem_map, Option.mem_toList]
      refine ⟨?_, And.right⟩
      rintro ⟨cursor, hcursor, rfl⟩
      refine ⟨?_, cursor, hcursor, rfl⟩
      rw [← hroot cursor hcursor, cursor.at?_address]
      rfl
    rw [hstate, List.map_append, List.mem_append, h.mem_iff, hvisited, ← and_or_left]
    exact and_congr_right fun haddress => (behind_of_move hmove h.root haddress).symm
  · rw [hstate, List.map_append, List.append_assoc, ← upcoming_of_move hmove, h.preorder]

/-- So a tour is on its track after any number of turns. -/
theorem tracked_iterate (tree : Tree) (turns : Nat) :
    Tracked tree ((Tour.step note)^[turns] (arriving (.atRoot tree) [])) := by
  induction turns with
  | zero => exact tracked_arriving tree
  | succ turns ih =>
    rw [Function.iterate_succ_apply']
    exact ih.step

/-- From the root, two turns for each node are left. -/
theorem turnsLeft_arriving (tree : Tree) (state : α) :
    (arriving (.atRoot tree) state).turnsLeft = 2 * tree.size := rfl

/-- **A tour ends**: after two turns for each node it is over. -/
theorem exists_finished (tree : Tree) :
    ∃ stops, (step note)^[2 * tree.size] (arriving (.atRoot tree) []) = finished stops := by
  refine turnsLeft_eq_zero ?_
  rw [turnsLeft_iterate, turnsLeft_arriving, Nat.sub_self]

/-- Whatever is done at its stops, a tour makes the same ones, and is over then and not before. -/
theorem iterate_eq_finished_iff {tree : Tree} {stops : List Cursor}
    (h : (step note)^[2 * tree.size] (arriving (.atRoot tree) []) = finished stops)
    (visit : α → Cursor → α) (start : α) (turns : Nat) :
    (step visit)^[turns] (arriving (.atRoot tree) start) = finished (stops.foldl visit start) ↔
      2 * tree.size ≤ turns := by
  constructor
  · intro hfinished
    -- a tour that is over has no turns left
    have hleft := turnsLeft_iterate visit (arriving (.atRoot tree) start) turns
    rw [hfinished, turnsLeft_arriving] at hleft
    exact Nat.sub_eq_zero_iff_le.1 hleft.symm
  · intro hturns
    obtain ⟨more, rfl⟩ := Nat.exists_eq_add_of_le' hturns
    -- what a tour does at its stops can be done after it has noted them
    have hsame : Function.Semiconj (map fun noted : List Cursor => noted.foldl visit start)
        (step note) (step visit) :=
      semiconj_map fun noted cursor => by rw [note, List.foldl_concat]
    -- the tour goes as it does when it notes its stops, and then stays as it is
    have hfinished : (step visit)^[2 * tree.size] (arriving (.atRoot tree) start) =
        finished (stops.foldl visit start) := by
      have hnoted := hsame.iterate_right (2 * tree.size) (arriving (.atRoot tree) [])
      rw [h] at hnoted
      exact hnoted.symm
    calc (step visit)^[more + 2 * tree.size] (arriving (.atRoot tree) start)
        = (step visit)^[more] ((step visit)^[2 * tree.size] (arriving (.atRoot tree) start)) :=
          Function.iterate_add_apply ..
      _ = (step visit)^[more] (finished (stops.foldl visit start)) := by rw [hfinished]
      _ = finished (stops.foldl visit start) := Function.iterate_fixed rfl more

/-- **A tour is complete.** It is over after two turns for each node of the tree, and not before.
Its stops are the nodes of the tree: their addresses are those of the tree in the order of a
dictionary, which is preorder, so that none comes twice. Hence whatever is done at the nodes, the
outcome is that of visiting each node and then its children by recursion; and so is that of a walk,
and the usage that is read off a file. -/
theorem traverses (tree : Tree) :
    (∃ stops : List Cursor,
      (∀ turns, (step note)^[turns] (arriving (.atRoot tree) []) = finished stops ↔
        2 * tree.size ≤ turns) ∧
      (stops.map Cursor.address).Pairwise (· < ·) ∧
      (∀ address, address ∈ stops.map Cursor.address ↔ (tree.at? address).isSome = true) ∧
      ∀ stop ∈ stops, tree.at? stop.address = some stop.focus) ∧
    (∀ {α : Type} (visit : α → Tree → α) (start : α),
      (∀ turns, (step fun state stop => visit state stop.focus)^[turns]
          (arriving (.atRoot tree) start) = finished (tree.visitAll visit start) ↔
        2 * tree.size ≤ turns) ∧
      (Cursor.atRoot tree).walk visit start = tree.visitAll visit start) ∧
    tree.usage = tree.visitAll (Tree.recordReference tree.aliases) .empty := by
  obtain ⟨stops, hstops⟩ := exists_finished tree
  have htracked := tracked_iterate tree (2 * tree.size)
  rw [hstops] at htracked
  have hwalk : ∀ {α : Type} (visit : α → Tree → α) (start : α),
      (Cursor.atRoot tree).walk visit start = tree.visitAll visit start := fun visit start => by
    rw [Cursor.walk_atRoot, Tree.visitAll_eq]
  refine ⟨⟨stops, fun turns => ?_, htracked.sorted, fun address => ?_, fun stop hstop => ?_⟩,
    fun visit start => ⟨fun turns => ?_, hwalk visit start⟩, hwalk _ _⟩
  · -- noting the stops one by one gives all of them
    have hnoted := (iterate_eq_finished_iff hstops note [] _).2 (Nat.le_refl _)
    rw [hstops, finished.injEq] at hnoted
    rw [← iterate_eq_finished_iff hstops note [] turns, ← hnoted]
  · -- behind a tour that is over, there is every node
    exact (htracked.mem_iff address).trans (and_iff_left trivial)
  · rw [← htracked.root_of_mem stop hstop, stop.at?_address]
  · -- the stops stand at the nodes in preorder
    have hfoci : stops.map Cursor.focus = tree.preorder := by
      rw [← htracked.preorder, upcoming, List.append_nil, state]
    rw [Tree.visitAll_eq, ← hfoci, List.foldl_map]
    exact iterate_eq_finished_iff hstops _ start turns

end Tour

end PackageGraph.Go
