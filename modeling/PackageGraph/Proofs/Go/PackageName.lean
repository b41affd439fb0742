import PackageGraph.Proofs.Go.Usage
import PackageGraph.Proofs.Parser

/-!
# Packages have names

The package of a source that is read has a name with at least one character
(`Usage.package_ne_empty`). A name is an identifier, and so a token; but a package clause could
only be relied on if nothing else in a file was taken for one. What the rules for statements and
declarations read are forms, each by its last line, whatever the parts are
(`Grammar.yields_fileItem`).
-/

namespace PackageGraph.Go

open PackageGraph.Parser Parse

/-- The node is a form, and so no package clause. -/
def Tree.IsForm (tree : Tree) : Prop := ∃ form parts, tree = .ofForm form parts

/-- What is made as a form is a form. -/
theorem Tree.isForm_ofForm (form : Form) (parts : List Tree) : (Tree.ofForm form parts).IsForm :=
  ⟨form, parts, rfl⟩

/-- The node does not name a package by the empty text. -/
def Tree.NamesPackage (tree : Tree) : Prop :=
  ∀ name below, tree = .node (.packageClause name) below → name ≠ ""

/-- A form names no package, so it names none by the empty text. -/
theorem Tree.IsForm.namesPackage {tree : Tree} (h : tree.IsForm) : tree.NamesPackage := by
  obtain ⟨form, parts, rfl⟩ := h
  intro name below heq
  cases heq

namespace Grammar

variable {recur : Recur}

/-! ### Statements -/

/-- What a rule makes of its parts is a form. -/
theorem yields_ofForm {form : Form} {parts : List Tree} :
    Yields (pure (.ofForm form parts) : Parse Tree) Tree.IsForm :=
  .pure (Tree.isForm_ofForm form parts)

theorem yields_block : Yields (block recur) Tree.IsForm :=
  .bind fun _ => .bind fun _ => .bind fun _ => yields_ofForm

/-- What a declaration declares is a form, alone or as a group. -/
theorem yields_declared {form : Form} {single : Parse Tree} {group : Parse (List Tree)} :
    Yields (declared form single group) Tree.IsForm := by
  refine .bind fun grouped => .ite ?_ ?_
  · exact .bind fun _ => .bind fun _ => .bind fun _ => yields_ofForm
  · exact .bind fun _ => yields_ofForm

theorem yields_declaration (word : String) : Yields (declaration recur word) Tree.IsForm := by
  refine .bind fun _ => ?_
  -- the words of constants, variables and types, and no other
  split
  · exact yields_declared
  · exact yields_declared
  · exact yields_declared
  · exact .failure

theorem yields_simple (context : Context) :
    Yields (simple recur context) fun simple => simple.tree.IsForm := by
  refine .bind fun left => .orElse ?_ ?_
  · exact .bind fun _ => .bind fun _ => .bind fun _ => .pure (Tree.isForm_ofForm ..)
  · split
    · refine .orElse ?_ (.orElse ?_ (.pure (Tree.isForm_ofForm ..)))
      · exact .bind fun _ => .bind fun _ => .pure (Tree.isForm_ofForm ..)
      · exact .bind fun _ => .bind fun _ => .bind fun _ => .pure (Tree.isForm_ofForm ..)
    · exact .failure

theorem yields_simpleTree (context : Context) :
    Yields (do return (← simple recur context).tree) Tree.IsForm :=
  .bindOf (yields_simple context) fun _ h => .pure h

theorem yields_jump (word : String) : Yields (jump recur word) Tree.IsForm := by
  refine .bind fun _ => ?_
  -- each of the words that leave a statement
  split
  · exact .bind fun _ => yields_ofForm
  · exact .bind fun _ => yields_ofForm
  · exact yields_ofForm
  · exact .bind fun _ => yields_ofForm

theorem yields_branch : Yields (branch recur) Tree.IsForm := by
  refine .bind fun _ => .bind fun first => .bind fun _ => ?_
  dsimp only
  -- with a statement before the condition, without one, or neither
  refine .ite ?_ (.ite ?_ ?_)
  · exact .bind fun _ => .bind fun _ => .bind fun _ => .bind fun _ => .bind fun _ => yields_ofForm
  · exact .bind fun _ => .bind fun _ => .bind fun _ => yields_ofForm
  · exact .bind fun _ => .bind fun _ => .bind fun _ => yields_ofForm

theorem yields_loop : Yields (loop recur) Tree.IsForm :=
  .bind fun _ => .bind fun _ => .bind fun _ => yields_ofForm

/-- A switch is a form, with either part of its head or without. -/
theorem yields_switch : Yields (switch recur) Tree.IsForm := by
  refine .bind fun _ => .bind fun _ => .ite (.bind fun _ => yields_ofForm) ?_
  refine .bind fun first => .bind fun _ => .ite (.bind fun _ => yields_ofForm) ?_
  dsimp only
  -- behind a semicolon, the second part of the head may follow
  have hrest : Yields (do
      mark ";"
      if ← seesMark "\x7b" then
        return Tree.ofForm .choice [first.simple.tree, ← clauses recur (recur.values .enclosed)]
      let second ← switchPart recur
      return .ofForm .choice [first.simple.tree, second.simple.tree,
        ← switchClauses recur second]) Tree.IsForm := by
    refine .bind fun _ => .bind fun _ => .ite ?_ ?_
    · exact .bind fun _ => yields_ofForm
    · exact .bind fun _ => .bind fun _ => yields_ofForm
  exact .ite (.bind fun _ => hrest) hrest

theorem yields_selection : Yields (selection recur) Tree.IsForm :=
  .bind fun _ => .bind fun _ => yields_ofForm

theorem yields_keywordStatement (word : String) :
    Yields (keywordStatement recur word) Tree.IsForm := by
  refine .ite (yields_declaration word) (.ite (yields_jump word) (.ite ?_ ?_))
  · exact .bind fun _ => .bind fun _ => yields_ofForm
  · -- the keywords that begin neither a declaration nor a jump
    split
    · exact yields_branch
    · exact yields_loop
    · exact yields_switch
    · exact yields_selection
    · exact yields_simpleTree .line

theorem yields_labelled : Yields (labelled recur) Tree.IsForm := by
  refine .bind fun _ => .bind fun _ => .bind fun _ => .ite ?_ ?_
  · exact .bind fun _ => yields_ofForm
  · exact .bind fun _ => yields_ofForm

/-- **A statement is a form**, if blocks are. -/
theorem yields_statement (hblock : Yields recur.block Tree.IsForm) :
    Yields (statement recur) Tree.IsForm := by
  refine .bind fun _ => .ite yields_labelled (.bind fun first => ?_)
  -- a statement begins with a keyword, with a brace or with anything else
  split
  · exact yields_keywordStatement _
  · exact .ite hblock (yields_simpleTree .line)
  · exact yields_simpleTree .line

/-- At any depth, a block is a form. -/
theorem yields_read_block (depth : Nat) : Yields (read depth).block Tree.IsForm := by
  cases depth with
  | zero => exact .failure
  | succ depth => exact yields_block

theorem yields_read_statement (depth : Nat) : Yields (read depth).statement Tree.IsForm := by
  cases depth with
  | zero => exact .failure
  | succ depth => exact yields_statement (yields_read_block depth)

/-! ### Files -/

/-- An identifier is not empty. -/
theorem yields_identifier : Yields identifier (· ≠ "") :=
  .bind fun token => .pure token.nonempty

/-- A package clause names its package by an identifier. -/
theorem yields_packageClause : Yields packageClause Tree.NamesPackage := by
  refine .bind fun _ => .bindOf yields_identifier fun name hname => .pure ?_
  intro name' below heq
  obtain ⟨heq, -⟩ := Tree.node.inj heq
  obtain rfl := Label.packageClause.inj heq
  exact hname

theorem yields_importDeclaration : Yields importDeclaration Tree.IsForm := by
  refine .bind fun _ => .bind fun _ => .ite ?_ ?_
  · exact .bind fun _ => .bind fun _ => .bind fun _ => yields_ofForm
  · exact .bind fun _ => yields_ofForm

theorem yields_function : Yields (function recur) Tree.IsForm :=
  .bind fun _ => .bind fun _ => .bind fun _ => .bind fun _ => .bind fun _ => yields_ofForm

theorem yields_methodDeclaration : Yields (methodDeclaration recur) Tree.IsForm :=
  .bind fun _ => .bind fun _ => .bind fun _ => .bind fun _ => .bind fun _ => yields_ofForm

/-- What reads forms reads no empty package name. -/
theorem Yields.namesPackage {p : Parse Tree} (h : Yields p Tree.IsForm) :
    Yields p Tree.NamesPackage :=
  fun tokens tree rest hread => (h tokens tree rest hread).namesPackage

/-- **No item of a file names a package by the empty text.** -/
theorem yields_fileItem (depth : Nat) : Yields (fileItem (read depth)) Tree.NamesPackage := by
  refine .bind fun first => ?_
  -- a clause, an import, a function or method, or a statement
  split
  · exact yields_packageClause
  · exact Yields.namesPackage yields_importDeclaration
  · exact Yields.namesPackage
      (.orElse yields_function (.orElse yields_methodDeclaration (yields_read_statement depth)))
  · exact Yields.namesPackage (yields_read_statement depth)

/-- What holds of every item holds of all statements of a list. -/
theorem yields_statementsWithin {P : Tree → Prop} {item : Parse Tree} (hitem : Yields item P)
    (closed : Parse Bool) (clock : List Token) :
    Yields (statementsWithin item closed clock) fun trees => ∀ tree ∈ trees, P tree := by
  -- without statements there is nothing to show
  have hnone : Yields (pure [] : Parse (List Tree)) fun trees => ∀ tree ∈ trees, P tree :=
    .pure nofun
  induction clock with
  | nil => exact .bind fun _ => .ite hnone .failure
  | cons _ clock ih =>
    rw [statementsWithin]
    refine .bind fun _ => .ite hnone (.bind fun _ => .ite ?_ ?_)
    · -- an empty statement adds nothing
      refine .bind fun _ => .bind fun _ => .ite hnone (.bind fun _ => ?_)
      dsimp only
      exact .ite (.bind fun _ => ih) ih
    · -- an item may be the last one, or others follow it
      refine .bindOf hitem fun first hfirst => .bind fun _ => .ite ?_ ?_
      · exact .pure (List.forall_mem_singleton.2 hfirst)
      · exact .bind fun _ => .bindOf ih fun rest hrest =>
          .pure (List.forall_mem_cons.2 ⟨hfirst, hrest⟩)

/-- The children of a file are its items. -/
theorem yields_file (depth : Nat) :
    Yields (file (read depth)) fun tree => ∀ child ∈ tree.children, child.NamesPackage :=
  .bindOf (.bind fun _ => yields_statementsWithin (yields_fileItem depth) _ _) fun _ h => .pure h

end Grammar

/-- **The package of a source has a name.** -/
theorem Usage.package_ne_empty {source : String} {usage : Usage}
    (h : Usage.ofSource source = .ok usage) : usage.package ≠ "" := by
  rw [ofSource] at h
  split at h
  · cases h
  · next file hfile =>
    obtain ⟨tokens, -, hread⟩ := Option.bind_eq_some_iff.1 hfile
    have hchildren := (Grammar.yields_file _).of_readAll? hread
    rw [ofTree] at h
    split at h
    · cases h
    · next package hpackage =>
      obtain ⟨before, below, after, hfile, -⟩ := Tree.package?_eq_some.1 hpackage
      obtain rfl := Except.ok.inj h
      exact hchildren (.node (.packageClause package) below)
        (hfile ▸ List.mem_append_cons_self) package below rfl

end PackageGraph.Go
