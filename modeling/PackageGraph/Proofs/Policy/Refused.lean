import Mathlib.Data.List.Find
import PackageGraph.Proofs.Disk.Agree
import PackageGraph.Proofs.Path.Nesting
import PackageGraph.Proofs.Policy.Exclusion
import PackageGraph.Sorted.Sort

/-!
# Rules that are refused

Rules are refused for three reasons, and each of them is stated of the rules as they are written:
two grouping entries nest (`Policy.checkGrouping_eq_error`), the project does not have an excluded
directory (`Policy.expandDirectories_eq_error`), a forbidden rule has a blank source
(`Policy.gatherForbidden_eq_error`). Which of the nested pairs or missing directories is reported is
stated, too: the least pair, and the first directory in the order given.

Of the project only its directories matter, so disks that agree but for the contents of files give
the same policy (`Policy.ofRules_eq_of_agrees`).
-/

namespace PackageGraph

open Sorted

namespace Policy

/-! ### Grouping entries -/

/-- The second directory of two in a list is below the first one. -/
structure NestsIn (directories : List String) (outer inner : String) : Prop where
  /-- The outer directory is in the list. -/
  outer_mem : outer ∈ directories
  /-- The inner one is in the list. -/
  inner_mem : inner ∈ directories
  /-- They are different. -/
  ne : inner ≠ outer
  /-- The inner one is below the outer one. -/
  under : Path.isUnder inner outer = true

/-- No other pair with this property comes before this one. -/
def IsLeast (pairs : String → String → Prop) (outer inner : String) : Prop :=
  pairs outer inner ∧
    ∀ outer' inner', pairs outer' inner' → Key.before (outer', inner') (outer, inner) = false

theorem IsLeast.unique {pairs : String → String → Prop} {outer inner outer' inner' : String}
    (h : IsLeast pairs outer inner) (h' : IsLeast pairs outer' inner') :
    outer = outer' ∧ inner = inner' :=
  Prod.mk.inj (Key.before_connected (h'.2 _ _ h.1) (h.2 _ _ h'.1))

/-- In a list that begins with its least member, nothing that nests lies above that. -/
theorem nestsIn_cons {first outer inner : String} {rest : List String}
    (hfirst : ∀ other ∈ rest, Key.before first other = true) (hne : ∀ other ∈ rest, other ≠ "") :
    NestsIn (first :: rest) outer inner ↔
      outer = first ∧ inner ∈ rest ∧ Path.isUnder inner first = true ∨
        NestsIn rest outer inner := by
  constructor
  · intro h
    rcases List.mem_cons.1 h.outer_mem with rfl | houter
    · exact .inl ⟨rfl, (List.mem_cons.1 h.inner_mem).resolve_left h.ne, h.under⟩
    · rcases List.mem_cons.1 h.inner_mem with rfl | hinner
      · -- nothing behind the first directory is above it
        have hunder := h.under
        rw [Path.isUnder_of_before (hne outer houter) (hfirst outer houter)] at hunder
        cases hunder
      · exact .inr ⟨houter, hinner, h.ne, h.under⟩
  · rintro (⟨rfl, hinner, hunder⟩ | h)
    · exact ⟨.head _, .tail _ hinner, (Key.before_ne (hfirst inner hinner)).symm, hunder⟩
    · exact ⟨.tail _ h.outer_mem, .tail _ h.inner_mem, h.ne, h.under⟩

/-- **The first nested pair of a sorted list is the least one.** -/
theorem nestedPair?_spec {directories : List String}
    (hsorted : directories.Pairwise fun a b => Key.before a b = true)
    (hne : ∀ directory ∈ directories, directory ≠ "") :
    match nestedPair? directories with
    | some (outer, inner) => IsLeast (NestsIn directories) outer inner
    | none => ∀ outer inner, ¬NestsIn directories outer inner := by
  induction directories with
  | nil => exact fun _ _ h => nomatch h.outer_mem
  | cons first rest ih =>
    obtain ⟨hfirst, hrest⟩ := List.pairwise_cons.1 hsorted
    obtain ⟨-, hne⟩ := List.forall_mem_cons.1 hne
    have ih := ih hrest hne
    have hcons {outer inner : String} : NestsIn (first :: rest) outer inner ↔
        outer = first ∧ inner ∈ rest ∧ Path.isUnder inner first = true ∨
          NestsIn rest outer inner := nestsIn_cons hfirst hne
    -- of two directories in this order only the second one can be below the other
    have htest : ∀ inner ∈ rest, (Path.isUnder inner first || Path.isUnder first inner) =
        Path.isUnder inner first := by
      intro inner hinner
      rw [Path.isUnder_of_before (hne inner hinner) (hfirst inner hinner), Bool.or_false]
    rw [nestedPair?, List.find?_congr htest]
    cases hfind : rest.find? fun inner => Path.isUnder inner first with
    | none =>
      -- nothing is below the first directory, so the search goes on behind it
      rw [List.find?_eq_none] at hfind
      have hrest : ∀ outer inner, NestsIn (first :: rest) outer inner ↔ NestsIn rest outer inner :=
        fun outer inner => hcons.trans
          (or_iff_right fun h => hfind inner h.2.1 h.2.2)
      dsimp only
      simpa only [IsLeast, hrest] using ih
    | some inner =>
      -- the first directory that is below the first one makes the least pair
      obtain ⟨hinner, hunder, hleast⟩ := (find?_eq_some_iff_least hrest).1 hfind
      refine ⟨hcons.2 (.inl ⟨rfl, hinner, hunder⟩), fun outer' inner' hpair => ?_⟩
      change (Key.before outer' first ||
        (!Key.before first outer' && Key.before inner' inner)) = false
      rcases hcons.1 hpair with ⟨rfl, hinner', hunder'⟩ | hpair
      · rw [Key.before_irrefl, Bool.false_or, Bool.not_false, Bool.true_and]
        exact hleast inner' hinner' hunder'
      · have hbefore := hfirst outer' hpair.outer_mem
        rw [hbefore, Key.before_asymm hbefore]
        rfl

/-- The grouping entries in canonical spelling, without blank ones. -/
def groupingDirectories (entries : List String) : List String :=
  (entries.map Path.normalize).filter (!·.isEmpty)

theorem mem_ofList_groupingDirectories {entries : List String} {directory : String} :
    directory ∈ (Set.ofList (groupingDirectories entries)).toList ↔
      directory ∈ groupingDirectories entries := by
  rw [← Set.contains_iff_mem_toList, Set.contains_ofList]

/-- **The pair that is looked for among grouping entries** is the least one that nests. -/
theorem nestedPair?_groupingDirectories (entries : List String) :
    match nestedPair? (Set.ofList (groupingDirectories entries)).toList with
    | some (outer, inner) => IsLeast (NestsIn (groupingDirectories entries)) outer inner
    | none => ∀ outer inner, ¬NestsIn (groupingDirectories entries) outer inner := by
  have hnests : NestsIn (Set.ofList (groupingDirectories entries)).toList =
      NestsIn (groupingDirectories entries) := by
    funext outer inner
    refine propext ⟨fun h => ?_, fun h => ?_⟩
    · exact ⟨mem_ofList_groupingDirectories.1 h.outer_mem,
        mem_ofList_groupingDirectories.1 h.inner_mem, h.ne, h.under⟩
    · exact ⟨mem_ofList_groupingDirectories.2 h.outer_mem,
        mem_ofList_groupingDirectories.2 h.inner_mem, h.ne, h.under⟩
  have hne : ∀ directory ∈ (Set.ofList (groupingDirectories entries)).toList, directory ≠ "" := by
    intro directory hdirectory
    have hkept := (List.mem_filter.1 (mem_ofList_groupingDirectories.1 hdirectory)).2
    simpa using hkept
  have hspec := nestedPair?_spec (Set.toList_sorted _) hne
  rw [hnests] at hspec
  exact hspec

/-- The check looks for a nested pair among the sorted entries. -/
theorem checkGrouping_eq (entries : List String) :
    checkGrouping entries =
      match nestedPair? (Set.ofList (groupingDirectories entries)).toList with
      | some (outer, inner) => .error (.nested outer inner)
      | none => .ok (Set.ofList (groupingDirectories entries)).toList := rfl

/-- **Grouping entries are refused if two of them nest**; the least pair is reported. -/
theorem checkGrouping_eq_error {entries : List String} {error : RuleError} :
    checkGrouping entries = .error error ↔ ∃ outer inner, error = .nested outer inner ∧
      IsLeast (NestsIn (groupingDirectories entries)) outer inner := by
  have hspec := nestedPair?_groupingDirectories entries
  rw [checkGrouping_eq]
  cases hpair : nestedPair? (Set.ofList (groupingDirectories entries)).toList with
  | none =>
    rw [hpair] at hspec
    refine iff_of_false (fun h => nomatch h) ?_
    rintro ⟨outer, inner, -, hleast⟩
    exact hspec outer inner hleast.1
  | some pair =>
    obtain ⟨outer, inner⟩ := pair
    rw [hpair] at hspec
    constructor
    · exact fun h => ⟨outer, inner, (Except.error.inj h).symm, hspec⟩
    · rintro ⟨outer', inner', rfl, hleast⟩
      obtain ⟨rfl, rfl⟩ := IsLeast.unique hleast hspec
      rfl

/-- **Grouping entries are accepted if no two of them nest**; they are sorted, then. -/
theorem checkGrouping_eq_ok {entries grouping : List String} :
    checkGrouping entries = .ok grouping ↔
      (∀ outer inner, ¬NestsIn (groupingDirectories entries) outer inner) ∧
        grouping = (Set.ofList (groupingDirectories entries)).toList := by
  have hspec := nestedPair?_groupingDirectories entries
  rw [checkGrouping_eq]
  cases hpair : nestedPair? (Set.ofList (groupingDirectories entries)).toList with
  | none =>
    rw [hpair] at hspec
    constructor
    · exact fun h => ⟨hspec, (Except.ok.inj h).symm⟩
    · rintro ⟨-, rfl⟩
      rfl
  | some pair =>
    obtain ⟨outer, inner⟩ := pair
    rw [hpair] at hspec
    refine iff_of_false (fun h => nomatch h) ?_
    rintro ⟨hnone, -⟩
    exact hnone outer inner hspec.1

/-! ### Excluded directories -/

variable {rules : PolicyRules} {moduleRoot project : String} {disk : Disk} {policy : Policy}

/-- Does an entry name a directory that the project does not have? A blank entry names none. -/
def isMissing (disk : Disk) (project entry : String) : Bool :=
  !(Path.normalize entry).isEmpty &&
    !disk.isDirectory (Disk.joinPath project (Path.normalize entry))

/-- A directory cannot be expanded if the project does not have it. -/
theorem packagesBelow_eq_error {directory : String} {error : RuleError} :
    packagesBelow disk project moduleRoot directory = .error error ↔
      disk.isDirectory (Disk.joinPath project directory) = false ∧
        error = .missingDirectory directory project := by
  rw [packagesBelow, Disk.isDirectory]
  cases disk.locate (Disk.joinPath project directory) with
  | error failure => simp [eq_comm]
  | ok found =>
    obtain ⟨names, entry⟩ := found
    cases entry <;> simp [Entry.isDirectory, eq_comm]

/-- It is expanded if the project has it. -/
theorem isOk_packagesBelow (directory : String) :
    (packagesBelow disk project moduleRoot directory).isOk =
      disk.isDirectory (Disk.joinPath project directory) := by
  rw [packagesBelow, Disk.isDirectory]
  cases disk.locate (Disk.joinPath project directory) with
  | error failure => rfl
  | ok found =>
    obtain ⟨names, entry⟩ := found
    cases entry <;> rfl

/-- **Excluded directories are refused if the project does not have one of them**; the first one in
the order given is reported. -/
theorem expandDirectories_eq_error {directories : List String} {error : RuleError} :
    expandDirectories disk project moduleRoot directories = .error error ↔
      ∃ entry, directories.find? (isMissing disk project) = some entry ∧
        error = .missingDirectory (Path.normalize entry) project := by
  -- the first directory that cannot be expanded is the first entry that is missing
  have hfind : ((directories.map Path.normalize).filter (!·.isEmpty)).find?
        (fun directory => !(packagesBelow disk project moduleRoot directory).isOk) =
      (directories.find? (isMissing disk project)).map Path.normalize := by
    rw [List.find?_filter, List.find?_map]
    simp only [isOk_packagesBelow, Function.comp_def, Bool.decide_and, Bool.decide_eq_true]
    rfl
  have hmapM : expandDirectories disk project moduleRoot directories = .error error ↔
      ((directories.map Path.normalize).filter (!·.isEmpty)).mapM
        (packagesBelow disk project moduleRoot) = .error error := by
    rw [expandDirectories, bind_pure_eq_error]
  rw [hmapM, mapM_eq_error, hfind]
  constructor
  · rintro ⟨directory, hfirst, hfails⟩
    obtain ⟨entry, hentry, rfl⟩ := Option.map_eq_some_iff.1 hfirst
    exact ⟨entry, hentry, (packagesBelow_eq_error.1 hfails).2⟩
  · rintro ⟨entry, hentry, rfl⟩
    refine ⟨Path.normalize entry, by rw [hentry]; rfl, packagesBelow_eq_error.2 ⟨?_, rfl⟩⟩
    have hmissing := List.find?_some hentry
    rw [isMissing, Bool.and_eq_true] at hmissing
    exact Bool.not_eq_eq_eq_not.1 hmissing.2

/-! ### Forbidden rules -/

/-- A rule is refused if its source is blank. -/
theorem addForbidden_eq_error {known : Sorted.Map String (Sorted.Set String)}
    {rule : ForbiddenRule} {error : RuleError} :
    addForbidden known rule = .error error ↔ error = .blankSource ∧ trimmed rule.source = "" := by
  rw [addForbidden]
  split
  · next hblank => simp [String.isEmpty_iff.1 hblank, eq_comm]
  · next hblank => simpa using fun _ h => hblank (by simp [h])

/-- **Forbidden rules are refused if one of them has a blank source.** -/
theorem gatherForbidden_eq_error {written : List ForbiddenRule} {error : RuleError} :
    gatherForbidden written = .error error ↔
      error = .blankSource ∧ ∃ rule ∈ written, trimmed rule.source = "" := by
  suffices h : ∀ known, written.foldlM addForbidden known = .error error ↔
      error = .blankSource ∧ ∃ rule ∈ written, trimmed rule.source = "" from h .empty
  induction written with
  | nil =>
    intro known
    rw [List.foldlM_nil]
    simp [pure, Except.pure]
  | cons rule written ih =>
    intro known
    rw [List.foldlM_cons, bind_eq_error, addForbidden_eq_error]
    simp only [List.exists_mem_cons_iff, and_or_left]
    cases hfirst : addForbidden known rule with
    | ok next => simp [ih]
    | error other =>
      -- what comes after a blank source is not looked at, and could be refused for no other reason
      obtain ⟨-, hblank⟩ := addForbidden_eq_error.1 hfirst
      exact ⟨fun h => .inl (h.resolve_right fun ⟨_, hnext, _⟩ => nomatch hnext),
        fun h => .inl ⟨h.elim And.left And.left, hblank⟩⟩

/-! ### Disks that agree -/

section Agrees

variable {changed : Names → Prop} {disk' : Disk}

/-- **What a directory is expanded to**, looked up on the disk. -/
theorem exists_mem_packagesBelow (hdistinct : disk.root.Distinct) {directory id : String} :
    (∃ ids, packagesBelow disk project moduleRoot directory = .ok ids ∧ id ∈ ids) ↔
      ∃ here top names children,
        disk.locate (Disk.joinPath project directory) = .ok (here, .directory top) ∧
        disk.root.descendant? (here ++ names) = some (.directory children) ∧
        Path.qualify moduleRoot (Path.normalize (Text.joinWith "/" (directory :: names))) = id := by
  constructor
  · -- what is expanded is a directory, and what is listed are its directories
    rintro ⟨ids, hids, hid⟩
    have hdirectory : (packagesBelow disk project moduleRoot directory).isOk = true := by
      rw [hids]
      rfl
    rw [isOk_packagesBelow] at hdirectory
    obtain ⟨here, top, hlocate⟩ := Disk.isDirectory_iff.1 hdirectory
    rw [packagesBelow_of_locate hlocate] at hids
    obtain ⟨names, hnames, rfl⟩ := List.mem_map.1 (Except.ok.inj hids ▸ hid)
    have htop := (Disk.locate_eq_ok.1 hlocate).2.2
    obtain ⟨children, hchildren⟩ := (Entry.mem_directories_iff (hdistinct.descendant htop)).1 hnames
    refine ⟨here, top, names, children, hlocate, ?_, rfl⟩
    rw [Entry.descendant?_append, htop, Option.bind_some, hchildren]
  · rintro ⟨here, top, names, children, hlocate, hchildren, rfl⟩
    rw [Entry.descendant?_append, (Disk.locate_eq_ok.1 hlocate).2.2, Option.bind_some] at hchildren
    exact ⟨_, packagesBelow_of_locate hlocate,
      List.mem_map_of_mem (Entry.mem_directories hchildren)⟩

theorem isMissing_eq_of_agrees (hagrees : disk.Agrees changed disk') :
    isMissing disk' project = isMissing disk project := by
  funext entry
  rw [isMissing, isMissing, hagrees.isDirectory_eq]

/-- A directory is expanded alike on disks that agree. -/
theorem exists_mem_packagesBelow_of_agrees (hagrees : disk.Agrees changed disk')
    (hdistinct : disk.root.Distinct) (hdistinct' : disk'.root.Distinct) {directory id : String}
    (h : ∃ ids, packagesBelow disk project moduleRoot directory = .ok ids ∧ id ∈ ids) :
    ∃ ids, packagesBelow disk' project moduleRoot directory = .ok ids ∧ id ∈ ids := by
  obtain ⟨here, top, names, children, hlocate, hchildren, hid⟩ :=
    (exists_mem_packagesBelow hdistinct).1 h
  obtain ⟨top', hlocate'⟩ := hagrees.locate_directory hlocate
  obtain ⟨children', hchildren'⟩ := hagrees.exists_directory hchildren
  exact (exists_mem_packagesBelow hdistinct').2
    ⟨here, top', names, children', hlocate', hchildren', hid⟩

/-- Excluded directories are expanded alike, but for the order that a disk lists them in. -/
theorem expandDirectories_of_agrees (hagrees : disk.Agrees changed disk')
    (hdistinct : disk.root.Distinct) (hdistinct' : disk'.root.Distinct)
    {directories below : List String}
    (h : expandDirectories disk project moduleRoot directories = .ok below) :
    ∃ below', expandDirectories disk' project moduleRoot directories = .ok below' ∧
      ∀ id, id ∈ below' ↔ id ∈ below := by
  -- what is missing on the one disk is missing on the other
  have hnoError : ∀ error,
      expandDirectories disk' project moduleRoot directories ≠ .error error := by
    intro error herror
    have hmissing := expandDirectories_eq_error.1 herror
    rw [isMissing_eq_of_agrees hagrees] at hmissing
    cases h.symm.trans (expandDirectories_eq_error.2 hmissing)
  obtain ⟨below', hbelow'⟩ := exists_ok_of_forall_ne_error hnoError
  refine ⟨below', hbelow', fun id => ?_⟩
  rw [mem_expandDirectories hbelow', mem_expandDirectories h]
  refine exists_congr fun entry => and_congr_right fun _ => and_congr_right fun _ => ?_
  exact ⟨exists_mem_packagesBelow_of_agrees hagrees.symm hdistinct' hdistinct,
    exists_mem_packagesBelow_of_agrees hagrees hdistinct hdistinct'⟩

/-- **Of a project only its directories matter to a policy.** -/
theorem ofRules_eq_of_agrees (hagrees : disk.Agrees changed disk')
    (hdistinct : disk.root.Distinct) (hdistinct' : disk'.root.Distinct) :
    ofRules rules moduleRoot disk' project = ofRules rules moduleRoot disk project := by
  rw [ofRules, ofRules]
  cases hbelow : expandDirectories disk project moduleRoot rules.excludedDirectories with
  | error error =>
    have hmissing := expandDirectories_eq_error.1 hbelow
    -- the same directory is reported
    rw [← isMissing_eq_of_agrees hagrees] at hmissing
    rw [expandDirectories_eq_error.2 hmissing]
  | ok below =>
    obtain ⟨below', hbelow', hsame⟩ :=
      expandDirectories_of_agrees hagrees hdistinct hdistinct' hbelow
    -- the order of the identifiers makes no difference to their set
    have hset : Set.ofList ((rules.excludedPackages.map trimmed).filter (!·.isEmpty) ++ below') =
        Set.ofList ((rules.excludedPackages.map trimmed).filter (!·.isEmpty) ++ below) :=
      Sorted.Set.ext fun id => by
        rw [Set.contains_ofList, Set.contains_ofList, List.mem_append, List.mem_append, hsame]
    rw [hbelow']
    dsimp only [bind, Except.bind]
    rw [hset]

end Agrees

end Policy

end PackageGraph
