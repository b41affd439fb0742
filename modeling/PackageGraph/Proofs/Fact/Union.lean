import Mathlib.Data.List.Dedup
import PackageGraph.Proofs.Fact.Merged

/-!
# A set of facts is a union

Whatever facts are collected, and however they are mixed, the set holds on each directory the union
of what they say of it, under the first name that is not empty (`FactSet.IsUnion`).

Directories and usages are known from the members of the list alone
(`FactSet.IsUnion.get?_usage_eq`), so neither the order of the facts nor their repetition matters to
them. The order matters to names; but a fact that is collected once more comes last, where its name
is either the first one that was found before or no better than that (`Fact.firstName_concat`).
-/

namespace PackageGraph

open Sorted

/-! ### Names -/

/-- A fact that is among some facts already adds no name behind them. -/
theorem Fact.firstName_concat {facts : List Fact} {fact : Fact} (h : fact ∈ facts) :
    firstName (facts ++ [fact]) = firstName facts := by
  rw [firstName, firstName, List.map_append, List.find?_append]
  cases hfind : (facts.map name).find? (!·.isEmpty) with
  | some found => rfl
  | none =>
    -- no name was found, so that of the fact is empty as well
    have hname := List.find?_eq_none.1 hfind fact.name (List.mem_map_of_mem h)
    rw [List.map_singleton, List.find?_singleton, if_neg hname]
    rfl

namespace FactSet

/-! ### Unions by directory -/

/-- On each directory the set has the union of what some facts say of it. -/
structure IsUnion (set : FactSet) (facts : List Fact) : Prop where
  /-- A directory is known if a fact is on it. -/
  isSome_iff : ∀ directory, (set.get? directory).isSome = true ↔
    ∃ fact ∈ facts, fact.directory = directory
  /-- What is known on a directory is a fact on it. -/
  directory_eq : ∀ directory united, set.get? directory = some united →
    united.directory = directory
  /-- The first name that is not empty stays. -/
  name_eq : ∀ directory united, set.get? directory = some united →
    united.name = Fact.firstName (facts.filter fun fact => fact.directory = directory)
  /-- A path is imported if some fact on the directory imports it. -/
  contains_iff : ∀ directory united, set.get? directory = some united → ∀ path,
    (united.usage.contains path = true ↔
      ∃ fact ∈ facts, fact.directory = directory ∧ fact.usage.contains path = true)
  /-- A symbol is used if some fact on the directory uses it. -/
  uses_iff : ∀ directory united, set.get? directory = some united → ∀ path symbol,
    (united.usage.Uses path symbol ↔
      ∃ fact ∈ facts, fact.directory = directory ∧ fact.usage.Uses path symbol)
  /-- The facts of the set are listed in the order of their directories. -/
  directories_sorted : (set.toList.map Fact.directory).Pairwise
    fun directory directory' => Key.before directory directory' = true
  /-- A fact is listed if it is known on its directory. -/
  mem_toList_iff : ∀ fact, fact ∈ set.toList ↔ set.get? fact.directory = some fact
  /-- The size is the number of different directories. -/
  size_eq : set.size = (facts.map Fact.directory).dedup.length

variable {facts facts' : List Fact} {set set' : FactSet}

/-- A set has as many facts as there are different directories that it has a fact on. -/
theorem size_eq_of_isSome {directories : List String}
    (h : ∀ directory, (set.get? directory).isSome = true ↔ directory ∈ directories) :
    set.size = directories.dedup.length := by
  have hperm : set.byDirectory.keys.Perm directories.dedup := by
    rw [List.perm_ext_iff_of_nodup (Map.keys_nodup _) (List.nodup_dedup _)]
    intro directory
    rw [Map.mem_keys, ← Option.isSome_iff_exists, List.mem_dedup]
    exact h directory
  rw [← hperm.length_eq, Map.keys, List.length_map]
  rfl

/-- A set has as many facts as there are directories. -/
theorem size_ofList (facts : List Fact) :
    (ofList facts).size = (facts.map Fact.directory).dedup.length :=
  size_eq_of_isSome fun directory => by rw [isSome_get?_ofList, List.mem_map]

/-- **What is collected from facts is their union.** -/
theorem isUnion_ofList (facts : List Fact) : (ofList facts).IsUnion facts where
  isSome_iff _ := isSome_get?_ofList
  directory_eq _ _ h := (ofList facts).keyed h
  name_eq directory united h := by
    obtain ⟨first, rest, hfilter, rfl⟩ := exists_filter_of_get?_ofList h
    rw [Fact.name_foldl_merge, hfilter]
  contains_iff _ _ h := contains_iff_of_get?_ofList h
  uses_iff _ _ h := uses_iff_of_get?_ofList h
  directories_sorted := by
    rw [map_directory_toList]
    exact Map.keys_sorted _
  mem_toList_iff _ := mem_toList
  size_eq := size_ofList facts

/-! ### Lists with the same members -/

/-- **The same facts, in any order and any number, have the same usages.** -/
theorem IsUnion.get?_usage_eq (h : set.IsUnion facts) (h' : set'.IsUnion facts')
    (hsame : ∀ fact, fact ∈ facts' ↔ fact ∈ facts) (directory : String) :
    (set'.get? directory).map Fact.usage = (set.get? directory).map Fact.usage := by
  have hsome := h.isSome_iff directory
  have hsome' := h'.isSome_iff directory
  simp only [hsame] at hsome'
  rw [← hsome] at hsome'
  cases hunited : set.get? directory with
  -- a fact is in both sets, or in neither
  | none =>
    cases hunited' : set'.get? directory with
    | none => rfl
    | some united' => simp [hunited, hunited'] at hsome'
  | some united =>
    cases hunited' : set'.get? directory with
    | none => simp [hunited, hunited'] at hsome'
    | some united' =>
      -- both usages have the same paths, and the same symbols under them
      refine congrArg some (Map.ext_members (fun path => ?_) fun path symbol => ?_)
      · rw [h.contains_iff _ _ hunited, h'.contains_iff _ _ hunited']
        simp only [hsame]
      · refine Iff.trans (h'.uses_iff _ _ hunited' path symbol) (Iff.trans ?_
          (h.uses_iff _ _ hunited path symbol).symm)
        simp only [hsame]

/-- Directories with usages are listed as they are stored. -/
theorem map_usage_toList (set : FactSet) :
    (set.toList.map fun fact => (fact.directory, fact.usage)) =
      (set.byDirectory.mapValues fun _ fact => fact.usage).entries := by
  rw [toList, Map.values, Map.mapValues, List.map_map]
  refine List.map_congr_left fun entry hentry => ?_
  rw [Function.comp_apply, set.keyed (Map.get?_eq_some.2 hentry)]

/-- The same facts list the same directories with the same usages. -/
theorem IsUnion.map_usage_toList_eq (h : set.IsUnion facts) (h' : set'.IsUnion facts')
    (hsame : ∀ fact, fact ∈ facts' ↔ fact ∈ facts) :
    (set'.toList.map fun fact => (fact.directory, fact.usage)) =
      set.toList.map fun fact => (fact.directory, fact.usage) := by
  have husages : (set'.byDirectory.mapValues fun _ fact => fact.usage) =
      set.byDirectory.mapValues fun _ fact => fact.usage := by
    refine Map.ext fun directory => ?_
    rw [Map.get?_mapValues, Map.get?_mapValues]
    exact h.get?_usage_eq h' hsame directory
  rw [map_usage_toList, map_usage_toList, husages]

/-- Unions of the same facts are equal if the facts have the same first names. -/
theorem IsUnion.ext (h : set.IsUnion facts) (h' : set'.IsUnion facts')
    (hsame : ∀ fact, fact ∈ facts' ↔ fact ∈ facts)
    (hnames : ∀ directory,
      Fact.firstName (facts'.filter fun fact => fact.directory = directory) =
        Fact.firstName (facts.filter fun fact => fact.directory = directory)) : set' = set := by
  refine FactSet.ext fun directory => ?_
  have husage := h.get?_usage_eq h' hsame directory
  cases hunited : set.get? directory with
  | none => simpa [hunited] using husage
  | some united =>
    rw [hunited, Option.map_some, Option.map_eq_some_iff] at husage
    obtain ⟨united', hunited', husage⟩ := husage
    -- a fact is its name, its directory and its usage, and all three are known
    have hname : united'.name = united.name := by
      rw [h.name_eq _ _ hunited, h'.name_eq _ _ hunited', hnames]
    have hdirectory : united'.directory = united.directory := by
      rw [h.directory_eq _ _ hunited, h'.directory_eq _ _ hunited']
    cases united
    cases united'
    simp only at hname hdirectory husage
    rw [hunited', hname, hdirectory, husage]

/-- **A fact that was collected adds nothing once more.** -/
theorem insert_of_mem {fact : Fact} (hfact : fact ∈ facts) :
    (ofList facts).insert fact = ofList facts := by
  have hinsert : (ofList facts).insert fact = ofList (facts ++ [fact]) := by
    rw [ofList, ofList, List.foldl_append]
    rfl
  rw [hinsert]
  refine (isUnion_ofList facts).ext (isUnion_ofList _) (fun other => ?_) fun directory => ?_
  · -- the same facts are there as before
    simpa using fun heq => heq ▸ hfact
  · -- and each directory has the same first name
    rw [List.filter_append]
    by_cases hdirectory : fact.directory = directory
    · rw [List.filter_cons_of_pos (by simpa using hdirectory)]
      exact Fact.firstName_concat (List.mem_filter.2 ⟨hfact, by simpa using hdirectory⟩)
    · rw [List.filter_cons_of_neg (by simpa using hdirectory), List.filter_nil, List.append_nil]

/-- **A set of facts is a union by directory.** The set that is collected from some facts, or made
by adding them one after another, has a fact on a directory exactly if one of them is on it. This
fact has the first name of those on the directory that is not empty; it has the import paths that
any of them has, each with the symbols that they have for it. The facts of the set are listed in
strictly increasing order of their directories, and there are as many as the directories are. So
facts in another order give the same directories and usages, and adding a fact once more changes
nothing. -/
theorem ofList_union (facts : List Fact) :
    (ofList facts).IsUnion facts ∧
    (∀ more, ofList (facts ++ more) = more.foldl insert (ofList facts)) ∧
    (∀ facts' : List Fact, facts'.Perm facts →
      ((ofList facts').toList.map fun fact => (fact.directory, fact.usage)) =
        (ofList facts).toList.map fun fact => (fact.directory, fact.usage)) ∧
    ∀ fact ∈ facts, (ofList facts).insert fact = ofList facts := by
  refine ⟨isUnion_ofList facts, fun more => List.foldl_append, fun facts' hperm => ?_,
    fun fact hfact => insert_of_mem hfact⟩
  exact (isUnion_ofList facts).map_usage_toList_eq (isUnion_ofList facts')
    fun _ => hperm.mem_iff

/-- The package in `lib` is named by the second fact on it, and has a path without symbols. -/
theorem ofList_union_unnamed :
    let unnamed := (Fact.ofName "" "lib").withUsage "fmt" []
    let facts :=
      [unnamed, Fact.ofName "main" "cmd", Fact.ofName "lib" "lib", Fact.ofName "old" "lib"]
    (∃ united, (ofList facts).get? "lib" = some united ∧ united.name = "lib" ∧
      united.usage.contains "fmt" = true) ∧
    (ofList facts).size = 2 ∧
    ((ofList facts.reverse).toList.map fun fact => (fact.directory, fact.usage)) =
      ((ofList facts).toList.map fun fact => (fact.directory, fact.usage)) ∧
    (ofList facts).insert unnamed = ofList facts := by
  intro unnamed facts
  obtain ⟨hunion, -, hperm, hinsert⟩ := ofList_union facts
  obtain ⟨united, hunited⟩ := Option.isSome_iff_exists.1
    ((hunion.isSome_iff "lib").2 ⟨unnamed, List.mem_cons_self, by decide +kernel⟩)
  refine ⟨⟨united, hunited, ?_, ?_⟩, ?_, hperm _ facts.reverse_perm,
    hinsert unnamed List.mem_cons_self⟩
  · rw [hunion.name_eq _ _ hunited]
    decide +kernel
  · exact (hunion.contains_iff _ _ hunited "fmt").2
      ⟨unnamed, List.mem_cons_self, by decide +kernel, by decide +kernel⟩
  · rw [hunion.size_eq]
    decide +kernel

end FactSet

end PackageGraph
