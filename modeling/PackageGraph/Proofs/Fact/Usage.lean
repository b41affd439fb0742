import PackageGraph.Fact

/-!
# Recorded usage

What is known of import usage after a record was made: the symbols of the record in addition to
those that were known before (`ImportUsage.uses_record`). If each record has a symbol, so has each
path (`ImportUsage.Occupied`).

To unite two usages is to make a record for each path of the second one, so a union has the symbols
of both (`ImportUsage.uses_union`). Usages without idle paths are known by their symbols
(`ImportUsage.Occupied.ext`).
-/

namespace PackageGraph.ImportUsage

open Sorted

/-- The symbol is used through the path. -/
def Uses (usage : ImportUsage) (path symbol : String) : Prop :=
  ∃ symbols, usage.get? path = some symbols ∧ symbols.contains symbol = true

theorem not_uses_empty (path symbol : String) : ¬ Uses .empty path symbol := by
  rintro ⟨symbols, hempty, -⟩
  cases hempty

/-- **A record adds its symbols to those of its path.** -/
theorem uses_record {usage : ImportUsage} {path : String} {symbols : List String}
    {path' symbol : String} :
    (usage.record path symbols).Uses path' symbol ↔
      usage.Uses path' symbol ∨ path' = path ∧ symbol ∈ symbols := by
  by_cases hpath : path' = path
  · -- the path of the record has its symbols and those that were known
    subst hpath
    rw [Uses, record, Map.get?_upsert_self]
    simp only [Option.some.injEq, exists_eq_left', Set.contains_insertAll, true_and, Uses]
    rw [or_comm]
    cases usage.get? path' with
    | none => simp
    | some known => simp
  · -- every other path is as it was
    rw [Uses, record, Map.get?_upsert_of_ne _ _ hpath]
    simp [Uses, hpath]

theorem Uses.contains {usage : ImportUsage} {path symbol : String} (h : usage.Uses path symbol) :
    usage.contains path = true := by
  obtain ⟨symbols, hsymbols, -⟩ := h
  rw [Map.contains, hsymbols]
  rfl

/-- Every path that is present has a symbol. -/
def Occupied (usage : ImportUsage) : Prop :=
  ∀ path, usage.contains path = true → ∃ symbol, usage.Uses path symbol

theorem occupied_empty : Occupied .empty := nofun

/-- Recording a symbol leaves no path without one. -/
theorem Occupied.record {usage : ImportUsage} (h : usage.Occupied) (path symbol : String) :
    (usage.record path [symbol]).Occupied := by
  intro path' hcontains
  by_cases hpath : path' = path
  · exact ⟨symbol, uses_record.2 (.inr ⟨hpath, List.mem_singleton_self symbol⟩)⟩
  · -- another path was there before
    have hknown : usage.contains path' = true := by
      rwa [ImportUsage.record, Map.contains, Map.get?_upsert_of_ne _ _ hpath] at hcontains
    obtain ⟨known, huses⟩ := h path' hknown
    exact ⟨known, uses_record.2 (.inl huses)⟩

/-! ### Unions -/

theorem contains_record {usage : ImportUsage} {path : String} {symbols : List String}
    {path' : String} :
    (usage.record path symbols).contains path' = true ↔
      usage.contains path' = true ∨ path' = path := by
  by_cases hpath : path' = path
  · subst hpath
    simp [record, Map.contains]
  · simp [record, Map.contains, Map.get?_upsert_of_ne _ _ hpath, hpath]

section Union

variable {usage other : ImportUsage} {path symbol : String}

/-- Records of entries add the symbols of each entry. -/
theorem uses_foldl_record (entries : List (String × Sorted.Set String)) :
    (entries.foldl (fun all entry => record all entry.1 entry.2.toList) usage).Uses path symbol ↔
      usage.Uses path symbol ∨
        ∃ symbols, (path, symbols) ∈ entries ∧ symbols.contains symbol = true := by
  induction entries generalizing usage with
  | nil => simp
  | cons entry entries ih =>
    obtain ⟨path', known⟩ := entry
    rw [List.foldl_cons, ih, uses_record, ← Set.contains_iff_mem_toList, or_assoc]
    refine or_congr_right ?_
    constructor
    · rintro (⟨rfl, hsymbol⟩ | ⟨symbols, hentry, hsymbol⟩)
      · exact ⟨known, List.mem_cons_self, hsymbol⟩
      · exact ⟨symbols, List.mem_cons_of_mem _ hentry, hsymbol⟩
    · rintro ⟨symbols, hentry, hsymbol⟩
      rcases List.mem_cons.1 hentry with hfirst | hentry
      · obtain ⟨rfl, rfl⟩ := Prod.mk.inj hfirst
        exact .inl ⟨rfl, hsymbol⟩
      · exact .inr ⟨symbols, hentry, hsymbol⟩

theorem contains_foldl_record (entries : List (String × Sorted.Set String)) :
    (entries.foldl (fun all entry => record all entry.1 entry.2.toList) usage).contains path =
        true ↔
      usage.contains path = true ∨ ∃ symbols, (path, symbols) ∈ entries := by
  induction entries generalizing usage with
  | nil => simp
  | cons entry entries ih =>
    obtain ⟨path', known⟩ := entry
    rw [List.foldl_cons, ih, contains_record, or_assoc]
    simp only [List.mem_cons, Prod.mk.injEq, exists_or, exists_and_left, exists_eq, and_true]

/-- **A union has the symbols of both usages.** -/
theorem uses_union :
    (usage.union other).Uses path symbol ↔ usage.Uses path symbol ∨ other.Uses path symbol := by
  rw [union, uses_foldl_record]
  simp only [Uses, Map.get?_eq_some]

/-- **A union has the paths of both usages.** -/
theorem contains_union :
    (usage.union other).contains path = true ↔
      usage.contains path = true ∨ other.contains path = true := by
  rw [union, contains_foldl_record, Map.contains_iff (m := other)]

/-- Without idle paths, a path is present if a symbol is used through it. -/
theorem Occupied.contains_iff (h : usage.Occupied) :
    usage.contains path = true ↔ ∃ symbol, usage.Uses path symbol :=
  ⟨h path, fun ⟨_, huses⟩ => huses.contains⟩

/-- **A usage without idle paths is known by its symbols.** -/
theorem Occupied.ext (h : usage.Occupied) (hother : other.Occupied)
    (huses : ∀ path symbol, usage.Uses path symbol ↔ other.Uses path symbol) : usage = other := by
  refine Map.ext_members (fun path => ?_) huses
  rw [h.contains_iff, hother.contains_iff]
  exact exists_congr fun symbol => huses path symbol

end Union

end PackageGraph.ImportUsage
