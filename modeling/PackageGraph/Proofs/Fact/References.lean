import Mathlib.Data.Finset.Card
import Mathlib.Data.List.Nodup
import PackageGraph.Proofs.Fact.Usage
import PackageGraph.Proofs.Sorted.Gather

/-!
# References

A usage is also a list of references: each import path with each symbol that is used through it,
every pair once (`references_nodup`). So numbers of symbols, which a usage holds path by path, can
be counted on the pairs (`countP_references`). The references of a union are those of either usage,
hence two usages have as many as their union and those that both of them have
(`countP_references_union`).
-/

namespace PackageGraph.ImportUsage

open Sorted

variable {usage other : ImportUsage} {path symbol : String}

/-! ### Symbols of a path -/

/-- The symbols used through a path; none if the path is absent. -/
def symbols (usage : ImportUsage) (path : String) : Sorted.Set String :=
  (usage.get? path).getD .empty

/-- The symbols that both usages have under a path. -/
def common (usage other : ImportUsage) (path : String) : List String :=
  (usage.symbols path).toList.filter (other.symbols path).contains

/-- The symbols of a path are those that are used through it. -/
theorem contains_symbols :
    (usage.symbols path).contains symbol = true ↔ usage.Uses path symbol := by
  unfold symbols Uses
  cases usage.get? path with
  | none => simp
  | some known => simp

/-- The symbols of an entry are those of its path. -/
theorem symbols_of_mem_entries {entry : String × Sorted.Set String} (h : entry ∈ usage.entries) :
    usage.symbols entry.1 = entry.2 := by
  have hget : usage.get? entry.1 = some entry.2 := Map.get?_eq_some.2 h
  rw [symbols, hget, Option.getD_some]

theorem not_uses_of_not_contains (h : usage.contains path = false) : ¬usage.Uses path symbol := by
  intro huses
  rw [huses.contains] at h
  cases h

/-! ### References -/

/-- Each path with each symbol that is used through it. -/
def references (usage : ImportUsage) : List (String × String) :=
  usage.entries.flatMap fun entry => entry.2.toList.map (Prod.mk entry.1)

/-- References are pairs of a path and a symbol that is used through it. -/
theorem mem_references : (path, symbol) ∈ usage.references ↔ usage.Uses path symbol := by
  unfold references
  rw [List.mem_flatMap]
  constructor
  · -- the pair was made from the entry of its path
    rintro ⟨⟨path', known⟩, hentry, hsymbol⟩
    obtain ⟨symbol', hsymbol', heq⟩ := List.mem_map.1 hsymbol
    obtain ⟨rfl, rfl⟩ := Prod.mk.inj heq
    exact ⟨known, Map.get?_eq_some.2 hentry, Set.contains_iff_mem_toList.2 hsymbol'⟩
  · rintro ⟨known, hknown, hsymbol⟩
    refine ⟨(path, known), Map.get?_eq_some.1 hknown, ?_⟩
    exact List.mem_map_of_mem (Set.contains_iff_mem_toList.1 hsymbol)

/-- **No reference is listed twice.** -/
theorem references_nodup (usage : ImportUsage) : usage.references.Nodup := by
  unfold references
  rw [List.nodup_flatMap]
  constructor
  · -- within one entry, symbols differ
    intro entry _
    have hsymbols : entry.2.toList.Nodup := entry.2.toMap.keys_nodup
    exact hsymbols.map fun symbol symbol' heq => (Prod.mk.inj heq).2
  · -- different entries have different paths, and so have their references
    refine usage.sorted.imp fun {entry entry'} hbefore => ?_
    intro reference href href'
    obtain ⟨symbol, -, rfl⟩ := List.mem_map.1 href
    obtain ⟨symbol', -, heq⟩ := List.mem_map.1 href'
    exact Key.before_ne hbefore (Prod.mk.inj heq).1.symm

/-- References are counted path by path. -/
theorem countP_references (usage : ImportUsage) (p : String × String → Bool) :
    usage.references.countP p =
      (usage.entries.map fun entry =>
        entry.2.toList.countP fun symbol => p (entry.1, symbol)).sum := by
  unfold references
  rw [List.countP_flatMap]
  congr 1
  refine List.map_congr_left fun entry _ => ?_
  rw [Function.comp_apply, List.countP_map]
  rfl

/-- A union has the references of both usages. -/
theorem toFinset_references_union :
    (usage.union other).references.toFinset =
      usage.references.toFinset ∪ other.references.toFinset := by
  ext ⟨path, symbol⟩
  rw [Finset.mem_union, List.mem_toFinset, List.mem_toFinset, List.mem_toFinset, mem_references,
    mem_references, mem_references, uses_union]

/-- **Inclusion and exclusion.** Whatever references are counted, two usages have as many of them as
their union, and once more those that both have. -/
theorem countP_references_union (usage other : ImportUsage) (p : String × String → Bool) :
    usage.references.countP p + other.references.countP p =
      (usage.union other).references.countP p +
        usage.references.countP fun reference =>
          p reference && other.references.contains reference := by
  -- no reference is listed twice, so that lists may be counted as sets
  have hcard (usage : ImportUsage) (q : String × String → Bool) :
      usage.references.countP q = {reference ∈ usage.references.toFinset | q reference}.card := by
    rw [← List.toFinset_filter, List.toFinset_card_of_nodup (usage.references_nodup.filter q),
      List.countP_eq_length_filter]
  -- what both have is the intersection of the two sets
  have hinter : {reference ∈ usage.references.toFinset |
        p reference && other.references.contains reference} =
      {reference ∈ usage.references.toFinset | p reference} ∩
        {reference ∈ other.references.toFinset | p reference} := by
    ext reference
    simp only [Finset.mem_inter, Finset.mem_filter, List.mem_toFinset, Bool.and_eq_true,
      List.contains_iff_mem]
    tauto
  rw [hcard, hcard, hcard, hcard, toFinset_references_union, Finset.filter_union, hinter,
    Finset.card_union_add_card_inter]

end PackageGraph.ImportUsage
