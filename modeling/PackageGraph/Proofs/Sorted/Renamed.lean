import Mathlib.Data.List.Nodup
import PackageGraph.Proofs.Sorted.Gather
import PackageGraph.Sorted.Set

/-!
# Renaming keys

The keys of a map, or the members of a set, are renamed by a function (`Map.mapKeys`, `Set.map`).
As long as it sends different keys to different keys, nothing is lost and look-ups are renamed with
the keys (`Map.get?_mapKeys`), but the entries may change places (`Map.entries_mapKeys_perm`). They
keep their places if the function also keeps the order of keys; this is stated for any two maps
whose look-ups correspond (`Map.entries_eq_map`).
-/

namespace PackageGraph.Sorted

open Key

variable {κ κ' α β : Type} [Key κ] [Key κ']

/-! ### Maps -/

namespace Map

/-- The map with its keys renamed. If several keys get one name, the value of the greatest stays. -/
def mapKeys (f : κ → κ') (m : Map κ α) : Map κ' α :=
  m.entries.foldl (fun renamed entry => renamed.insert (f entry.1) entry.2) .empty

omit [Key κ] in
/-- Among entries with different keys, each is the last one with its key. -/
theorem isLast_iff_mem {items : List (κ × α)} (hnodup : (items.map Prod.fst).Nodup) {k : κ}
    {a : α} : IsLast items k a ↔ (k, a) ∈ items := by
  constructor
  · rintro ⟨before, after, rfl, -⟩
    exact List.mem_append_right _ List.mem_cons_self
  · intro hmem
    obtain ⟨before, after, rfl⟩ := List.append_of_mem hmem
    refine ⟨before, after, rfl, ?_⟩
    -- a later item with the key would repeat it
    rw [List.map_append, List.map_cons, List.nodup_append] at hnodup
    exact (List.nodup_cons.1 hnodup.2.1).1

section Injective

variable {f : κ → κ'} {m : Map κ α}
  (hinj : ∀ k ∈ m.keys, ∀ k' ∈ m.keys, f k = f k' → k = k')

include hinj

omit [Key κ'] in
/-- Different entries get different names. -/
theorem nodup_renamed_keys :
    ((m.entries.map fun entry => (f entry.1, entry.2)).map Prod.fst).Nodup := by
  have hkeys : (m.entries.map fun entry => (f entry.1, entry.2)).map Prod.fst = m.keys.map f := by
    rw [keys, List.map_map, List.map_map]
    rfl
  rw [hkeys]
  exact List.Nodup.map_on hinj m.keys_nodup

/-- What is found under a new name was found under a key that has it. -/
theorem get?_mapKeys_eq_some {k' : κ'} {a : α} :
    (m.mapKeys f).get? k' = some a ↔ ∃ k, f k = k' ∧ m.get? k = some a := by
  classical
  -- the renamed entries are written one after another, and the last one under a name counts
  have hfold : m.mapKeys f = (m.entries.map fun entry => (f entry.1, entry.2)).foldl
      (fun renamed item => renamed.insert item.1 item.2) .empty := by
    rw [mapKeys, List.foldl_map]
  rw [hfold, get?_foldl_insert, get?_empty, isLast_iff_mem (nodup_renamed_keys hinj),
    List.mem_map]
  simp only [reduceCtorEq, and_false, or_false]
  constructor
  · rintro ⟨⟨k, a'⟩, hentry, hname⟩
    obtain ⟨rfl, rfl⟩ := Prod.mk.inj hname
    exact ⟨k, rfl, get?_eq_some.2 hentry⟩
  · rintro ⟨k, rfl, hget⟩
    exact ⟨(k, a), get?_eq_some.1 hget, rfl⟩

/-- **Look-ups are renamed with the keys.** -/
theorem get?_mapKeys {k : κ} (hk : ∀ k' ∈ m.keys, f k' = f k → k' = k) :
    (m.mapKeys f).get? (f k) = m.get? k := by
  refine Option.ext fun a => ?_
  rw [get?_mapKeys_eq_some hinj]
  constructor
  · rintro ⟨k', hname, hget⟩
    obtain rfl := hk k' (mem_keys.2 ⟨a, hget⟩) hname
    exact hget
  · exact fun hget => ⟨k, rfl, hget⟩

/-- **Renaming loses and adds no entry**, but it may change their order. -/
theorem entries_mapKeys_perm :
    (m.mapKeys f).entries.Perm (m.entries.map fun entry => (f entry.1, entry.2)) := by
  rw [List.perm_ext_iff_of_nodup (List.Nodup.of_map Prod.fst (m.mapKeys f).keys_nodup)
    (List.Nodup.of_map Prod.fst (nodup_renamed_keys hinj))]
  -- neither list has an entry twice, so it is enough that they have the same ones
  rintro ⟨k', a⟩
  rw [← get?_eq_some, get?_mapKeys_eq_some hinj]
  simp [get?_eq_some, and_comm]

end Injective

/-- **Entries keep their places** where keys keep their order. The keys of the first map satisfy
`p`, those of the second one are the names of such keys, and what is found under the name of a key
is made from what is found under the key. -/
theorem entries_eq_map {m : Map κ α} {m' : Map κ' β} {f : κ → κ'} {g : α → β} (p : κ → Prop)
    (hmono : ∀ k k', p k → p k' → before k k' = true → before (f k) (f k') = true)
    (hkeys : ∀ k ∈ m.keys, p k) (hkeys' : ∀ k' ∈ m'.keys, ∃ k, p k ∧ f k = k')
    (hget : ∀ k, p k → m'.get? (f k) = (m.get? k).map g) :
    m'.entries = m.entries.map fun entry => (f entry.1, g entry.2) := by
  have hmem : ∀ {entry}, entry ∈ m.entries → p entry.1 :=
    fun hentry => hkeys _ (List.mem_map_of_mem hentry)
  have hsorted : (m.entries.map fun entry => (f entry.1, g entry.2)).Pairwise
      fun entry entry' => before entry.1 entry'.1 = true :=
    List.pairwise_map.2 <| m.sorted.imp_of_mem fun hentry hentry' hbefore =>
      hmono _ _ (hmem hentry) (hmem hentry') hbefore
  -- the images of the entries make a map, and it answers every look-up as `m'` does
  have hsame : m' = ⟨_, hsorted⟩ := by
    refine ext fun k' => Option.ext fun b => ?_
    rw [get?_eq_some (m := ⟨_, hsorted⟩), List.mem_map]
    constructor
    · -- what `m'` holds is under the name of a key
      intro hb
      obtain ⟨k, hk, rfl⟩ := hkeys' k' (mem_keys.2 ⟨b, hb⟩)
      rw [hget k hk, Option.map_eq_some_iff] at hb
      obtain ⟨a, ha, rfl⟩ := hb
      exact ⟨(k, a), get?_eq_some.1 ha, rfl⟩
    · rintro ⟨⟨k, a⟩, hentry, hname⟩
      obtain ⟨rfl, rfl⟩ := Prod.mk.inj hname
      rw [hget k (hmem hentry), get?_eq_some.2 hentry, Option.map_some]
  rw [hsame]

end Map

/-! ### Sets -/

namespace Set

/-- The set of the names of all members. -/
def map (f : κ → κ') (s : Set κ) : Set κ' := .ofList (s.toList.map f)

/-- The members of a renamed set are the names of members. -/
theorem contains_map {f : κ → κ'} {s : Set κ} {b : κ'} :
    (s.map f).contains b = true ↔ ∃ a, s.contains a = true ∧ f a = b := by
  rw [map, contains_ofList, List.mem_map]
  exact exists_congr fun a => and_congr_left' contains_iff_mem_toList.symm

/-- **Membership is renamed with the members.** -/
theorem contains_map_self {f : κ → κ'} {s : Set κ} {a : κ}
    (ha : ∀ a' ∈ s.toList, f a' = f a → a' = a) : (s.map f).contains (f a) = s.contains a := by
  rw [Bool.eq_iff_iff, contains_map]
  constructor
  · rintro ⟨a', hmem, hname⟩
    obtain rfl := ha a' (contains_iff_mem_toList.1 hmem) hname
    exact hmem
  · exact fun hmem => ⟨a, hmem, rfl⟩

/-- The set of the names of a list is the set of the list, renamed. -/
theorem ofList_map (f : κ → κ') (l : List κ) : ofList (l.map f) = (ofList l).map f :=
  ext fun b => by simp only [contains_map, contains_ofList, List.mem_map]

/-- **Members keep their places** where their order is kept. -/
theorem toList_map {f : κ → κ'} {s : Set κ}
    (hmono : ∀ a ∈ s.toList, ∀ b ∈ s.toList, before a b = true → before (f a) (f b) = true) :
    (s.map f).toList = s.toList.map f := by
  have hentries : (s.map f).toMap.entries =
      s.toMap.entries.map fun entry => (f entry.1, id entry.2) := by
    refine Map.entries_eq_map (· ∈ s.toList) (fun a b ha hb => hmono a ha b hb) (fun _ h => h)
      (fun b hb => ?_) (fun a ha => ?_)
    · exact (contains_map.1 (contains_iff_mem_toList.2 hb)).imp fun a h =>
        ⟨contains_iff_mem_toList.1 h.1, h.2⟩
    · -- the renamed set has the name of a member, and both look-ups give the same unit
      have hmember : (s.map f).contains (f a) = true :=
        contains_map.2 ⟨a, contains_iff_mem_toList.2 ha, rfl⟩
      obtain ⟨⟨⟩, hunit⟩ := Map.mem_keys.1 ha
      obtain ⟨⟨⟩, hunit'⟩ := Option.isSome_iff_exists.1 hmember
      rw [hunit, hunit']
      rfl
  rw [toList, Map.keys, hentries, toList, Map.keys, List.map_map, List.map_map]
  rfl

end Set

end PackageGraph.Sorted
