import Mathlib.Algebra.BigOperators.Group.Finset.Basic
import Mathlib.Algebra.BigOperators.Group.List.Basic
import Mathlib.Algebra.GroupWithZero.Nat
import PackageGraph.Sorted.Map

/-!
# Gathering under keys

A sorted map is filled by going through a list and changing, for each item, the value under the
item's key. What stands under a key afterwards depends on the items with this key alone, in their
order (`Map.get?_foldl_upsert`). When the values are numbers that are added up, the map is a
`Map.tally`, and every part of it can be weighed on the list itself (`Map.weigh_entries_tally`).
-/

namespace PackageGraph.Sorted.Map

open Key

variable {κ α β : Type} [Key κ]

/-! ### Entries -/

theorem keys_nodup (m : Map κ α) : m.keys.Nodup :=
  m.keys_sorted.imp before_ne

theorem mem_keys {m : Map κ α} {k : κ} : k ∈ m.keys ↔ ∃ a, m.get? k = some a := by
  simp only [keys, List.mem_map, get?_eq_some, Prod.exists, exists_and_right, exists_eq_right]

/-- The values are what is found under some key. -/
theorem mem_values {m : Map κ α} {a : α} : a ∈ m.values ↔ ∃ k, m.get? k = some a := by
  rw [values, List.mem_map]
  constructor
  · rintro ⟨⟨k, b⟩, hmem, rfl⟩
    exact ⟨k, get?_eq_some.2 hmem⟩
  · rintro ⟨k, hk⟩
    exact ⟨(k, a), get?_eq_some.1 hk, rfl⟩

/-- The values, renamed by a function that gives back the key of each. -/
theorem map_values_eq_keys {m : Map κ α} {f : α → κ}
    (h : ∀ {k a}, m.get? k = some a → f a = k) : m.values.map f = m.keys := by
  rw [values, keys, List.map_map]
  exact List.map_congr_left fun p hp => h (get?_eq_some.2 hp)

/-- Changing all values changes the list of values. -/
theorem values_mapValues (f : α → β) (m : Map κ α) :
    (m.mapValues fun _ => f).values = m.values.map f := by
  rw [values, values, mapValues, List.map_map, List.map_map]
  rfl

/-- **Maps whose values tell their keys** are determined by their values. -/
theorem eq_of_values_eq {m n : Map κ α} (f : α → κ) (hm : ∀ {k a}, m.get? k = some a → f a = k)
    (hn : ∀ {k a}, n.get? k = some a → f a = k) (h : m.values = n.values) : m = n := by
  -- a value is looked up under the key that it tells
  have hvalue {m : Map κ α} (hm : ∀ {k a}, m.get? k = some a → f a = k) {k : κ} {a : α} :
      m.get? k = some a ↔ a ∈ m.values ∧ f a = k := by
    rw [mem_values]
    constructor
    · exact fun hget => ⟨⟨k, hget⟩, hm hget⟩
    · rintro ⟨⟨k', hget⟩, rfl⟩
      rw [hm hget]
      exact hget
  refine ext fun k => Option.ext fun a => ?_
  rw [hvalue hm, hvalue hn, h]

/-! ### Gathering -/

/-- **Only the items with its key matter to an entry.** -/
theorem get?_foldl_upsert [DecidableEq κ] (key : β → κ) (change : β → Option α → α)
    (items : List β) (m : Map κ α) (k : κ) :
    (items.foldl (fun m item => m.upsert (key item) (change item)) m).get? k =
      (items.filter fun item => key item = k).foldl (fun known item => some (change item known))
        (m.get? k) := by
  induction items generalizing m with
  | nil => rfl
  | cons item items ih =>
    rw [List.foldl_cons, ih]
    by_cases hk : key item = k
    · -- the item changes what is under the key, before the other items do
      rw [List.filter_cons_of_pos (by simpa using hk), List.foldl_cons, ← hk,
        get?_upsert_self]
    · -- the item changes another key, and is not among those with this one
      rw [List.filter_cons_of_neg (by simpa using hk), get?_upsert_of_ne m _ (Ne.symm hk)]

/-- The last item with the key `k` holds `a`. -/
def IsLast (items : List (κ × α)) (k : κ) (a : α) : Prop :=
  ∃ before after, items = before ++ (k, a) :: after ∧ k ∉ after.map Prod.fst

omit [Key κ] in
/-- The last item with a key is in the rest of a list, or else it is the first item. -/
theorem isLast_cons {item : κ × α} {items : List (κ × α)} {k : κ} {a : α} :
    IsLast (item :: items) k a ↔ IsLast items k a ∨ item = (k, a) ∧ k ∉ items.map Prod.fst := by
  constructor
  · rintro ⟨before, after, hitems, hafter⟩
    rcases List.cons_eq_append_iff.1 hitems with ⟨-, hcons⟩ | ⟨before, -, hitems⟩
    · -- nothing stands before it, so that it is the first item
      obtain ⟨hitem, rfl⟩ := List.cons.inj hcons
      exact .inr ⟨hitem.symm, hafter⟩
    · exact .inl ⟨before, after, hitems, hafter⟩
  · rintro (⟨before, after, rfl, hafter⟩ | ⟨rfl, hitems⟩)
    · exact ⟨item :: before, after, rfl, hafter⟩
    · exact ⟨[], items, rfl, hitems⟩

/-- **What was written last under a key counts.** -/
theorem get?_foldl_insert [DecidableEq κ] (items : List (κ × α)) (m : Map κ α) {k : κ} {a : α} :
    (items.foldl (fun m item => m.insert item.1 item.2) m).get? k = some a ↔
      IsLast items k a ∨ k ∉ items.map Prod.fst ∧ m.get? k = some a := by
  induction items generalizing m with
  | nil => simp [IsLast]
  | cons item items ih =>
    obtain ⟨k', a'⟩ := item
    rw [List.foldl_cons, ih, isLast_cons, List.map_cons, List.mem_cons]
    by_cases hk : k = k'
    · -- the item is written under the key, and counts unless a later one is
      subst hk
      simp [and_comm]
    · rw [get?_insert_of_ne _ _ hk]
      simp [hk, Ne.symm hk]

/-! ### Fibers -/

/-- **Items that are sorted into the keys of a map** are counted by counting them key by key. -/
theorem sum_length_fibers [DecidableEq κ] (m : Map κ α) (f : β → κ) {items : List β}
    (hcovered : ∀ item ∈ items, f item ∈ m.keys) :
    (m.keys.map fun k => (items.filter fun item => f item = k).length).sum = items.length := by
  -- the items of a key are as many as the key has occurrences among the keys of all items
  have hfiber : ∀ k, (items.filter fun item => f item = k).length =
      (items.map f : Multiset κ).count k := by
    intro k
    rw [Multiset.coe_count, List.count_eq_countP, List.countP_map, List.countP_eq_length_filter]
    rfl
  have hmem : ∀ k ∈ (items.map f : Multiset κ), k ∈ m.keys.toFinset := by
    intro k hk
    obtain ⟨item, hitem, rfl⟩ := List.mem_map.1 (Multiset.mem_coe.1 hk)
    exact List.mem_toFinset.2 (hcovered item hitem)
  simp only [hfiber]
  rw [← List.sum_toFinset _ m.keys_nodup, Multiset.sum_count_eq_card hmem, Multiset.coe_card,
    List.length_map]

/-! ### Weighing lists -/

/-- The sum of the numbers whose keys satisfy `p`. -/
def weigh (p : κ → Bool) (items : List (κ × Nat)) : Nat :=
  ((items.filter fun item => p item.1).map Prod.snd).sum

section Weigh

omit [Key κ]

@[simp] theorem weigh_nil (p : κ → Bool) : weigh p [] = 0 := rfl

@[simp] theorem weigh_cons (p : κ → Bool) (item : κ × Nat) (items : List (κ × Nat)) :
    weigh p (item :: items) = (if p item.1 then item.2 else 0) + weigh p items := by
  by_cases hp : p item.1 <;> simp [weigh, hp]

theorem weigh_append (p : κ → Bool) (items more : List (κ × Nat)) :
    weigh p (items ++ more) = weigh p items + weigh p more := by
  rw [weigh, List.filter_append, List.map_append, List.sum_append]
  rfl

theorem weigh_flatMap (p : κ → Bool) (f : β → List (κ × Nat)) (l : List β) :
    weigh p (l.flatMap f) = (l.map fun b => weigh p (f b)).sum := by
  induction l with
  | nil => rfl
  | cons b l ih => rw [List.flatMap_cons, weigh_append, ih, List.map_cons, List.sum_cons]

end Weigh

/-! ### Tallies -/

/-- Add a number to the one under its key. -/
def add (m : Map κ Nat) (item : κ × Nat) : Map κ Nat :=
  m.upsert item.1 fun known => known.getD 0 + item.2

/-- The sum of the numbers under each key. -/
def tally (items : List (κ × Nat)) : Map κ Nat := items.foldl add empty

/-- Adding a number adds it to every weight that its key counts for. -/
theorem weigh_entries_add (p : κ → Bool) (m : Map κ Nat) (item : κ × Nat) :
    weigh p (m.add item).entries = weigh p m.entries + if p item.1 then item.2 else 0 := by
  obtain ⟨k, n⟩ := item
  simp only [add, upsert]
  induction m.entries with
  | nil => simp [place]
  | cons entry rest ih =>
    obtain ⟨k', a⟩ := entry
    rw [place]
    split
    · -- the key is new and comes first
      rw [weigh_cons, Option.getD_none, Nat.zero_add, Nat.add_comm]
    · split
      · -- the key belongs further back
        rw [weigh_cons, weigh_cons, ih, Nat.add_assoc]
      · next hk hk' =>
        -- neither key comes before the other, so they are one
        have hsame : k = k' :=
          before_connected (Bool.eq_false_iff.2 hk) (Bool.eq_false_iff.2 hk')
        subst hsame
        rw [weigh_cons, weigh_cons, Option.getD_some]
        split <;> omega

/-- **A part of a tally weighs what it weighs on the list that the tally was made from.** -/
theorem weigh_entries_tally (p : κ → Bool) (items : List (κ × Nat)) :
    weigh p (tally items).entries = weigh p items := by
  -- the map that items are added to is arbitrary, for the induction
  suffices h : ∀ m : Map κ Nat,
      weigh p (items.foldl add m).entries = weigh p m.entries + weigh p items from
    (h empty).trans (Nat.zero_add _)
  induction items with
  | nil => exact fun _ => rfl
  | cons item items ih =>
    intro m
    calc weigh p ((item :: items).foldl add m).entries
        = weigh p (m.add item).entries + weigh p items := ih (m.add item)
      _ = weigh p m.entries + (if p item.1 then item.2 else 0) + weigh p items := by
          rw [weigh_entries_add]
      _ = weigh p m.entries + weigh p (item :: items) := by rw [weigh_cons, Nat.add_assoc]

omit [Key κ] in
/-- Numbers that are added to one that may be missing leave it missing only if there are none of
them. -/
private theorem foldl_getD_add (items : List (κ × Nat)) (known : Option Nat) :
    items.foldl (fun known item => some (known.getD 0 + item.2)) known =
      if items = [] then known else some (known.getD 0 + (items.map Prod.snd).sum) := by
  induction items generalizing known with
  | nil => rfl
  | cons item items ih =>
    rw [List.foldl_cons, ih, if_neg (List.cons_ne_nil item items), List.map_cons, List.sum_cons]
    -- behind the first number there is one to add to, so that a missing one matters no more
    by_cases hnil : items = []
    · subst hnil; rfl
    · rw [if_neg hnil, Option.getD_some, Nat.add_assoc]

/-- **The entries of a tally**: a key that occurs has the sum of its numbers. -/
theorem get?_tally [DecidableEq κ] (items : List (κ × Nat)) (k : κ) :
    (tally items).get? k =
      if (items.filter fun item => item.1 = k) = [] then none
      else some (weigh (· = k) items) := by
  have hfold := get?_foldl_upsert Prod.fst
    (fun item (known : Option Nat) => known.getD 0 + item.2) items (empty : Map κ Nat) k
  rw [foldl_getD_add, get?_empty, Option.getD_none, Nat.zero_add] at hfold
  exact hfold

end PackageGraph.Sorted.Map
