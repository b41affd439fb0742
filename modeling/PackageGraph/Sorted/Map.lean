import PackageGraph.Sorted.Key

/-!
# Sorted maps

A finite map, kept as its list of entries in strictly increasing key order. The order is part of
the type, so two maps that answer every look-up alike are equal (`Map.ext`), and what is read off
`entries` never depends on how the map was filled.
-/

namespace PackageGraph.Sorted

open Key

/-- A finite map with its entries in strictly increasing key order. -/
structure Map (κ α : Type) [Key κ] where
  /-- The entries, least key first. -/
  entries : List (κ × α)
  sorted : entries.Pairwise fun p q => before p.1 q.1 = true

namespace Map

variable {κ α β : Type} [Key κ]

instance [DecidableEq κ] [DecidableEq α] : DecidableEq (Map κ α) := fun m n =>
  if h : m.entries = n.entries then
    .isTrue (by cases m; cases n; simp only at h; subst h; rfl)
  else
    .isFalse fun e => h (e ▸ rfl)

/-- The map without entries. -/
def empty : Map κ α := ⟨[], .nil⟩

instance : Inhabited (Map κ α) := ⟨empty⟩

instance : EmptyCollection (Map κ α) := ⟨empty⟩

/-! ### Look-up -/

/-- The value under `k` in a sorted list of entries. -/
def lookup (k : κ) : List (κ × α) → Option α
  | [] => none
  | (k', a) :: rest =>
    if before k' k then lookup k rest else if before k k' then none else some a

/-- The value under a key. -/
def get? (m : Map κ α) (k : κ) : Option α := lookup k m.entries

/-- Is there an entry under this key? -/
def contains (m : Map κ α) (k : κ) : Bool := (m.get? k).isSome

@[simp] theorem get?_empty (k : κ) : (empty : Map κ α).get? k = none := rfl

/-- A look-up finds what is among the entries, since it stops only behind the place of the key. -/
private theorem lookup_eq_some {k : κ} {a : α} {l : List (κ × α)}
    (sorted : l.Pairwise fun p q => before p.1 q.1 = true) :
    lookup k l = some a ↔ (k, a) ∈ l := by
  induction l with
  | nil => simp [lookup]
  | cons p rest ih =>
    obtain ⟨k', b⟩ := p
    obtain ⟨least, tail⟩ := List.pairwise_cons.1 sorted
    simp only [lookup, List.mem_cons]
    cases hk' : before k' k with
    | true =>
      simp only [if_true, ih tail]
      exact ⟨.inr, fun h => h.resolve_left fun e => before_ne hk' (Prod.mk.inj e).1.symm⟩
    -- behind the first entry all keys are greater
    | false =>
      have absent : (k, a) ∉ rest := fun h => by
        have := least _ h; simp only [hk', Bool.false_eq_true] at this
      cases hk : before k k' with
      | true =>
        simp only [Bool.false_eq_true, if_false, if_true, reduceCtorEq, absent, or_false,
          false_iff]
        exact fun e => before_ne hk (Prod.mk.inj e).1
      | false =>
        obtain rfl := before_connected hk' hk
        simp only [Bool.false_eq_true, if_false, Option.some.injEq, absent, or_false,
          Prod.mk.injEq, true_and]
        exact eq_comm

/-- **A look-up finds exactly what the entries hold.** -/
theorem get?_eq_some {m : Map κ α} {k : κ} {a : α} : m.get? k = some a ↔ (k, a) ∈ m.entries :=
  lookup_eq_some m.sorted

/-- A key is there if it has an entry. -/
theorem contains_iff {m : Map κ α} {k : κ} : m.contains k = true ↔ ∃ a, (k, a) ∈ m.entries := by
  simp only [contains, Option.isSome_iff_exists, get?_eq_some]

/-- **Maps are determined by their look-ups.** -/
theorem ext {m n : Map κ α} (h : ∀ k, m.get? k = n.get? k) : m = n := by
  have : m.entries = n.entries := eq_of_mem_iff m.sorted n.sorted fun ⟨k, a⟩ => by
    rw [← get?_eq_some, ← get?_eq_some, h]
  cases m; cases n; simp only at this; subst this; rfl

/-! ### Writing an entry -/

/-- Put `f` of the value found under `k`, if any, under `k` in a sorted list of entries. -/
def place (k : κ) (f : Option α → α) : List (κ × α) → List (κ × α)
  | [] => [(k, f none)]
  | (k', a) :: rest =>
    if before k k' then (k, f none) :: (k', a) :: rest
    else if before k' k then (k', a) :: place k f rest
    else (k', f (some a)) :: rest

/-- Placing adds no key but its own. -/
private theorem place_keys {k : κ} {f : Option α → α} {l : List (κ × α)} {p : κ × α}
    (h : p ∈ place k f l) : p.1 = k ∨ ∃ q ∈ l, q.1 = p.1 := by
  induction l with
  | nil => simp only [place, List.mem_singleton] at h; exact .inl (h ▸ rfl)
  | cons q rest ih =>
    obtain ⟨k', a⟩ := q
    simp only [place] at h
    split at h
    · -- in front of the first entry, behind it, or in its place
      rcases List.mem_cons.1 h with rfl | h
      · exact .inl rfl
      · exact .inr ⟨p, h, rfl⟩
    · split at h
      · rcases List.mem_cons.1 h with rfl | h
        · exact .inr ⟨_, .head _, rfl⟩
        · exact (ih h).imp id fun ⟨q, hq, e⟩ => ⟨q, .tail _ hq, e⟩
      · rcases List.mem_cons.1 h with rfl | h
        · exact .inr ⟨_, .head _, rfl⟩
        · exact .inr ⟨p, .tail _ h, rfl⟩

/-- The entries stay in order. -/
private theorem place_sorted (k : κ) (f : Option α → α) {l : List (κ × α)}
    (sorted : l.Pairwise fun p q => before p.1 q.1 = true) :
    (place k f l).Pairwise fun p q => before p.1 q.1 = true := by
  induction l with
  | nil => simp [place]
  | cons p rest ih =>
    obtain ⟨k', a⟩ := p
    obtain ⟨least, tail⟩ := List.pairwise_cons.1 sorted
    simp only [place]
    split
    · next hk =>
      -- the new entry comes first, and before all that the first one came before
      refine List.pairwise_cons.2 ⟨fun q hq => ?_, sorted⟩
      rcases List.mem_cons.1 hq with rfl | hq
      · exact hk
      · exact before_trans hk (least q hq)
    · split
      · next hk' =>
        -- it is placed further behind, where it stays behind the first entry
        refine List.pairwise_cons.2 ⟨fun q hq => ?_, ih tail⟩
        rcases place_keys hq with e | ⟨r, hr, e⟩
        · rw [e]; exact hk'
        · rw [← e]; exact least r hr
      · exact List.pairwise_cons.2 ⟨least, tail⟩

/-- Change the value under `k`, where `f none` is written if there was none. -/
def upsert (m : Map κ α) (k : κ) (f : Option α → α) : Map κ α :=
  ⟨place k f m.entries, place_sorted k f m.sorted⟩

/-- Write `a` under `k`. -/
def insert (m : Map κ α) (k : κ) (a : α) : Map κ α := m.upsert k fun _ => a

@[simp] theorem get?_upsert_self (m : Map κ α) (k : κ) (f : Option α → α) :
    (m.upsert k f).get? k = some (f (m.get? k)) := by
  simp only [get?, upsert]
  induction m.entries with
  | nil => simp [place, lookup, before_irrefl]
  | cons p rest ih =>
    obtain ⟨k', a⟩ := p
    cases hk : before k k' with
    | true => simp [place, lookup, hk, before_irrefl, before_asymm hk]
    | false =>
      cases hk' : before k' k with
      | true => simp [place, lookup, hk, hk', ih]
      | false => simp [place, lookup, hk, hk']

/-- **Under every other key there is what was there.** -/
theorem get?_upsert_of_ne (m : Map κ α) {k k' : κ} (f : Option α → α) (h : k' ≠ k) :
    (m.upsert k f).get? k' = m.get? k' := by
  obtain ⟨l, sorted⟩ := m
  simp only [get?, upsert]
  induction l with
  -- only the new entry is there, under another key
  | nil =>
    rcases before_or_before h with hk' | hk
    · simp [place, lookup, hk', before_asymm hk']
    · simp [place, lookup, hk]
  | cons p rest ih =>
    obtain ⟨j, a⟩ := p
    have ih := ih (List.pairwise_cons.1 sorted).2
    cases hj : before k j with
    -- the new entry comes before the first one
    | true =>
      rcases before_or_before h with hk' | hk
      · have hj' := before_trans hk' hj
        simp [place, lookup, hj, hk', hj', before_asymm hk', before_asymm hj']
      · simp [place, lookup, hj, hk]
    | false =>
      cases hj' : before j k with
      -- it comes behind the first one
      | true => simp [place, lookup, hj, hj', ih]
      -- it takes the place of the first one
      | false =>
        obtain rfl := before_connected hj hj'
        rcases before_or_before h with hk' | hk
        · simp [place, lookup, before_irrefl, hk', before_asymm hk']
        · simp [place, lookup, before_irrefl, hk]

@[simp] theorem get?_insert_self (m : Map κ α) (k : κ) (a : α) :
    (m.insert k a).get? k = some a := get?_upsert_self m k _

theorem get?_insert_of_ne (m : Map κ α) {k k' : κ} (a : α) (h : k' ≠ k) :
    (m.insert k a).get? k' = m.get? k' := get?_upsert_of_ne m _ h

/-! ### Views -/

/-- The keys, in increasing order. -/
def keys (m : Map κ α) : List κ := m.entries.map Prod.fst

/-- The values, in the order of their keys. -/
def values (m : Map κ α) : List α := m.entries.map Prod.snd

/-- The number of entries. -/
def size (m : Map κ α) : Nat := m.entries.length

theorem keys_sorted (m : Map κ α) : m.keys.Pairwise fun k k' => before k k' = true :=
  List.pairwise_map.2 m.sorted

/-- Change every value, keys untouched. -/
def mapValues (f : κ → α → β) (m : Map κ α) : Map κ β :=
  ⟨m.entries.map fun (k, a) => (k, f k a), List.pairwise_map.2 m.sorted⟩

@[simp] theorem keys_mapValues (f : κ → α → β) (m : Map κ α) : (m.mapValues f).keys = m.keys := by
  simp [keys, mapValues, Function.comp_def]

@[simp] theorem get?_mapValues (f : κ → α → β) (m : Map κ α) (k : κ) :
    (m.mapValues f).get? k = (m.get? k).map (f k) := by
  simp only [get?, mapValues]
  induction m.entries with
  | nil => rfl
  | cons p rest ih =>
    obtain ⟨k', a⟩ := p
    cases hk' : before k' k with
    | true => simp [lookup, hk', ih]
    | false =>
      cases hk : before k k' with
      | true => simp [lookup, hk', hk]
      | false => obtain rfl := before_connected hk' hk; simp [lookup, before_irrefl]

/-- The entries that satisfy a condition. -/
def filter (p : κ → α → Bool) (m : Map κ α) : Map κ α :=
  ⟨m.entries.filter fun entry => p entry.1 entry.2, m.sorted.filter _⟩

/-- A look-up among the entries of a condition finds what is there and satisfies it. -/
theorem get?_filter_eq_some {p : κ → α → Bool} {m : Map κ α} {k : κ} {a : α} :
    (m.filter p).get? k = some a ↔ m.get? k = some a ∧ p k a = true := by
  rw [get?_eq_some, get?_eq_some, filter, List.mem_filter]

end Map

end PackageGraph.Sorted
