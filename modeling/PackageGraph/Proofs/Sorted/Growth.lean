import PackageGraph.Sorted.Map

/-!
# Growing maps

One map grows into another if every key stays and its value is related to the value that it had
(`Map.GrowsBy`). Growth is transitive, and to change the value under one key is growth if the change
is one that the relation allows (`Map.GrowsBy.upsert`).
-/

namespace PackageGraph.Sorted.Map

variable {κ α β : Type} [Key κ] {r : α → α → Prop}

/-- Every key of the first map is a key of the second one, with a value that `r` relates to the
first value. -/
def GrowsBy (r : α → α → Prop) (m m' : Map κ α) : Prop :=
  ∀ k a, m.get? k = some a → ∃ a', m'.get? k = some a' ∧ r a a'

theorem GrowsBy.refl (hrefl : ∀ a, r a a) (m : Map κ α) : m.GrowsBy r m :=
  fun _ a h => ⟨a, h, hrefl a⟩

theorem GrowsBy.trans {m m' m'' : Map κ α} (h : m.GrowsBy r m') (h' : m'.GrowsBy r m'')
    (htrans : ∀ a b c, r a b → r b c → r a c) : m.GrowsBy r m'' := by
  intro k a ha
  obtain ⟨a', ha', hr⟩ := h k a ha
  obtain ⟨a'', ha'', hr'⟩ := h' k a' ha'
  exact ⟨a'', ha'', htrans a a' a'' hr hr'⟩

/-- No key is lost. -/
theorem GrowsBy.contains {m m' : Map κ α} (h : m.GrowsBy r m') {k : κ} (hk : m.contains k = true) :
    m'.contains k = true := by
  obtain ⟨a, ha⟩ := Option.isSome_iff_exists.1 hk
  obtain ⟨a', ha', -⟩ := h k a ha
  exact Option.isSome_iff_exists.2 ⟨a', ha'⟩

/-- A map grows if the value under one key changes in a way that is allowed. -/
theorem GrowsBy.upsert [DecidableEq κ] (hrefl : ∀ a, r a a) {m : Map κ α} {k : κ}
    {f : Option α → α} (hchange : ∀ a, m.get? k = some a → r a (f (some a))) :
    m.GrowsBy r (m.upsert k f) := by
  intro k' a ha
  by_cases hk : k' = k
  · -- the value under the key is the changed one, all others stay
    subst hk
    refine ⟨f (some a), ?_, hchange a ha⟩
    rw [get?_upsert_self, ha]
  · refine ⟨a, ?_, hrefl a⟩
    rw [get?_upsert_of_ne m f hk]
    exact ha

/-- Maps keep growing if their values are changed in the same way. -/
theorem GrowsBy.mapValues {r' : β → β → Prop} {f : κ → α → β}
    (hf : ∀ k {a a'}, r a a' → r' (f k a) (f k a')) {m m' : Map κ α} (h : m.GrowsBy r m') :
    (m.mapValues f).GrowsBy r' (m'.mapValues f) := by
  intro k b hb
  rw [get?_mapValues, Option.map_eq_some_iff] at hb
  obtain ⟨a, ha, rfl⟩ := hb
  obtain ⟨a', ha', hr⟩ := h k a ha
  refine ⟨f k a', ?_, hf k hr⟩
  rw [get?_mapValues, ha', Option.map_some]

end PackageGraph.Sorted.Map
