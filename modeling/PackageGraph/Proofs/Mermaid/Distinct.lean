import Mathlib.Data.List.Nodup
import Mathlib.Data.List.Perm.Subperm
import PackageGraph.Proofs.Mermaid.Identifier

/-!
# Charts tell identifiers apart

Different identifiers of the records may have one plain form, so numbers are put behind plain forms
until one is found that is not taken (`Mermaid.Search`). The numbered forms of a base are all
different and only finitely many are taken, so the search ends (`Mermaid.search_freshId`). It ends
with the base or the base with the least number that is free (`Mermaid.Search.isFirstFree`).

Identifiers are given out one after another. What is kept from one to the next is
`Mermaid.Assignment.Serves`: the identifiers so far have been served and no others, what was given
out is taken, and it was the first free form when its turn came. So different identifiers of the
records are different in the chart (`Mermaid.assign_distinct`), and no look-up of a drawing misses.
-/

namespace PackageGraph.Mermaid

open Sorted

variable {used : Sorted.Set String} {base : String}

/-! ### The search for a free form -/

/-- The search for a free form: a candidate that is free is taken, and otherwise the next one is the
base with the number `k` behind it. -/
inductive Search (used : Sorted.Set String) (base : String) : String → Nat → String → Prop where
  | stop {candidate : String} {k : Nat} : used.contains candidate = false →
    Search used base candidate k candidate
  | next {candidate found : String} {k : Nat} : used.contains candidate = true →
    Search used base (numbered base k) (k + 1) found → Search used base candidate k found

/-- The base itself if it is not taken, and otherwise the base with the least number behind it, from
two on, that is not taken. -/
def IsFirstFree (taken : String → Prop) (base fresh : String) : Prop :=
  ¬taken base ∧ fresh = base ∨
    taken base ∧ ∃ k, 2 ≤ k ∧ fresh = numbered base k ∧ ¬taken (numbered base k) ∧
      ∀ j, 2 ≤ j → j < k → taken (numbered base j)

theorem numbered_injective (base : String) : (numbered base).Injective := by
  intro k j h
  rw [numbered, numbered, String.append_right_inj, String.ofList_inj] at h
  exact Text.decimal_injective h

/-- A numbered form is longer than its base. -/
theorem numbered_ne (base : String) (k : Nat) : numbered base k ≠ base := by
  intro h
  have hlength := congrArg (fun s : String => s.toList.length) h
  simp [numbered] at hlength

theorem IsFirstFree.not_taken {taken : String → Prop} {fresh : String}
    (h : IsFirstFree taken base fresh) : ¬taken fresh := by
  rcases h with ⟨hfree, rfl⟩ | ⟨-, k, -, rfl, hfree, -⟩
  · exact hfree
  · exact hfree

/-- The first free form depends on what is taken, however this is said. -/
theorem IsFirstFree.congr {taken taken' : String → Prop} {fresh : String}
    (h : IsFirstFree taken base fresh) (hsame : ∀ form, taken' form ↔ taken form) :
    IsFirstFree taken' base fresh := by
  rwa [funext fun form => propext (hsame form)]

/-- Among numbered forms the search ends with the first free one. -/
theorem Search.exists_numbered {candidate found : String} {next : Nat}
    (h : Search used base candidate next found) {k : Nat} (hcandidate : candidate = numbered base k)
    (hnext : next = k + 1) (hk : 2 ≤ k)
    (htaken : ∀ j, 2 ≤ j → j < k → used.contains (numbered base j) = true) :
    ∃ k, 2 ≤ k ∧ found = numbered base k ∧ ¬used.contains (numbered base k) = true ∧
      ∀ j, 2 ≤ j → j < k → used.contains (numbered base j) = true := by
  induction h generalizing k with
  | stop hfree =>
    subst hcandidate
    exact ⟨k, hk, rfl, by simp [hfree], htaken⟩
  | next hused _ ih =>
    subst hcandidate hnext
    refine ih rfl rfl (Nat.le_succ_of_le hk) fun j hj hlt => ?_
    rcases Nat.lt_succ_iff_lt_or_eq.1 hlt with hlt | rfl
    · exact htaken j hj hlt
    · exact hused

/-- **The search ends with the first free form.** -/
theorem Search.isFirstFree {found : String} (h : Search used base base 2 found) :
    IsFirstFree (used.contains · = true) base found := by
  cases h with
  | stop hfree => exact .inl ⟨by simp [hfree], rfl⟩
  | next hused hsearch =>
    refine .inr ⟨hused, hsearch.exists_numbered rfl rfl (Nat.le_refl 2) fun j hj hlt => ?_⟩
    omega

/-- **One of the candidates is free**, as there are more of them than forms that are taken. -/
theorem exists_free (used : Sorted.Set String) (base : String) :
    ∃ candidate ∈ candidates used base, used.contains candidate = false := by
  by_contra hnone
  -- if all candidates were taken, they would be among the forms that are
  have hsubset : candidates used base ⊆ used.toList := by
    intro candidate hcandidate
    rw [← Set.contains_iff_mem_toList]
    by_contra hfree
    exact hnone ⟨candidate, hcandidate, by simpa using hfree⟩
  -- and no candidate is there twice
  have hnodup : (candidates used base).Nodup := by
    rw [candidates, List.nodup_cons]
    refine ⟨fun hmem => ?_, List.nodup_range.map fun k j h => ?_⟩
    · obtain ⟨k, -, hk⟩ := List.mem_map.1 hmem
      exact numbered_ne base _ hk
    · exact Nat.add_right_cancel (numbered_injective base h)
  have hle := (hnodup.subperm hsubset).length_le
  rw [candidates, List.length_cons, List.length_map, List.length_range] at hle
  exact absurd hle (Nat.not_succ_le_self _)

/-- What is found first among a candidate and numbered forms, one after another, is what the search
ends with. -/
theorem search_of_find? {count k : Nat} {candidate found : String}
    (h : (candidate :: (List.range' k count).map (numbered base)).find? (!used.contains ·) =
      some found) : Search used base candidate k found := by
  induction count generalizing candidate k with
  | zero =>
    rw [List.range'_zero, List.map_nil, List.find?_singleton] at h
    split at h
    · next hfree => exact Option.some.inj h ▸ .stop (by simpa using hfree)
    · cases h
  | succ count ih =>
    rw [List.find?_cons] at h
    split at h
    · next hfree => exact Option.some.inj h ▸ .stop (by simpa using hfree)
    · next hused =>
      rw [List.range'_succ, List.map_cons] at h
      exact .next (by simpa using hused) (ih h)

/-- **The search ends**, and with the form that is given out. -/
theorem search_freshId (used : Sorted.Set String) (base : String) :
    Search used base base 2 (freshId used base) := by
  obtain ⟨candidate, hmem, hfree⟩ := exists_free used base
  have hsome : ((candidates used base).find? (!used.contains ·)).isSome = true :=
    List.find?_isSome.2 ⟨candidate, hmem, by simp [hfree]⟩
  obtain ⟨found, hfound⟩ := Option.isSome_iff_exists.1 hsome
  have hnumbered : candidates used base =
      base :: (List.range' 2 used.size).map (numbered base) := by
    rw [List.range'_eq_map_range, List.map_map]
    simp [candidates, Function.comp_def, Nat.add_comm]
  rw [freshId, hfound, Option.getD_some]
  rw [hnumbered] at hfound
  exact search_of_find? hfound

/-! ### Identifiers given out -/

namespace Assignment

variable {a : Assignment} {ids : List String} {id : String}

/-- The identifiers of a list were served one after another, each with the first form that was given
to none before it. -/
structure Serves (a : Assignment) (ids : List String) : Prop where
  /-- Those on the list were served, and nobody else. -/
  exists_get?_iff : ∀ id, (∃ fresh, a.assigned.get? id = some fresh) ↔ id ∈ ids
  /-- What was given out is taken, and nothing else. -/
  used_iff : ∀ fresh, a.used.contains fresh = true ↔ ∃ id, a.assigned.get? id = some fresh
  /-- Nothing was given out twice. -/
  injective : ∀ {id id' fresh}, a.assigned.get? id = some fresh →
    a.assigned.get? id' = some fresh → id = id'
  /-- Everyone got the first form that was free when its turn came. -/
  first : ∀ before id after, ids = before ++ id :: after →
    ∃ fresh, a.assigned.get? id = some fresh ∧
      IsFirstFree (fun taken => ∃ earlier ∈ before, a.assigned.get? earlier = some taken)
        (plainId id) fresh

theorem serves_empty : empty.Serves [] where
  exists_get?_iff id := by simp [empty]
  used_iff fresh := by simp [empty]
  injective h := by simp [empty] at h
  first before id after h := by simp at h

/-- Whoever comes next gets a free form. -/
theorem get?_add_self (a : Assignment) (id : String) :
    (a.add id).assigned.get? id = some (freshId a.used (plainId id)) := by
  rw [add, Map.get?_insert_self]

theorem get?_add_of_ne (a : Assignment) {id id' : String} (h : id' ≠ id) :
    (a.add id).assigned.get? id' = a.assigned.get? id' := by
  rw [add, Map.get?_insert_of_ne _ _ h]

/-- Whoever was served before keeps what was given then. -/
theorem get?_add_of_mem (hnew : id ∉ ids) {id' : String} (h : id' ∈ ids) :
    (a.add id).assigned.get? id' = a.assigned.get? id' :=
  get?_add_of_ne a fun heq => hnew (heq ▸ h)

/-- What is given out next was given to no one before. -/
theorem Serves.ne_freshId (h : a.Serves ids) {id' fresh : String}
    (hfresh : a.assigned.get? id' = some fresh) : fresh ≠ freshId a.used (plainId id) := by
  rintro rfl
  exact (search_freshId a.used (plainId id)).isFirstFree.not_taken ((h.used_iff _).2 ⟨id', hfresh⟩)

/-- Whoever was served before has what was given then, and the new one what was found for it. -/
theorem Serves.get?_add_eq_some (h : a.Serves ids) (hnew : id ∉ ids) {id' fresh : String} :
    (a.add id).assigned.get? id' = some fresh ↔
      a.assigned.get? id' = some fresh ∨ id' = id ∧ fresh = freshId a.used (plainId id) := by
  have hnone : a.assigned.get? id = none := by
    rw [Option.eq_none_iff_forall_ne_some]
    exact fun fresh hfresh => hnew ((h.exists_get?_iff id).1 ⟨fresh, hfresh⟩)
  by_cases hid : id' = id
  · subst hid
    rw [get?_add_self, hnone]
    simp [eq_comm]
  · rw [get?_add_of_ne a hid]
    simp [hid]

/-- What is found for the new identifier is the first form that those before it do not have. -/
theorem Serves.isFirstFree_add (h : a.Serves ids) (hnew : id ∉ ids) :
    IsFirstFree (fun taken => ∃ earlier ∈ ids, (a.add id).assigned.get? earlier = some taken)
      (plainId id) (freshId a.used (plainId id)) := by
  refine (search_freshId a.used (plainId id)).isFirstFree.congr fun form => ?_
  rw [h.used_iff]
  constructor
  · rintro ⟨earlier, hearlier, hform⟩
    exact ⟨earlier, get?_add_of_mem hnew hearlier ▸ hform⟩
  · rintro ⟨earlier, hform⟩
    have hearlier := (h.exists_get?_iff earlier).1 ⟨form, hform⟩
    exact ⟨earlier, hearlier, (get?_add_of_mem hnew hearlier).trans hform⟩

/-- **One more identifier** gets a form that none before it has, and changes nothing for them. -/
theorem Serves.add (h : a.Serves ids) (hnew : id ∉ ids) : (a.add id).Serves (ids ++ [id]) where
  exists_get?_iff id' := by
    simp only [h.get?_add_eq_some hnew, exists_or, h.exists_get?_iff, List.mem_append,
      List.mem_singleton, exists_and_left, exists_eq, and_true]
  used_iff fresh := by
    change (a.used.insert (freshId a.used (plainId id))).contains fresh = true ↔ _
    rw [Set.contains_insert, h.used_iff]
    simp only [h.get?_add_eq_some hnew, exists_or, exists_and_right, exists_eq, true_and]
    exact or_comm
  injective {id₁ id₂ fresh} h₁ h₂ := by
    -- two of the old ones had different forms, and none of these is the new one
    rcases (h.get?_add_eq_some hnew).1 h₁ with hold₁ | ⟨rfl, hfresh₁⟩ <;>
      rcases (h.get?_add_eq_some hnew).1 h₂ with hold₂ | ⟨heq, hfresh₂⟩
    · exact h.injective hold₁ hold₂
    · exact absurd hfresh₂ (h.ne_freshId hold₁)
    · exact absurd hfresh₁ (h.ne_freshId hold₂)
    · exact heq.symm
  first before id' after hids := by
    rcases List.eq_nil_or_concat after with rfl | ⟨init, last, rfl⟩
    · -- the new identifier itself
      obtain ⟨rfl, rfl⟩ : ids = before ∧ id = id' := by simpa using hids
      exact ⟨_, get?_add_self a id, h.isFirstFree_add hnew⟩
    · -- one of the old ones, before whom nothing has changed
      have hids : ids ++ [id] = (before ++ id' :: init) ++ [last] := by
        rw [hids, List.concat_eq_append, List.append_assoc, List.cons_append]
      obtain rfl : ids = before ++ id' :: init := List.append_inj_left' hids rfl
      obtain ⟨fresh, hfresh, hfirst⟩ := h.first before id' init rfl
      refine ⟨fresh, (get?_add_of_mem hnew (by simp)).trans hfresh, hfirst.congr fun form => ?_⟩
      refine exists_congr fun earlier => and_congr_right fun hearlier => ?_
      rw [get?_add_of_mem hnew (List.mem_append_left _ hearlier)]

/-- **Every identifier of a list is served**, if none comes twice. -/
theorem Serves.foldl (h : a.Serves ids) {more : List String} (hnodup : (ids ++ more).Nodup) :
    (more.foldl Assignment.add a).Serves (ids ++ more) := by
  induction more generalizing a ids with
  | nil => simpa using h
  | cons id more ih =>
    rw [List.append_cons] at hnodup ⊢
    have hnew : id ∉ ids := by
      have hids := (List.nodup_append.1 hnodup).1
      exact fun hid => (List.nodup_append.1 hids).2.2 id hid id List.mem_cons_self rfl
    exact ih (h.add hnew) hnodup

end Assignment

/-! ### The identifiers of a chart -/

/-- A chart looks the identifier up: it is that of a node or an end of an edge. -/
def Occurs (records : Records) (id : String) : Prop :=
  (∃ node ∈ records.nodes, node.id = id) ∨
    ∃ edge ∈ records.edges, edge.source = id ∨ edge.destination = id

/-- The identifiers that are served are those that a chart looks up. -/
theorem contains_allIds_iff {records : Records} {id : String} :
    (allIds records).contains id = true ↔ Occurs records id := by
  rw [allIds, Set.contains_ofList, List.mem_append, List.mem_map, List.mem_flatMap]
  simp [Occurs, eq_comm]

/-- They are served in the order of their texts. -/
theorem serves_assign (records : Records) : (assign records).Serves (allIds records).toList :=
  Assignment.serves_empty.foldl ((Set.toList_sorted _).imp Key.before_ne)

/-- Whatever a chart looks up was given something. -/
theorem exists_get?_assign_iff {records : Records} {id : String} :
    (∃ fresh, (assign records).assigned.get? id = some fresh) ↔ Occurs records id := by
  rw [(serves_assign records).exists_get?_iff, ← Set.contains_iff_mem_toList, contains_allIds_iff]

theorem get?_assign {records : Records} {id : String} (h : Occurs records id) :
    (assign records).assigned.get? id = some ((assign records).get id) := by
  obtain ⟨fresh, hfresh⟩ := exists_get?_assign_iff.2 h
  rw [Assignment.get, hfresh]
  rfl

/-- **Different identifiers were given different ones.** -/
theorem get_assign_injOn {records : Records} {id id' : String} (h : Occurs records id)
    (h' : Occurs records id') (heq : (assign records).get id = (assign records).get id') :
    id = id' :=
  (serves_assign records).injective (get?_assign h) (heq ▸ get?_assign h')

/-- In a list in increasing order, what stands before a member is what comes before it. -/
theorem mem_before_iff {before after : List String} {id earlier : String}
    (hsorted : (before ++ id :: after).Pairwise fun a b => Key.before a b = true) :
    earlier ∈ before ↔ earlier ∈ before ++ id :: after ∧ Key.before earlier id = true := by
  obtain ⟨-, hrest, hcross⟩ := List.pairwise_append.1 hsorted
  constructor
  · exact fun h => ⟨List.mem_append_left _ h, hcross earlier h id List.mem_cons_self⟩
  · rintro ⟨hmem, hbefore⟩
    rcases List.mem_append.1 hmem with h | h
    · exact h
    · rcases List.mem_cons.1 h with rfl | h
      · rw [Key.before_irrefl] at hbefore
        cases hbefore
      · -- what stands behind the member does not come before it
        have hafter := (List.pairwise_cons.1 hrest).1 earlier h
        rw [Key.before_asymm hafter] at hbefore
        cases hbefore

/-- The forms that are taken when an identifier's turn comes. -/
def TakenBefore (records : Records) (id form : String) : Prop :=
  ∃ earlier, Occurs records earlier ∧ Key.before earlier id = true ∧
    (assign records).get earlier = form

/-- **Every identifier was given the first free form.** -/
theorem isFirstFree_assign {records : Records} {id : String} (h : Occurs records id) :
    IsFirstFree (TakenBefore records id) (plainId id) ((assign records).get id) := by
  have hmem : ∀ {id}, id ∈ (allIds records).toList ↔ Occurs records id := by
    intro id
    rw [← Set.contains_iff_mem_toList, contains_allIds_iff]
  obtain ⟨before, after, hids⟩ := List.append_of_mem (hmem.2 h)
  obtain ⟨fresh, hfresh, hfirst⟩ := (serves_assign records).first before id after hids
  have hsorted := Set.toList_sorted (allIds records)
  rw [get?_assign h] at hfresh
  rw [Option.some.inj hfresh]
  refine hfirst.congr fun form => exists_congr fun earlier => ?_
  rw [hids] at hsorted hmem
  rw [mem_before_iff hsorted, hmem, and_assoc]
  refine and_congr_right fun hoccurs => and_congr_right fun _ => ?_
  rw [get?_assign hoccurs, Option.some.injEq]

/-- **A chart tells identifiers apart.** The search for a free form always ends. Every identifier
that a chart looks up, of a node or of an end of an edge, was given one of the chart. It is the
plain form, or the plain form with the least number behind it, from two on, that was given to none
before it in the order of the records' identifiers. So different identifiers were given different
ones. -/
theorem assign_distinct (records : Records) :
    (∀ used base, Search used base base 2 (freshId used base)) ∧
    (∀ id, Occurs records id →
      (assign records).assigned.get? id = some ((assign records).get id)) ∧
    (∀ id, Occurs records id →
      IsFirstFree (TakenBefore records id) (plainId id) ((assign records).get id)) ∧
    ∀ id id', Occurs records id → Occurs records id' →
      (assign records).get id = (assign records).get id' → id = id' := by
  refine ⟨search_freshId, ?_, ?_, ?_⟩
  · exact fun id => get?_assign
  · exact fun id => isFirstFree_assign
  · exact fun id id' => get_assign_injOn

/-- Three identifiers have one plain form, and a fourth one looks like a numbered form of it. -/
example :
    let records : Records := ⟨"1.0.0", "m", [⟨"a/b", none, "", 0⟩, ⟨"a_b_2", none, "", 0⟩],
      [⟨"a.b", "a-b", 1, false⟩, ⟨"a/b", "a-b", 2, true⟩], []⟩
    (allIds records).toList.map (fun id => (id, (assign records).get id)) =
      [("a-b", "a_b"), ("a.b", "a_b_2"), ("a/b", "a_b_3"), ("a_b_2", "a_b_2_2")] := by
  decide +kernel

end PackageGraph.Mermaid
