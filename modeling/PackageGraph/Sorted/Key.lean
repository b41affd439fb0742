/-!
# Keys of sorted collections

A `Key` is a type with a strict linear order that a Boolean test decides. Text, numbers, lists and
pairs of keys are keys, each by dictionary order, so that the order of every sorted answer is
stated once here.

## Main definitions

* `Key`: the test `before` with its three laws.
* `dictionary`: dictionary order on lists; `Key (List α)` and `Key String` are built on it.
-/

namespace PackageGraph.Sorted

/-- A strict linear order, given by the test "`a` comes before `b`". -/
class Key (κ : Type) where
  /-- Does the first key come strictly before the second? -/
  before : κ → κ → Bool
  before_irrefl (a : κ) : before a a = false
  before_trans {a b c : κ} : before a b = true → before b c = true → before a c = true
  before_connected {a b : κ} : before a b = false → before b a = false → a = b

variable {α β κ : Type}

namespace Key

theorem before_asymm [Key κ] {a b : κ} (h : before a b = true) : before b a = false := by
  cases hba : before b a with
  | false => rfl
  | true => have := before_trans h hba; rw [before_irrefl] at this; cases this

theorem before_ne [Key κ] {a b : κ} (h : before a b = true) : a ≠ b := by
  rintro rfl
  rw [before_irrefl] at h
  cases h

/-- Of different keys one comes before the other. -/
theorem before_or_before [Key κ] {a b : κ} (h : a ≠ b) : before a b = true ∨ before b a = true := by
  cases hab : before a b with
  | true => exact .inl rfl
  | false =>
    cases hba : before b a with
    | true => exact .inr rfl
    | false => exact absurd (before_connected hab hba) h

/-- The order of `β`, carried to `α` by an injective map. -/
@[reducible] def comap [Key β] (f : α → β) (inj : ∀ {a b : α}, f a = f b → a = b) : Key α where
  before a b := before (f a) (f b)
  before_irrefl a := before_irrefl (f a)
  before_trans := before_trans
  before_connected h h' := inj (before_connected h h')

end Key

open Key

instance : Key Nat where
  before a b := decide (a < b)
  before_irrefl a := by simp
  before_trans h h' := by simp only [decide_eq_true_eq] at *; omega
  before_connected h h' := by simp only [decide_eq_false_iff_not] at *; omega

/-- Characters are ordered by code point. -/
instance : Key Char := comap Char.toNat Char.toNat_inj.1

/-! ### Dictionary order -/

/-- Dictionary order: the first place where two lists differ decides, and a list comes after its
own beginnings. -/
def dictionary [Key α] : List α → List α → Bool
  | _, [] => false
  | [], _ :: _ => true
  | a :: as, b :: bs =>
    if before a b then true else if before b a then false else dictionary as bs

/-- No list comes before itself. -/
theorem dictionary_irrefl [Key α] (as : List α) : dictionary as as = false := by
  induction as with
  | nil => rfl
  | cons a as ih => simp [dictionary, before_irrefl, ih]

/-- Lists of which neither comes first are equal. -/
theorem dictionary_connected [Key α] {as bs : List α} (h : dictionary as bs = false)
    (h' : dictionary bs as = false) : as = bs := by
  induction as generalizing bs with
  | nil => cases bs with
    | nil => rfl
    | cons b bs => simp [dictionary] at h
  | cons a as ih => cases bs with
    | nil => simp [dictionary] at h'
    | cons b bs =>
      cases hab : before a b with
      | true => simp [dictionary, hab] at h
      -- neither of the first keys comes first, so the lists go on with the same one
      | false =>
        cases hba : before b a with
        | true => simp [dictionary, hba] at h'
        | false =>
          simp only [dictionary, hab, hba, Bool.false_eq_true, if_false] at h h'
          rw [before_connected hab hba, ih h h']

/-- The order is transitive: the first place where two of the lists differ decides. -/
theorem dictionary_trans [Key α] {as bs cs : List α} (h : dictionary as bs = true)
    (h' : dictionary bs cs = true) : dictionary as cs = true := by
  induction as generalizing bs cs with
  | nil => cases bs with
    | nil => simp [dictionary] at h
    | cons b bs => cases cs with
      | nil => simp [dictionary] at h'
      | cons c cs => rfl
  | cons a as ih => cases bs with
    | nil => simp [dictionary] at h
    | cons b bs => cases cs with
      | nil => simp [dictionary] at h'
      | cons c cs =>
        simp only [dictionary] at h h' ⊢
        cases hab : before a b with
        -- `a` comes before `b`, and `b` does not come behind `c`
        | true =>
          cases hbc : before b c with
          | true => simp [before_trans hab hbc]
          | false =>
            cases hcb : before c b with
            | true => simp [hbc, hcb] at h'
            | false => rw [before_connected hbc hcb] at hab; simp [hab]
        -- the first two lists begin alike, so the third one decides
        | false =>
          cases hba : before b a with
          | true => simp [hab, hba] at h
          | false =>
            obtain rfl := before_connected hab hba
            cases hac : before a c with
            | true => simp
            | false =>
              cases hca : before c a with
              | true => simp [hac, hca] at h'
              | false =>
                simp only [hab, hac, hca, Bool.false_eq_true, if_false] at h h' ⊢
                exact ih h h'

/-- A common beginning does not matter. -/
theorem dictionary_append_left [Key α] (start as bs : List α) :
    dictionary (start ++ as) (start ++ bs) = dictionary as bs := by
  induction start with
  | nil => rfl
  | cons a start ih => simp [dictionary, before_irrefl, ih]

instance [Key α] : Key (List α) where
  before := dictionary
  before_irrefl := dictionary_irrefl
  before_trans := dictionary_trans
  before_connected := dictionary_connected

/-- Text is in dictionary order by code point, which is also the order of its UTF-8 bytes. -/
instance : Key String := comap String.toList String.toList_inj.1

/-- Pairs are ordered by the first component, then by the second. -/
instance [Key α] [Key β] : Key (α × β) where
  before p q := before p.1 q.1 || (!before q.1 p.1 && before p.2 q.2)
  before_irrefl p := by simp [before_irrefl]
  before_trans := by
    rintro ⟨a, b⟩ ⟨c, d⟩ ⟨e, f⟩ h h'
    simp only [Bool.or_eq_true, Bool.and_eq_true, Bool.not_eq_true'] at h h' ⊢
    rcases h with h | ⟨h, hbd⟩ <;> rcases h' with h' | ⟨h', hdf⟩
    · exact .inl (before_trans h h')
    · cases hce : before c e with
      | true => exact .inl (before_trans h hce)
      | false => obtain rfl := before_connected hce h'; exact .inl h
    · cases hac : before a c with
      | true => exact .inl (before_trans hac h')
      | false => obtain rfl := before_connected hac h; exact .inl h'
    · cases hac : before a c with
      | true =>
        cases hce : before c e with
        | true => exact .inl (before_trans hac hce)
        | false => obtain rfl := before_connected hce h'; exact .inl hac
      | false =>
        obtain rfl := before_connected hac h
        exact .inr ⟨h', before_trans hbd hdf⟩
  before_connected := by
    rintro ⟨a, b⟩ ⟨c, d⟩ h h'
    simp only [Bool.or_eq_false_iff, Bool.and_eq_false_iff, Bool.not_eq_false'] at h h'
    obtain rfl := before_connected h.1 h'.1
    simp only [before_irrefl, Bool.false_eq_true, false_or] at h h'
    rw [before_connected h.2 h'.2]

/-! ### Lists in strictly increasing order -/

/-- **A list in strictly increasing order is determined by its members.** -/
theorem eq_of_mem_iff [Key κ] {key : α → κ} {as bs : List α}
    (ha : as.Pairwise fun a a' => before (key a) (key a') = true)
    (hb : bs.Pairwise fun b b' => before (key b) (key b') = true) (h : ∀ a, a ∈ as ↔ a ∈ bs) :
    as = bs := by
  have hne : ∀ {a a' : α}, before (key a) (key a') = true → a ≠ a' := by
    rintro a _ hbefore rfl
    exact before_ne hbefore rfl
  have hperm : as.Perm bs := (List.perm_ext_iff_of_nodup (ha.imp hne) (hb.imp hne)).2 h
  refine hperm.eq_of_pairwise (fun a a' _ _ hbefore hafter => ?_) ha hb
  -- of two keys only one comes before the other
  rw [before_asymm hbefore] at hafter
  cases hafter

end PackageGraph.Sorted
