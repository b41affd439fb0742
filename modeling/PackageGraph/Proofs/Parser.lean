import PackageGraph.Parser

/-!
# What parsers read

A property of everything that a parser can read (`Parser.Yields`) is read off the parser piece by
piece. What a sequence reads is what its last part reads, given what the parts before it have read;
what an alternative reads is read by one of its sides.
-/

namespace PackageGraph.Parser

variable {σ α β : Type} {P : α → Prop} {Q : β → Prop}

/-- Whatever the parser reads has the property. -/
def Yields (p : Parser σ α) (P : α → Prop) : Prop :=
  ∀ symbols a rest, p symbols = some (a, rest) → P a

namespace Yields

theorem pure {a : α} (h : P a) : Yields (pure a : Parser σ α) P := by
  intro symbols b rest hread
  obtain ⟨rfl, -⟩ := Prod.mk.inj (Option.some.inj hread)
  exact h

theorem failure : Yields (failure : Parser σ α) P := nofun

/-- A sequence reads what its second part reads, given what the first part has read. -/
theorem bindOf {p : Parser σ β} {f : β → Parser σ α} (hp : Yields p Q)
    (hf : ∀ b, Q b → Yields (f b) P) : Yields (p >>= f) P := by
  intro symbols a rest hread
  obtain ⟨⟨b, left⟩, hfirst, hsecond⟩ := Option.bind_eq_some_iff.1 hread
  exact hf b (hp symbols b left hfirst) left a rest hsecond

/-- A sequence reads what its second part reads, whatever the first part has read. -/
theorem bind {p : Parser σ β} {f : β → Parser σ α} (hf : ∀ b, Yields (f b) P) :
    Yields (p >>= f) P :=
  bindOf (Q := fun _ => True) (fun _ _ _ _ => trivial) fun b _ => hf b

theorem orElse {p q : Parser σ α} (hp : Yields p P) (hq : Yields q P) : Yields (p <|> q) P := by
  intro symbols a rest hread
  change (p symbols <|> q symbols) = some (a, rest) at hread
  cases hfirst : p symbols with
  | none =>
    -- the second side is asked where the first one reads nothing
    rw [hfirst] at hread
    exact hq symbols a rest hread
  | some result =>
    rw [hfirst] at hread
    exact hp symbols a rest (hfirst.trans hread)

/-- What a choice reads is read by the side that is chosen. -/
theorem ite {c : Prop} [Decidable c] {p q : Parser σ α} (hp : Yields p P) (hq : Yields q P) :
    Yields (if c then p else q) P := by
  split
  · exact hp
  · exact hq

end Yields

/-- What is read from all the symbols has the property. -/
theorem Yields.of_readAll? {p : Parser σ α} (h : Yields p P) {symbols : List σ} {a : α}
    (hread : readAll? p symbols = some a) : P a :=
  h symbols a [] (readAll?_eq_some.1 hread)

end PackageGraph.Parser
