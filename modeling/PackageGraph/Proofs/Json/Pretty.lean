import PackageGraph.Json.Printer
import PackageGraph.Proofs.Json.Exact

/-!
# Pretty texts read back

A value that is printed is spelled by the grammar, at any level of indentation (`spells_print`); so
the value of its pretty text is the value itself (`Value.ofText?_pretty`). It has to be a value
whose texts have all their characters (`Value.Proper`), since a text with an unpaired surrogate is
printed without any.

The induction is on the value. A line break stands in front of every item and every member, and one
more in front of the closing mark; they are blanks around the item or member that they stand at.
-/

namespace PackageGraph.Json

open Text

/-! ### Values that are written as they are -/

/-- All texts in the value have their characters. -/
inductive Value.Proper : Value → Prop where
  | null : Proper .null
  | bool (b : Bool) : Proper (.bool b)
  | natural (n : Nat) : Proper (.natural n)
  | otherNumber : Proper .otherNumber
  | text (s : String) : Proper (.ofString s)
  | array {items : List Value} : (∀ item ∈ items, Proper item) → Proper (.array items)
  | object {members : List (Characters × Value)} :
    (∀ member ∈ members, member.1.isSome = true) → (∀ member ∈ members, Proper member.2) →
      Proper (.object members)

theorem Value.proper_array_map {α : Type} {write : α → Value} {items : List α}
    (h : ∀ item ∈ items, (write item).Proper) : (array (items.map write)).Proper := by
  refine .array fun value hmem => ?_
  obtain ⟨item, hitem, rfl⟩ := List.mem_map.1 hmem
  exact h item hitem

/-! ### Lines -/

theorem areBlank_newline (level : Nat) : AreBlank (newline level) := by
  intro c hc
  rw [newline, List.mem_cons, List.mem_replicate] at hc
  rcases hc with rfl | ⟨-, rfl⟩ <;> rfl

theorem newline_ne_nil (level : Nat) : newline level ≠ [] := List.cons_ne_nil _ _

/-- Lines are enclosed with the closing mark on a line of its own. -/
theorem enclose_of_ne_nil {opening closing : Char} {level : Nat} {lines : List Char}
    (h : lines ≠ []) :
    enclose opening closing level lines = opening :: (lines ++ (newline level ++ [closing])) := by
  rw [enclose, if_neg (by simpa using h), List.append_assoc]
  rfl

/-- Printed characters are quoted, and stand for themselves. -/
theorem isQuoted_printCharacters (s : String) : IsQuoted (printCharacters (some s)) (some s) := by
  have hread : readCharacters (Quoted.encode s.toList ++ ['"']) = some (some s, []) := by
    simp [readCharacters, Quoted.decode_encode]
  obtain ⟨quoted, htext, hquoted⟩ := isQuoted_of_readCharacters hread
  rw [List.append_nil] at htext
  rw [← htext] at hquoted
  exact hquoted

/-! ### Items and members -/

/-- The line of an item. -/
def itemOf (level : Nat) (item : Value) : List Char × Value :=
  (newline level ++ print level item, item)

/-- The line of a member: its key, a colon and a blank stand in front of its value. -/
def memberOf (level : Nat) (member : Characters × Value) : Member where
  keyText := newline level ++ printCharacters member.1
  key := member.1
  valueText := ' ' :: print level member.2
  value := member.2

/-- Items are printed as the lines of items, with commas between them. -/
theorem printItems_eq (level : Nat) (items : List Value) :
    printItems level items = commaSeparated ((items.map (itemOf level)).map Prod.fst) := by
  induction items with
  | nil => rw [printItems]; rfl
  | cons item items ih =>
    cases items with
    | nil => simp [printItems, comma, commaSeparated_singleton, itemOf]
    | cons next others =>
      -- a comma stands in front of the lines of the others
      rw [List.map_cons, List.map_cons, commaSeparated_cons (by simp), ← ih, printItems]
      simp [comma, itemOf]

/-- Members are printed as the lines of members, with commas between them. -/
theorem printMembers_eq (level : Nat) (members : List (Characters × Value)) :
    printMembers level members =
      commaSeparated ((members.map (memberOf level)).map Member.text) := by
  induction members with
  | nil => rw [printMembers]; rfl
  | cons member members ih =>
    cases members with
    | nil => simp [printMembers, comma, commaSeparated_singleton, memberOf, Member.text]
    | cons next others =>
      -- a comma stands in front of the lines of the others
      rw [List.map_cons, List.map_cons, commaSeparated_cons (by simp), ← ih, printMembers]
      simp [comma, memberOf, Member.text]

theorem printItems_ne_nil {level : Nat} {items : List Value} (h : items ≠ []) :
    printItems level items ≠ [] := by
  obtain ⟨item, others, rfl⟩ := List.exists_cons_of_ne_nil h
  simp [printItems, newline_ne_nil]

theorem printMembers_ne_nil {level : Nat} {members : List (Characters × Value)} (h : members ≠ []) :
    printMembers level members ≠ [] := by
  obtain ⟨member, others, rfl⟩ := List.exists_cons_of_ne_nil h
  simp [printMembers, newline_ne_nil]

/-! ### Values -/

/-- Without items, the brackets stand side by side. -/
theorem spells_print_array {items : List Value}
    (h : ∀ item ∈ items, ∀ level, Spells (print level item) item) (level : Nat) :
    Spells (print level (.array items)) (.array items) := by
  rw [print]
  by_cases hnil : items = []
  · rw [hnil, printItems]
    exact .emptyArray areBlank_nil
  · rw [enclose_of_ne_nil (printItems_ne_nil hnil), printItems_eq]
    -- the line break in front of an item is a blank of this item
    have hlines : ∀ line ∈ items.map (itemOf (level + 1)), Spells line.1 line.2 := by
      intro line hline
      obtain ⟨item, hitem, rfl⟩ := List.mem_map.1 hline
      exact (h item hitem (level + 1)).blanks_append (areBlank_newline _)
    have hvalues : (items.map (itemOf (level + 1))).map Prod.snd = items := by
      simp [Function.comp_def, itemOf]
    -- and the one in front of the closing bracket a blank of the last item
    have hspelled :=
      Spells.array_append_blanks (by simpa using hnil) hlines (areBlank_newline level)
    rwa [hvalues] at hspelled

/-- Without members, the braces stand side by side. -/
theorem spells_print_object {members : List (Characters × Value)}
    (hkeys : ∀ member ∈ members, member.1.isSome = true)
    (h : ∀ member ∈ members, ∀ level, Spells (print level member.2) member.2) (level : Nat) :
    Spells (print level (.object members)) (.object members) := by
  rw [print]
  by_cases hnil : members = []
  · rw [hnil, printMembers]
    exact .emptyObject areBlank_nil
  · rw [enclose_of_ne_nil (printMembers_ne_nil hnil), printMembers_eq]
    -- a key has the line break in front of it
    have hlineKeys : ∀ line ∈ members.map (memberOf (level + 1)), IsKey line.keyText line.key := by
      intro line hline
      obtain ⟨⟨characters, value⟩, hmember, rfl⟩ := List.mem_map.1 hline
      obtain ⟨key, rfl⟩ := Option.isSome_iff_exists.1 (hkeys _ hmember)
      exact ⟨newline (level + 1), printCharacters (some key), [], by simp [memberOf],
        areBlank_newline _, areBlank_nil, isQuoted_printCharacters key⟩
    -- a value has a blank in front of it
    have hlines : ∀ line ∈ members.map (memberOf (level + 1)),
        Spells line.valueText line.value := by
      intro line hline
      obtain ⟨member, hmember, rfl⟩ := List.mem_map.1 hline
      have hblank : AreBlank [' '] := by simp [AreBlank, isBlank]
      exact (h member hmember (level + 1)).blanks_append hblank
    have hentries : (members.map (memberOf (level + 1))).map Member.entry = members := by
      simp [Function.comp_def, memberOf, Member.entry]
    -- the last line break is a blank of the last value
    have hspelled :=
      Spells.object_append_blanks (by simpa using hnil) hlineKeys hlines (areBlank_newline level)
    rwa [hentries] at hspelled

/-- **What is printed is spelled.** -/
theorem spells_print {value : Value} (h : value.Proper) (level : Nat) :
    Spells (print level value) value := by
  induction h generalizing level with
  | null => rw [print]; exact .nullWord
  | bool b =>
    cases b with
    | true => rw [print]; exact .trueWord
    | false => rw [print]; exact .falseWord
  | natural n => rw [print]; exact .number (isNumber_decimal n)
  | otherNumber =>
    -- the stand-in for any other number is printed as `0.0`
    have hwhole : IsWhole ['0'] := ⟨⟨by decide, by simp⟩, fun _ => rfl⟩
    have hfraction : IsFraction ['.', '0'] := .point hwhole.toIsDigits
    rw [print]
    exact .number (.other (.inl rfl) hwhole hfraction .none (by simp))
  | text s =>
    rw [Value.ofString, print]
    exact .text (isQuoted_printCharacters s)
  | array _ ih => exact spells_print_array ih level
  | object hkeys _ ih => exact spells_print_object hkeys ih level

/-- **Pretty text is read back**, whatever blanks follow it. -/
theorem Value.ofText?_pretty {value : Value} (h : value.Proper) {blanks : List Char}
    (hblanks : ∀ c ∈ blanks, isBlank c = true) :
    Value.ofText? (value.pretty ++ blanks) = some value :=
  ofText?_eq_some_iff.2 ((spells_print h 0).append_blanks hblanks)

end PackageGraph.Json
